/-
# Debugger.Conduct -- what every function of the actor keeps

`Sound o hand` holds between any two statements of the actor: the log has obeyed
`Deed.Law`, the fields are what the log says, every envelope taken is answered,
waiting or in hand, and the run's view holds what the helper's believed replies
say.  `hand` is the number of the envelope being handled.

`Follows` says the run is still the same run, no further back than it was.  Each
function of the actor has one lemma, `Leads`, for both; only `start` and Close
change the run, and `Continues` is what is left of `Follows` there.
-/
import Reb.Debugger.BelievedReplies
import Reb.Debugger.Owner
import Reb.Theory.Machine

namespace Reb.Debugger

open Theory.Machine

set_option autoImplicit false

/-! ## What the log says -/

namespace Deed

def live : Bool → Deed → Bool
  | _, .spawned _ => true
  | _, .reaped => false
  | live, _ => live

def flight : Option WireRequest → Deed → Option WireRequest
  | _, .requested request => some request
  | _, .validated _ | _, .dropped => none
  | flight, _ => flight

/-- The views believed with status 0 since the run began. -/
def accept : List NativeView → Deed → List NativeView
  | _, .began _ => []
  | views, .validated reply => if reply.status = 0 then views ++ [reply.view] else views
  | views, _ => views

def answers (k : Nat) : Deed → Bool
  | .replied j _ | .skipped j => j == k
  | _ => false

end Deed

def helperLive (log : List Deed) : Bool := log.foldl Deed.live false

def inFlight (log : List Deed) : Option WireRequest := log.foldl Deed.flight none

def accepted (log : List Deed) : List NativeView := log.foldl Deed.accept []

def answered (k : Nat) (log : List Deed) : Nat := log.countP (Deed.answers k)

/-- No helper beside another, no exchange beside another, and no answer to a parked
Pause before its exchange is over.  The first reply a run believes is to its start and
every other one to an execution. -/
def Deed.Law (past : List Deed) : Deed → Prop
  | .spawned _ => helperLive past = false
  | .reaped => helperLive past = true
  | .requested _ => inFlight past = none
  | .validated _ => ∃ request, inFlight past = some request
      ∧ (request.operation = 2 ↔ accepted past ≠ [])
  | .dropped => (inFlight past).isSome = true
  | .parked _ => (inFlight past).isSome = true
  | .replied k _ => .parked k ∈ past → inFlight past = none
  | _ => True

section Log

variable (log : List Deed) (deed : Deed)

@[simp] theorem helperLive_snoc : helperLive (log ++ [deed]) = Deed.live (helperLive log) deed := by
  simp [helperLive, List.foldl_append]

@[simp] theorem inFlight_snoc : inFlight (log ++ [deed]) = Deed.flight (inFlight log) deed := by
  simp [inFlight, List.foldl_append]

@[simp] theorem accepted_snoc : accepted (log ++ [deed]) = Deed.accept (accepted log) deed := by
  simp [accepted, List.foldl_append]

@[simp] theorem answered_snoc (k : Nat) :
    answered k (log ++ [deed]) = answered k log + if deed.answers k then 1 else 0 := by
  simp [answered, List.countP_append, List.countP_singleton]

end Log

/-! ## The run, from one moment to a later one -/

namespace Runtime

/-- `s'` is the same run as `s`, later. -/
structure SameRun (s s' : Runtime) : Prop where
  spec : s'.spec = s.spec
  revision : s.view.controlRevision ≤ s'.view.controlRevision
  final : s.view.state.terminal = true → s'.view.state = s.view.state
    ∧ s'.view.terminationReason = s.view.terminationReason
    ∧ (s.view.executionStateKnown = false → s'.view.executionStateKnown = false)

theorem SameRun.refl (s : Runtime) : s.SameRun s :=
  ⟨rfl, UInt64.le_refl _, fun _ => ⟨rfl, rfl, id⟩⟩

theorem SameRun.trans {s m s' : Runtime} (first : s.SameRun m) (second : m.SameRun s') :
    s.SameRun s' := by
  refine ⟨second.spec.trans first.spec, UInt64.le_trans first.revision second.revision, fun ended => ?_⟩
  obtain ⟨state, reason, known⟩ := first.final ended
  obtain ⟨state', reason', known'⟩ := second.final (by rw [state, ended])
  exact ⟨state'.trans state, reason'.trans reason, fun unknown => known' (known unknown)⟩

def Named (s : Runtime) : Prop := s.view.terminationReason.isSome = s.view.state.terminal

/-- A run without a snapshot is starting, or is over before it has started. -/
def Begun (s : Runtime) : Prop :=
  s.initializing = true → s.view.state = .starting ∨ s.view.state = .stopping
    ∨ s.view.state.terminal = true

/-- A change of the run that stores no reply. -/
structure Revises (s s' : Runtime) : Prop where
  same : s.SameRun s'
  trace : s'.view.trace = s.view.trace
  stored : s'.view.snapshotRevision = s.view.snapshotRevision
  generation : s'.view.runGeneration = s.view.runGeneration
  named : s.Named → s'.Named
  begun : s.Begun → s'.Begun

theorem Revises.trans {s m s' : Runtime} (first : s.Revises m) (second : m.Revises s') :
    s.Revises s' :=
  ⟨first.same.trans second.same, second.trace.trans first.trace, second.stored.trans first.stored,
    second.generation.trans first.generation, fun named => second.named (first.named named),
    fun begun => second.begun (first.begun begun)⟩

/-- A change of the run that leaves its state alone. -/
theorem revises_of_state {s s' : Runtime} (spec : s'.spec = s.spec)
    (revision : s.view.controlRevision ≤ s'.view.controlRevision)
    (state : s'.view.state = s.view.state)
    (reason : s'.view.terminationReason = s.view.terminationReason)
    (known : s.view.executionStateKnown = false → s'.view.executionStateKnown = false)
    (trace : s'.view.trace = s.view.trace)
    (stored : s'.view.snapshotRevision = s.view.snapshotRevision)
    (generation : s'.view.runGeneration = s.view.runGeneration) : s.Revises s' := by
  refine ⟨⟨spec, revision, fun _ => ⟨state, reason, known⟩⟩, trace, stored, generation, ?_, ?_⟩
  · rw [Named, Named, state, reason]
    exact id
  · rw [Begun, Begun, initializing, initializing, trace, state]
    exact id

theorem allows_live {current next : State} (allowed : current.allows next = true) :
    current.terminal = false := by
  simp only [State.allows, Bool.and_eq_true, Bool.not_eq_true'] at allowed
  exact allowed.1

theorem allows_terminal {current next : State} (final : next.terminal = true)
    (live : current.terminal = false) : current.allows next = true := by
  simp [State.allows, final, live]

/-- A run that starts may only become paused or stopping, and one that stops nothing. -/
theorem begun_allows {current next : State} (allowed : current.allows next = true)
    (live : next.terminal = false)
    (early : current = .starting ∨ current = .stopping ∨ current.terminal = true) :
    (current = .starting ∧ next = .paused) ∨ next = .stopping := by
  rcases early with rfl | rfl | final
  · cases next <;> simp_all [State.allows, State.terminal]
  · cases next <;> simp_all [State.allows, State.terminal]
  · simp [State.allows, final] at allowed

theorem transition_revises {s : Runtime} {next : State} (live : next.terminal = false)
    (paused : next = .paused → s.view.state = .starting → s.initializing = false) :
    s.Revises (s.transition next) := by
  rw [transition]
  split
  · rename_i allowed
    have was := allows_live allowed
    refine ⟨⟨rfl, UInt64.le_refl _, fun final => ?_⟩, rfl, rfl, rfl, fun named => ?_, fun begun => ?_⟩
    · rw [was] at final
      cases final
    · rw [Named] at *
      simp only [named, was, live]
    · intro first
      rcases begun_allows allowed live (begun first) with ⟨starting, rfl⟩ | rfl
      · have begun' : s.initializing = true := first
        rw [paused rfl starting] at begun'
        cases begun'
      · exact .inr (.inl rfl)
  · exact revises_of_state rfl (UInt64.le_refl _) rfl rfl id rfl rfl rfl

theorem terminate_revises (s : Runtime) {state : State} (final : state.terminal = true)
    (reason : String) : s.Revises (s.terminate state reason) := by
  rw [terminate]
  split
  · rename_i allowed
    have was := allows_live allowed
    refine ⟨⟨rfl, UInt64.le_refl _, fun ended => ?_⟩, rfl, rfl, rfl, fun _ => ?_, fun _ _ => ?_⟩
    · rw [was] at ended
      cases ended
    · simp [Named, final]
    · exact .inr (.inr final)
  · exact revises_of_state rfl (UInt64.le_refl _) rfl rfl id rfl rfl rfl

theorem stamp_revises (s : Runtime) (request : ControlRequest) (ack : Ack) :
    s.Revises (s.stamp request ack) :=
  revises_of_state rfl (UInt64.le_refl _) rfl rfl id rfl rfl rfl

theorem le_checkedAdd {a b c : UInt64} (sum : checkedAdd a b = some c) : a ≤ c := by
  rw [UInt64.le_iff_toNat_le, checkedAdd_eq_some.1 sum]
  exact Nat.le_add_right ..

theorem retired_revises (s : Runtime) {state : State} (final : state.terminal = true)
    (reason : String) (unknown : Bool) : s.Revises (s.retired state reason unknown) := by
  have untimed : s.Revises { s with nextTick := none } :=
    revises_of_state rfl (UInt64.le_refl _) rfl rfl id rfl rfl rfl
  have ended : s.Revises ({ s with nextTick := none }.terminate state reason) :=
    untimed.trans (terminate_revises _ final reason)
  refine ended.trans (revises_of_state rfl ?_ rfl rfl (fun known => ?_) rfl rfl rfl)
  · simp only [retired]
    cases next : checkedAdd _ 1 with
    | none => exact UInt64.le_refl _
    | some revision => exact le_checkedAdd next
  · simp only [retired, known, Bool.false_and]

theorem quiesced_revises (s : Runtime) (uncertainStep : Bool) :
    s.Revises (s.quiesced uncertainStep) := by
  have stopping : s.Revises (s.transition .stopping) := transition_revises rfl (by simp)
  refine stopping.trans (revises_of_state rfl (UInt64.le_refl _) rfl rfl (fun known => ?_) rfl rfl rfl)
  simp only [quiesced, known, Bool.false_and]

theorem disposed_revises (s : Runtime) (reaped : Bool) : s.Revises (s.disposed reaped) := by
  have flagged : s.Revises { s with view := { s.view with disposalFailed := !reaped } } :=
    revises_of_state rfl (UInt64.le_refl _) rfl rfl id rfl rfl rfl
  rw [disposed]
  split
  · exact flagged
  · exact flagged.trans (terminate_revises _ rfl _)

theorem transition_live {s : Runtime} {next : State} (live : next.terminal = false)
    (was : s.view.state.terminal = false) : (s.transition next).view.state.terminal = false := by
  rw [transition]
  split
  · exact live
  · exact was

theorem terminate_terminal (s : Runtime) {state : State} (final : state.terminal = true)
    (reason : String) : (s.terminate state reason).view.state.terminal = true := by
  rw [terminate]
  split
  · exact final
  · rename_i refused
    by_contra live
    exact refused (allows_terminal final (Bool.not_eq_true _ ▸ live))

theorem retired_terminal (s : Runtime) {state : State} (final : state.terminal = true)
    (reason : String) (unknown : Bool) :
    (s.retired state reason unknown).view.state.terminal = true :=
  terminate_terminal _ final reason

theorem disposed_terminal {s : Runtime} (final : s.view.state.terminal = true) (reaped : Bool) :
    (s.disposed reaped).view.state.terminal = true := by
  rw [((disposed_revises s reaped).same.final final).1, final]

theorem disposed_false_terminal (s : Runtime) : (s.disposed false).view.state.terminal = true :=
  terminate_terminal _ rfl _

/-- The run as the log has it: its view holds what the helper was believed in. -/
structure Sound (s : Runtime) (views : List NativeView) : Prop where
  named : s.Named
  begun : s.Begun
  generation : s.view.runGeneration = s.spec.generation
  believed : Believed s.spec views
  trace : s.view.trace = .ofViews views
  stored : s.view.snapshotRevision.toNat = views.length

theorem Sound.revises {s s' : Runtime} {views : List NativeView} (sound : s.Sound views)
    (revises : s.Revises s') : s'.Sound views :=
  ⟨revises.named sound.named, revises.begun sound.begun,
    by rw [revises.generation, revises.same.spec, sound.generation],
    revises.same.spec ▸ sound.believed, revises.trace.trans sound.trace,
    by rw [revises.stored, sound.stored]⟩

/-- The run that an exchange belongs to: operation 0 starts it, operation 2 executes. -/
structure Awaits (s : Runtime) (request : WireRequest) : Prop where
  live : s.view.state.terminal = false
  generation : request.generation = s.spec.generation
  operation : (request.operation = 0 ∧ s.initializing = true)
    ∨ (request.operation = 2 ∧ s.initializing = false)

/-- The replies believed so far tell a start from an execution. -/
theorem Awaits.executes {s : Runtime} {request : WireRequest} {views : List NativeView}
    (awaits : s.Awaits request) (held : s.Sound views) : request.operation = 2 ↔ views ≠ [] := by
  have first : s.initializing = views.isEmpty := by
    rw [initializing, held.trace, initialSnapshot_isNone]
  rcases awaits.operation with ⟨start, begins⟩ | ⟨executes, begun⟩
  · rw [first, List.isEmpty_iff] at begins
    simp [start, begins]
  · rw [first, List.isEmpty_eq_false_iff] at begun
    simp [executes, begun]

theorem Awaits.revises {s s' : Runtime} {request : WireRequest} (awaits : s.Awaits request)
    (revises : s.Revises s') (live : s'.view.state.terminal = false) : s'.Awaits request :=
  ⟨live, by rw [revises.same.spec, awaits.generation],
    by rw [initializing, revises.trace]; exact awaits.operation⟩

end Runtime

/-! ## The actor, between two statements -/

def owed (k : Nat) (reply : Option Nat) : Nat := if reply = some k then 1 else 0

/-- One for each of the first `taken` envelopes. -/
def issued (k taken : Nat) : Nat := if k < taken then 1 else 0

theorem issued_succ (k taken : Nat) : issued k (taken + 1) = issued k taken + owed k (some taken) := by
  simp only [issued, owed, Option.some.injEq]
  rcases Nat.lt_trichotomy k taken with lt | rfl | gt
  · simp [lt, Nat.lt_succ_of_lt lt, Nat.ne_of_gt lt]
  · simp
  · simp [Nat.not_lt_of_gt gt, Nat.not_lt_of_ge (Nat.succ_le_of_lt gt), Nat.ne_of_lt gt]

@[simp] theorem owed_none (k : Nat) : owed k none = 0 := rfl

@[simp] theorem answered_replied (k j : Nat) (log : List Deed) (result : Except Error Answer) :
    answered k (log ++ [.replied j result]) = answered k log + owed k (some j) := by
  simp [owed, Deed.answers]

namespace Owner

structure Sound (o : Owner) (hand : Option Nat) : Prop where
  lawful : Lawful Deed.Law o.log
  helper : helperLive o.log = o.child.isSome
  wire : inFlight o.log = o.exchange
  parked : ∀ k, .parked k ∈ o.log → k < o.taken.length ∧ hand ≠ some k
  skipped : ∀ k, .skipped k ∈ o.log → o.taken[k]? = some true
  account : ∀ k, answered k o.log + owed k (o.pending.map (·.reply)) + owed k (o.pause.map (·.reply))
    + owed k hand = issued k o.taken.length
  run : ∀ s, o.session = some s → s.Sound (accepted o.log) ∧ s.spec.generation < o.nextGeneration
  flight : ∀ r, o.exchange = some r → ∃ s, o.session = some s ∧ s.Awaits r

/-- No run before and after, or the same run, no further back. -/
def SameRun (o o' : Owner) : Prop := Option.Rel Runtime.SameRun o.session o'.session

theorem SameRun.of_eq {o o' : Owner} (same : o'.session = o.session) : SameRun o o' := by
  rw [SameRun, same]
  cases o.session with
  | none => exact .none
  | some s => exact .some (.refl s)

theorem SameRun.trans {o m o' : Owner} (first : SameRun o m) (second : SameRun m o') :
    SameRun o o' := by
  rw [SameRun] at *
  revert first second
  rcases o.session with _ | s <;> rcases m.session with _ | m <;> rcases o'.session with _ | s' <;>
    intro first second <;> cases first <;> cases second
  · exact .none
  · exact .some (Runtime.SameRun.trans ‹_› ‹_›)

theorem SameRun.some {o o' : Owner} {s : Runtime} (same : SameRun o o')
    (found : o.session = some s) : ∃ s', o'.session = some s' ∧ s.SameRun s' := by
  rw [SameRun, found] at same
  revert same
  rcases o'.session with _ | s' <;> intro same <;> cases same
  exact ⟨s', rfl, ‹_›⟩

/-- What no function of the actor changes, `start` and Close apart. -/
structure Follows (o o' : Owner) : Prop where
  run : SameRun o o'
  next : o'.nextGeneration = o.nextGeneration
  taken : o'.taken = o.taken
  stopped : o'.stopped = o.stopped

theorem Follows.of_session {o o' : Owner} (same : o'.session = o.session)
    (next : o'.nextGeneration = o.nextGeneration) (taken : o'.taken = o.taken)
    (stopped : o'.stopped = o.stopped) : Follows o o' :=
  ⟨.of_eq same, next, taken, stopped⟩

theorem Follows.trans {o m o' : Owner} (first : Follows o m) (second : Follows m o') :
    Follows o o' :=
  ⟨first.run.trans second.run, second.next.trans first.next, second.taken.trans first.taken,
    second.stopped.trans first.stopped⟩

/-- One function of the actor: it keeps the actor sound, and the run the same. -/
def Leads (o : Owner) (hand : Option Nat) (o' : Owner) (hand' : Option Nat) : Prop :=
  Sound o hand → Sound o' hand' ∧ Follows o o'

section Steps

variable {o m o' : Owner} {hand hand' hand'' : Option Nat}

theorem Leads.refl : Leads o hand o hand := fun sound => ⟨sound, .of_session rfl rfl rfl rfl⟩

theorem Leads.trans (first : Leads o hand m hand') (second : Leads m hand' o' hand'') :
    Leads o hand o' hand'' := by
  intro sound
  obtain ⟨kept, follows⟩ := first sound
  obtain ⟨kept', follows'⟩ := second kept
  exact ⟨kept', follows.trans follows'⟩

theorem publish_leads : Leads o hand o.publish hand := fun sound =>
  ⟨⟨sound.lawful, sound.helper, sound.wire, sound.parked, sound.skipped, sound.account, sound.run, sound.flight⟩,
    .of_session rfl rfl rfl rfl⟩

/-- The envelope in hand may be answered at any time. -/
theorem reply_leads {k : Nat} (result : Except Error Answer) :
    Leads o (some k) (o.emit (.replied k result)) none := by
  intro sound
  refine ⟨⟨sound.lawful.snoc ?_, ?_, ?_, ?_, ?_, ?_, ?_, sound.flight⟩, .of_session rfl rfl rfl rfl⟩
  · intro parked
    exact absurd rfl (sound.parked k parked).2
  · simpa [emit, Deed.live] using sound.helper
  · simpa [emit, Deed.flight] using sound.wire
  · intro j member
    have earlier : Deed.parked j ∈ o.log := by simpa [emit] using member
    exact ⟨(sound.parked j earlier).1, by simp⟩
  · intro j member
    exact sound.skipped j (by simpa [emit] using member)
  · intro j
    have := sound.account j
    simp only [emit, answered_replied, owed_none] at this ⊢
    omega
  · intro s found
    simpa [emit, Deed.accept] using sound.run s found

theorem reject_leads (message : Envelope) (error : Error) :
    Leads o (some message.reply) (o.reject message error) none :=
  reply_leads _

theorem answer_leads (fits : PublicView → Bool) (message : Envelope) (ack : Ack) :
    Leads o (some message.reply) (o.answer fits message ack) none :=
  reply_leads _

/-- A waiting envelope is answered once its exchange is over. -/
theorem reply_waiter_leads {k : Nat} (pending pause : Option Envelope) (idle : o.exchange = none)
    (waits : ∀ j, owed j (o.pending.map (·.reply)) + owed j (o.pause.map (·.reply))
      = owed j (pending.map (·.reply)) + owed j (pause.map (·.reply)) + owed j (some k))
    (result : Except Error Answer) :
    Leads o hand ({ o with pending, pause }.emit (.replied k result)) hand := by
  intro sound
  refine ⟨⟨sound.lawful.snoc ?_, ?_, ?_, ?_, ?_, ?_, ?_, sound.flight⟩, .of_session rfl rfl rfl rfl⟩
  · intro _
    rw [sound.wire, idle]
  · simpa [emit, Deed.live] using sound.helper
  · simpa [emit, Deed.flight] using sound.wire
  · intro j member
    exact sound.parked j (by simpa [emit] using member)
  · intro j member
    exact sound.skipped j (by simpa [emit] using member)
  · intro j
    have := sound.account j
    have := waits j
    simp only [emit, answered_replied]
    omega
  · intro s found
    simpa [emit, Deed.accept] using sound.run s found

@[simp] theorem rejectPending_exchange (error : Error) :
    (o.rejectPending error).exchange = o.exchange := by
  rw [rejectPending]
  split <;> rfl

theorem rejectPending_leads (idle : o.exchange = none) (error : Error) :
    Leads o hand (o.rejectPending error) hand := by
  rw [rejectPending]
  split
  · exact .refl
  · rename_i message waiting
    apply reply_waiter_leads none o.pause idle
    intro j
    simp [waiting]
    omega

theorem rejectPause_leads (idle : o.exchange = none) (error : Error) :
    Leads o hand (o.rejectPause error) hand := by
  rw [rejectPause]
  split
  · exact .refl
  · rename_i message waiting
    apply reply_waiter_leads o.pending none idle
    intro j
    simp [waiting]

theorem rejectWaiters_leads (idle : o.exchange = none) (error : Error) :
    Leads o hand (o.rejectWaiters error) hand :=
  (rejectPending_leads idle error).trans (rejectPause_leads (by simpa using idle) error)

theorem abandon_leads : Leads o hand o.abandon hand := by
  rw [abandon]
  split
  · exact .refl
  · rename_i r flying
    intro sound
    refine ⟨⟨sound.lawful.snoc ?_, ?_, ?_, ?_, ?_, ?_, ?_, ?_⟩, .of_session rfl rfl rfl rfl⟩
    · rw [Deed.Law, sound.wire, flying]
      rfl
    · simpa [emit, Deed.live] using sound.helper
    · simp [emit, Deed.flight]
    · intro j member
      exact sound.parked j (by simpa [emit] using member)
    · intro j member
      exact sound.skipped j (by simpa [emit] using member)
    · intro j
      simpa [emit, Deed.answers] using sound.account j
    · intro s found
      simpa [emit, Deed.accept] using sound.run s found
    · intro r flying
      cases flying

theorem abandon_idle : o.abandon.exchange = none := by
  rw [abandon]
  split <;> simp [emit, *]

theorem abandon_session : o.abandon.session = o.session := by
  rw [abandon]
  split <;> rfl

/-- The run may change wherever no exchange waits for it, and while it stays live. -/
theorem revise_leads {s s' : Runtime} (found : o.session = some s) (revises : s.Revises s')
    (live : o.exchange = none
      ∨ (s.view.state.terminal = false → s'.view.state.terminal = false)) :
    Leads o hand { o with session := some s' } hand := by
  intro sound
  obtain ⟨held, fresh⟩ := sound.run s found
  refine ⟨⟨sound.lawful, sound.helper, sound.wire, sound.parked, sound.skipped, sound.account, ?_, ?_⟩,
    ?_, rfl, rfl, rfl⟩
  · rintro _ ⟨⟩
    exact ⟨held.revises revises, by rw [revises.same.spec]; exact fresh⟩
  · intro r flying
    obtain ⟨w, same, awaits⟩ := sound.flight r flying
    rw [found, Option.some.injEq] at same
    subst same
    rcases live with idle | live
    · rw [show o.exchange = some r from flying] at idle
      cases idle
    · exact ⟨s', rfl, awaits.revises revises (live awaits.live)⟩
  · rw [SameRun, found]
    exact .some revises.same

theorem updateSession_leads {f : Runtime → Runtime} (idle : o.exchange = none)
    (revises : ∀ s : Runtime, s.Revises (f s)) : Leads o hand (o.updateSession f) hand := by
  rw [updateSession]
  cases found : o.session with
  | none =>
      have same : { o with session := none } = o := by rw [← found]
      rw [Option.map_none, same]
      exact .refl
  | some s => exact revise_leads found (revises s) (.inl idle)

theorem stamp_leads (request : ControlRequest) (ack : Ack) :
    Leads o hand (o.stamp request ack) hand := by
  rw [stamp, updateSession]
  cases found : o.session with
  | none =>
      have same : { o with session := none } = o := by rw [← found]
      rw [Option.map_none, same]
      exact .refl
  | some s => exact revise_leads found (s.stamp_revises request ack) (.inr id)

theorem reap_leads {spec : SpawnSpec} (held : o.child = some spec) :
    Leads o hand ({ o with child := none }.emit .reaped) hand := by
  intro sound
  refine ⟨⟨sound.lawful.snoc ?_, ?_, ?_, ?_, ?_, ?_, ?_, ?_⟩, .of_session rfl rfl rfl rfl⟩
  · rw [Deed.Law, sound.helper, held]
    rfl
  · simp [emit, Deed.live]
  · simpa [emit, Deed.flight] using sound.wire
  · intro j member
    exact sound.parked j (by simpa [emit] using member)
  · intro j member
    exact sound.skipped j (by simpa [emit] using member)
  · intro j
    simpa [emit, Deed.answers] using sound.account j
  · intro s found
    simpa [emit, Deed.accept] using sound.run s found
  · exact sound.flight

theorem dispose_leads (idle : o.exchange = none) (reaped : Option DisposalFailure) :
    Leads o hand (o.dispose reaped).1 hand := by
  unfold dispose
  split
  · exact updateSession_leads idle fun s => s.disposed_revises true
  · rename_i held
    exact (reap_leads held).trans (updateSession_leads idle fun s => s.disposed_revises true)
  · exact updateSession_leads idle fun s => s.disposed_revises false

theorem retire_leads {state : State} (final : state.terminal = true) (reason : String)
    (unknown : Bool) (reaped : Option DisposalFailure) :
    Leads o hand (o.retire state reason unknown reaped) hand := by
  have idle : (o.abandon.updateSession (·.retired state reason unknown)).exchange = none :=
    abandon_idle (o := o)
  apply Leads.trans _ (dispose_leads idle reaped)
  exact abandon_leads.trans (updateSession_leads abandon_idle
    fun s => s.retired_revises final reason unknown)

theorem dispose_exchange (reaped : Option DisposalFailure) :
    (o.dispose reaped).1.exchange = o.exchange := by
  unfold dispose
  split <;> rfl

theorem retire_idle (state : State) (reason : String) (unknown : Bool)
    (reaped : Option DisposalFailure) : (o.retire state reason unknown reaped).exchange = none :=
  (dispose_exchange reaped).trans abandon_idle

/-- A run is given up: it is retired, its helper is disposed of, and who waits for it
is told so. -/
theorem giveUp_leads {state : State} (final : state.terminal = true) (reason : String)
    (unknown : Bool) (reaped : Option DisposalFailure) (error : Error) :
    Leads o hand ((o.retire state reason unknown reaped).rejectWaiters error).publish hand :=
  ((retire_leads final reason unknown reaped).trans
    (rejectWaiters_leads (retire_idle ..) error)).trans publish_leads

theorem checkTime_leads (now : Duration) (reaped : Option DisposalFailure) :
    Leads o hand (o.checkTime now reaped) hand := by
  rw [checkTime]
  cases found : o.session with
  | none => exact .refl
  | some s =>
      simp only []
      split
      · exact .refl
      split
      · exact giveUp_leads rfl _ _ reaped _
      split
      · have untimed : s.Revises { s with lastClock := now, nextTick := none } :=
          Runtime.revises_of_state rfl (UInt64.le_refl _) rfl rfl id rfl rfl rfl
        split
        · apply Leads.trans _ publish_leads
          apply revise_leads found
          · exact untimed.trans (Runtime.transition_revises rfl (by simp))
          · exact .inr (Runtime.transition_live (s := { s with lastClock := now, nextTick := none }) rfl)
        · rename_i quiet
          have idle : o.exchange = none := by simpa using quiet
          exact ((revise_leads found untimed (.inl idle)).trans
            (retire_leads rfl _ _ reaped)).trans publish_leads
      · exact revise_leads found
          (Runtime.revises_of_state rfl (UInt64.le_refl _) rfl rfl id rfl rfl rfl) (.inr id)

theorem advanceControl_ok {s : Runtime} {advanced : Owner}
    (ok : o.advanceControl s = .ok advanced) :
    ∃ s', s.Revises s' ∧ s'.view.state = s.view.state ∧ advanced = { o with session := some s' } := by
  rw [advanceControl] at ok
  cases next : checkedAdd s.view.controlRevision 1 with
  | none =>
      rw [next] at ok
      cases ok
  | some revision =>
      rw [next] at ok
      cases ok
      exact ⟨{ s with view := { s.view with controlRevision := revision } },
        Runtime.revises_of_state rfl (Runtime.le_checkedAdd next) rfl rfl id rfl rfl rfl, rfl, rfl⟩

theorem spawn_leads (free : o.child = none) (spec : SpawnSpec) :
    Leads o hand ({ o with child := some spec }.emit (.spawned spec)) hand := by
  intro sound
  refine ⟨⟨sound.lawful.snoc ?_, ?_, ?_, ?_, ?_, ?_, ?_, sound.flight⟩, .of_session rfl rfl rfl rfl⟩
  · rw [Deed.Law, sound.helper, free]
    rfl
  · simp [emit, Deed.live]
  · simpa [emit, Deed.flight] using sound.wire
  · intro j member
    exact sound.parked j (by simpa [emit] using member)
  · intro j member
    exact sound.skipped j (by simpa [emit] using member)
  · intro j
    simpa [emit, Deed.answers] using sound.account j
  · intro s found
    simpa [emit, Deed.accept] using sound.run s found

theorem request_leads {s : Runtime} (found : o.session = some s) (idle : o.exchange = none)
    {request : WireRequest} (awaits : s.Awaits request) :
    Leads o hand ({ o with exchange := some request }.emit (.requested request)) hand := by
  intro sound
  refine ⟨⟨sound.lawful.snoc ?_, ?_, ?_, ?_, ?_, ?_, ?_, ?_⟩, .of_session rfl rfl rfl rfl⟩
  · exact sound.wire.trans idle
  · simpa [emit, Deed.live] using sound.helper
  · simp [emit, Deed.flight]
  · intro j member
    exact sound.parked j (by simpa [emit] using member)
  · intro j member
    exact sound.skipped j (by simpa [emit] using member)
  · intro j
    simpa [emit, Deed.answers] using sound.account j
  · intro w same
    simpa [emit, Deed.accept] using sound.run w same
  · rintro r ⟨⟩
    exact ⟨s, found, awaits⟩

/-- The envelope in hand waits for the exchange that was begun for it. -/
theorem wait_leads (message : Envelope) (free : o.pending = none) :
    Leads o (some message.reply) { o with pending := some message } none := by
  intro sound
  refine ⟨⟨sound.lawful, sound.helper, sound.wire, ?_, sound.skipped, ?_, sound.run, sound.flight⟩,
    .of_session rfl rfl rfl rfl⟩
  · intro j member
    exact ⟨(sound.parked j member).1, by simp⟩
  · intro j
    have := sound.account j
    simp only [free, Option.map_none, Option.map_some, owed_none] at this ⊢
    omega

/-- A run that is live and has begun may be sent an instruction when it is idle. -/
theorem dispatch_leads {s : Runtime} (found : o.session = some s)
    (live : s.view.state.terminal = false) (begun : s.initializing = false) :
    Leads o hand (o.dispatch s).1 hand := by
  rw [dispatch]
  split
  · exact .refl
  rename_i busy
  have idle : o.exchange = none := by simpa using busy
  split
  · exact .refl
  split
  · exact .refl
  rename_i nextRequest _
  have untimed : s.Revises { s with nextRequest, nextTick := none } :=
    Runtime.revises_of_state rfl (UInt64.le_refl _) rfl rfl id rfl rfl rfl
  simp only []
  split
  · exact revise_leads found untimed (.inl idle)
  · apply (revise_leads found untimed (.inl idle)).trans
    apply request_leads
    · rfl
    · exact idle
    · exact ⟨live, rfl, .inr ⟨rfl, begun⟩⟩

end Steps

/-! ## The actor, between two rounds -/

/-- Between rounds nobody waits without an exchange, and a run without one has ended
or can be told to go on. -/
structure Settled (o : Owner) : Prop where
  waiters : o.exchange = none → o.pending = none ∧ o.pause = none
  idle : o.exchange = none → ∀ s, o.session = some s →
    s.view.state.terminal = true ∨ s.view.state = .paused ∨ s.view.state = .running

/-- A later run is the same run, or began later. -/
structure Continues (o o' : Owner) : Prop where
  next : o.nextGeneration ≤ o'.nextGeneration
  runs : ∀ s', o'.session = some s' →
    (∃ s, o.session = some s ∧ s.SameRun s') ∨ o.nextGeneration ≤ s'.spec.generation

theorem Follows.continues {o o' : Owner} (follows : Follows o o') : Continues o o' := by
  refine ⟨by rw [follows.next]; exact UInt64.le_refl _, fun s' found => .inl ?_⟩
  have same := follows.run
  rw [SameRun, found] at same
  revert same
  rcases o.session with _ | s <;> intro same <;> cases same
  exact ⟨s, rfl, ‹_›⟩

theorem Continues.trans {o m o' : Owner} (first : Continues o m) (second : Continues m o') :
    Continues o o' := by
  refine ⟨UInt64.le_trans first.next second.next, fun s' found => ?_⟩
  rcases second.runs s' found with ⟨s, between, same⟩ | fresh
  · rcases first.runs s between with ⟨w, before, same'⟩ | fresh
    · exact .inl ⟨w, before, same'.trans same⟩
    · exact .inr (by rw [same.spec]; exact fresh)
  · exact .inr (UInt64.le_trans first.next fresh)

/-- A round may change the run only where it `renews` it. -/
structure Passes (renews : Bool) (o o' : Owner) : Prop where
  continues : Continues o o'
  run : renews = false → SameRun o o'
  taken : o'.taken = o.taken
  stopped : o'.stopped = o.stopped

theorem Follows.passes {o o' : Owner} {renews : Bool} (follows : Follows o o') :
    Passes renews o o' :=
  ⟨follows.continues, fun _ => follows.run, follows.taken, follows.stopped⟩

theorem Passes.trans {renews : Bool} {o m o' : Owner} (first : Passes renews o m)
    (second : Passes renews m o') : Passes renews o o' :=
  ⟨first.continues.trans second.continues, fun kept => (first.run kept).trans (second.run kept),
    second.taken.trans first.taken, second.stopped.trans first.stopped⟩

/-- What a round comes to when it starts from `o` with `hand` in hand. -/
def Ends (renews : Bool) (o : Owner) (hand : Option Nat) (o' : Owner) : Prop :=
  Sound o hand → Sound o' none ∧ Settled o' ∧ Passes renews o o'

section Rounds

variable {o m o' : Owner} {hand hand' : Option Nat} {renews : Bool}

theorem Leads.ends (leads : Leads o hand o' none) (settled : Settled o') : Ends renews o hand o' := by
  intro sound
  obtain ⟨kept, follows⟩ := leads sound
  exact ⟨kept, settled, follows.passes⟩

theorem Leads.then (first : Leads o hand m hand') (last : Ends renews m hand' o') :
    Ends renews o hand o' := by
  intro sound
  obtain ⟨kept, follows⟩ := first sound
  obtain ⟨kept', settled, passes⟩ := last kept
  exact ⟨kept', settled, follows.passes.trans passes⟩

theorem Settled.flying (flying : o.exchange.isSome = true) : Settled o := by
  constructor <;> intro idle <;> simp [idle] at flying

/-- A round that changes neither the exchange nor who waits nor the run. -/
theorem Settled.same (settled : Settled o) (exchange : o'.exchange = o.exchange)
    (pending : o'.pending = o.pending) (pause : o'.pause = o.pause)
    (session : o'.session = o.session) : Settled o' := by
  refine ⟨fun idle => ?_, fun idle s found => ?_⟩
  · rw [pending, pause]
    exact settled.waiters (exchange ▸ idle)
  · exact settled.idle (exchange ▸ idle) s (session ▸ found)

/-- A round that ends the run, or leaves it to be told to go on, with nobody waiting. -/
theorem Settled.quiet (pending : o.pending = none) (pause : o.pause = none)
    (rest : ∀ s, o.session = some s →
      s.view.state.terminal = true ∨ s.view.state = .paused ∨ s.view.state = .running) :
    Settled o :=
  ⟨fun _ => ⟨pending, pause⟩, fun _ => rest⟩

end Rounds

end Owner

end Reb.Debugger
