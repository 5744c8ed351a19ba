/-
# Debugger.Lifecycle -- one helper, one exchange, one end to a run, one answer

Whatever the actor is asked, whatever the clock reads, and however spawns and
disposals turn out: there is never a second helper beside an unreaped one, never a
second exchange beside one in flight, and a run that has ended stays as it ended.

An envelope waits as `pending` or as `pause`, or it is in hand until its handler
ends.  `Sound.account` counts these together with the answers given, so nothing can
be overwritten or forgotten; what is left to say is when nobody waits any more.
-/
import Reb.Debugger.Turns

namespace Reb.Debugger

open Theory.Machine

set_option autoImplicit false

namespace Deed

def spawns : Deed → Bool
  | .spawned _ => true
  | _ => false

def reaps : Deed → Bool
  | .reaped => true
  | _ => false

def requests : Deed → Bool
  | .requested _ => true
  | _ => false

/-- The deeds that end an exchange. -/
def settles : Deed → Bool
  | .validated _ | .dropped => true
  | _ => false

end Deed

section Counts

variable {log past rest : List Deed}

/-- As many helpers are unreaped as the actor holds. -/
theorem spawns_eq (lawful : Lawful Deed.Law log) :
    log.countP Deed.spawns = log.countP Deed.reaps + (helperLive log).toNat := by
  apply lawful.balanced Deed.spawns Deed.reaps helperLive
  · rfl
  · intro past deed
    rw [helperLive_snoc]
    cases deed <;> rfl
  · intro past deed obeys spawns
    cases deed with
    | spawned spec => exact obeys
    | _ => cases spawns
  · intro past deed obeys reaps
    cases deed with
    | reaped => exact ⟨obeys, rfl⟩
    | _ => cases reaps

/-- As many requests are unsettled as the actor has exchanges in flight. -/
theorem requests_eq (lawful : Lawful Deed.Law log) :
    log.countP Deed.requests = log.countP Deed.settles + (inFlight log).isSome.toNat := by
  apply lawful.balanced Deed.requests Deed.settles fun log => (inFlight log).isSome
  · rfl
  · intro past deed
    rw [inFlight_snoc]
    cases deed <;> rfl
  · intro past deed obeys requests
    cases deed with
    | requested request =>
        rw [show inFlight past = none from obeys]
        rfl
    | _ => cases requests
  · intro past deed obeys settles
    cases deed with
    | validated reply =>
        obtain ⟨request, flying, -⟩ := obeys
        exact ⟨by rw [flying]; rfl, rfl⟩
    | dropped => exact ⟨obeys, rfl⟩
    | _ => cases settles

end Counts

namespace Owner

/-- `s'` is a later moment of the run that `s` is a moment of. -/
structure Later (s s' : SessionView) : Prop where
  final : s.state.terminal = true →
    s'.state = s.state ∧ s'.terminationReason = s.terminationReason
  revision : s.controlRevision ≤ s'.controlRevision

/-- The lifecycle of helpers, exchanges, waiting envelopes and runs. -/
structure Lifecycle (o : Owner) : Prop where
  oneHelper : ∀ past rest, o.log = past ++ rest →
    past.countP Deed.spawns ≤ past.countP Deed.reaps + 1
  spawnedAlone : ∀ past spec rest, o.log = past ++ .spawned spec :: rest →
    past.countP Deed.spawns = past.countP Deed.reaps
  held : o.log.countP Deed.spawns = o.log.countP Deed.reaps + o.child.isSome.toNat
  oneExchange : ∀ past rest, o.log = past ++ rest →
    past.countP Deed.requests ≤ past.countP Deed.settles + 1
  requestedAlone : ∀ past request rest, o.log = past ++ .requested request :: rest →
    past.countP Deed.requests = past.countP Deed.settles
  flying : o.log.countP Deed.requests = o.log.countP Deed.settles + o.exchange.isSome.toNat
  waiting : o.pending.isSome = true ∨ o.pause.isSome = true → o.exchange.isSome = true
  named : ∀ s, o.session = some s →
    (s.view.terminationReason.isSome = true ↔ s.view.state.terminal = true)
  later : ∀ turns o' s s', play turn o turns = some o' → o.session = some s →
    o'.session = some s' → s'.view.runGeneration = s.view.runGeneration → Later s.view s'.view

theorem Reached.lifecycle {o : Owner} (reached : Reached o) : Lifecycle o := by
  have lawful := reached.sound.lawful
  refine ⟨?_, ?_, ?_, ?_, ?_, ?_, ?_, ?_, ?_⟩
  · intro past rest split
    rw [split] at lawful
    rw [spawns_eq lawful.before]
    exact Nat.add_le_add_left (Bool.toNat_le _) _
  · intro past spec rest split
    have alone : helperLive past = false := lawful past (.spawned spec) rest split
    rw [split] at lawful
    rw [spawns_eq lawful.before, alone]
    rfl
  · rw [spawns_eq lawful, reached.sound.helper]
  · intro past rest split
    rw [split] at lawful
    rw [requests_eq lawful.before]
    exact Nat.add_le_add_left (Bool.toNat_le _) _
  · intro past request rest split
    have alone : inFlight past = none := lawful past (.requested request) rest split
    rw [split] at lawful
    rw [requests_eq lawful.before, alone]
    rfl
  · rw [requests_eq lawful, reached.sound.wire]
  · intro waits
    by_contra idle
    rw [Bool.not_eq_true, Option.isSome_eq_false_iff, Option.isNone_iff_eq_none] at idle
    obtain ⟨pending, pause⟩ := reached.waiters idle
    simp [pending, pause] at waits
  · intro s found
    rw [(reached.sound.run s found).1.named]
  · intro turns o' s s' run found found' same
    have held := (reached.sound.run s found).1
    obtain ⟨reached', -⟩ := play_reached run reached
    have held' := (reached'.sound.run s' found').1
    have later := play_sameRun run reached found found'
      (by rw [← held.generation, ← held'.generation, same])
    exact ⟨fun final => ⟨(later.final final).1, (later.final final).2.1⟩, later.revision⟩

/-! ## A run, event by event -/

def sampleCreate : Turn where
  event := .message { action := .create, commandId := "create", fixture := some .register
                      created := fun _ => rfl } false

/-- A request for the first run that the actor `backend` ever had. -/
def sampleRequest (action : Action) (revision count : Option UInt64) : Turn where
  event := .message
    { action, commandId := "command"
      fixture := if action = .create then some .register else none
      backendInstanceId := some "backend", sessionId := some "session-1"
      runId := some "run-1", runGeneration := some 1
      expectedControlRevision := revision, expectedExecutedCount := count
      created := fun same => by rw [if_pos same]; rfl } false

def sampleView : NativeView where
  schema := "reb-owned-vm-helper-v1"
  fixture := .register
  programId := "owned-register-v1"
  fixtureRevision := 1
  sessionId := 1
  documentId := 1
  invocationId := 1
  runGeneration := 1
  state := .paused
  executedCount := 0
  retainedCount := 0
  snapshot := .initial .register
  transition := none
  recorderResult := none
  stats := {}
  tickUnits := "monotonic-nanoseconds"

def sampleStarted : Turn where
  event := .reply (.ok ⟨0, sampleView⟩)

def sampleRecord : Record where
  sequence := 1
  tick := 7
  opcode := 1
  opcodeEvidence := .observed
  isPartial := false
  operands := []
  effects := []
  before := .initial .register
  after := { Snapshot.initial .register with pc := 1 }

/-- The helper's answer to its first instruction, with a record of it. -/
def sampleExecuted : Turn where
  event := .reply (.ok ⟨0, { sampleView with
    executedCount := 1
    retainedCount := 1
    snapshot := { Snapshot.initial .register with pc := 1 }
    transition := some sampleRecord
    recorderResult := some .recorded
    stats := { attempted := 1, recorded := 1 } }⟩)

/-- A run that starts, executes one instruction and is stopped. -/
def sampleRun : List Turn :=
  [sampleCreate, sampleStarted, sampleRequest .step (some 2) (some 0), sampleExecuted,
    sampleRequest .stop none none]

/-- Every state the actor reaches keeps to the lifecycle. -/
theorem lifecycle_kept {instanceId : String} {turns : List Turn} {o : Owner}
    (run : play turn (initial instanceId) turns = some o) : Lifecycle o :=
  (initial_play run).lifecycle

theorem lifecycle_kept_sample :
    (play turn (initial "backend") sampleRun).map (·.log.countP Deed.requests) = some 2
      ∧ ∃ o, play turn (initial "backend") sampleRun = some o ∧ Lifecycle o := by
  have ran : (play turn (initial "backend") sampleRun).isSome = true := by decide +kernel
  exact ⟨by decide +kernel, _, (Option.some_get ran).symm, lifecycle_kept (Option.some_get ran).symm⟩

end Owner

end Reb.Debugger

namespace Reb.Debugger

open Theory.Machine

/-! # Every request is answered once -/

def Deed.replies (k : Nat) : Deed → Bool
  | .replied j _ => j == k
  | _ => false

variable {o o' : Owner} {k : Nat} {log past between : List Deed}

/-- An exchange in flight stays so until a deed settles it. -/
theorem inFlight_settles (flying : (inFlight past).isSome = true)
    (landed : inFlight (past ++ between) = none) : between.any Deed.settles = true := by
  induction between generalizing past with
  | nil =>
      rw [List.append_nil] at landed
      rw [landed] at flying
      cases flying
  | cons deed rest ih =>
      rw [List.any_cons, Bool.or_eq_true]
      by_cases settles : deed.settles = true
      · exact .inl settles
      · right
        apply @ih (past ++ [deed])
        · rw [inFlight_snoc]
          cases deed with
          | validated reply => exact absurd rfl settles
          | dropped => exact absurd rfl settles
          | requested request => rfl
          | _ => exact flying
        · rw [List.append_assoc]
          exact landed

theorem replies_le_answered (k : Nat) (log : List Deed) :
    log.countP (Deed.replies k) ≤ answered k log := by
  apply List.countP_mono_left
  intro deed _ replies
  cases deed with
  | replied j result => exact replies
  | _ => cases replies

/-- The answer to an envelope that was not skipped is a reply. -/
theorem answered_eq_replies (kept : .skipped k ∉ log) :
    answered k log = log.countP (Deed.replies k) := by
  apply List.countP_congr
  intro deed member
  cases deed with
  | skipped j =>
      have other : j ≠ k := by
        rintro rfl
        exact kept member
      simp [Deed.answers, Deed.replies, other]
  | _ => exact Iff.rfl

namespace Owner

/-- No request is lost and none is answered twice. -/
structure AnswersOnce (o : Owner) : Prop where
  once : o.exchange = none → ∀ k, o.taken[k]? = some false → o.log.countP (Deed.replies k) = 1
  atMost : ∀ k, o.log.countP (Deed.replies k) ≤ issued k o.taken.length
  pauses : ∀ past k between result rest,
    o.log = past ++ .parked k :: (between ++ .replied k result :: rest) →
      (inFlight past).isSome = true ∧ between.any Deed.settles = true
  shutdown : ∀ t o', o.turn t = some o' → t.event = .shutdown → o'.exchange = none

theorem Reached.answersOnce (reached : Reached o) : AnswersOnce o := by
  have sound := reached.sound
  refine ⟨?_, ?_, ?_, ?_⟩
  · intro idle k taken
    obtain ⟨pending, pause⟩ := reached.waiters idle
    have account := sound.account k
    have numbered : issued k o.taken.length = 1 := if_pos (List.getElem?_eq_some_iff.1 taken).1
    have kept : .skipped k ∉ o.log := by
      intro skipped
      have gone := sound.skipped k skipped
      rw [taken] at gone
      cases gone
    simpa [pending, pause, numbered, answered_eq_replies kept] using account
  · intro k
    have := sound.account k
    have := replies_le_answered k o.log
    omega
  · intro past k between result rest split
    have flying : (inFlight past).isSome = true := sound.lawful past (.parked k) _ split
    refine ⟨flying, ?_⟩
    have split' : o.log = (past ++ .parked k :: between) ++ .replied k result :: rest := by
      rw [split, List.append_assoc]
      rfl
    have landed : inFlight (past ++ .parked k :: between) = none :=
      sound.lawful _ (.replied k result) rest split' (by simp)
    have settles := inFlight_settles flying landed
    simpa [Deed.settles] using settles
  · intro t o' step event
    rw [turn] at step
    split at step
    · cases step
    · simp only [event] at step
      cases step
      exact (dispose_exchange _).trans ((rejectWaiters_exchange _).trans abandon_idle)

theorem play_taken {turns : List Turn} (run : play turn o turns = some o') (reached : Reached o) :
    o'.taken = o.taken ++ turns.flatMap takes := by
  induction turns generalizing o with
  | nil =>
      cases run
      simp
  | cons t rest ih =>
      obtain ⟨m, first, others⟩ := play_cons_eq_some.1 run
      obtain ⟨reached', turned⟩ := turn_reached first reached
      rw [ih others reached', turned.taken, List.append_assoc]
      rfl

/-- Every envelope that a run takes while its client is there is answered once when
the actor next has no exchange in flight, and never twice before. -/
theorem requests_answered_once {instanceId : String} {turns : List Turn}
    (run : play turn (initial instanceId) turns = some o) :
    o.taken = turns.flatMap takes ∧ AnswersOnce o :=
  ⟨play_taken run (initial_reached instanceId), (initial_play run).answersOnce⟩

/-- A Pause that meets the first instruction in flight. -/
def samplePaused : List Turn :=
  [sampleCreate, sampleStarted, sampleRequest .step (some 2) (some 0),
    sampleRequest .pause none none, sampleExecuted]

theorem requests_answered_once_paused :
    (play turn (initial "backend") samplePaused).map (fun o => [0, 1, 2].map fun k =>
        o.log.countP (Deed.replies k)) = some [1, 1, 1]
      ∧ ∃ o, play turn (initial "backend") samplePaused = some o
        ∧ o.taken = samplePaused.flatMap takes ∧ AnswersOnce o := by
  have ran : (play turn (initial "backend") samplePaused).isSome = true := by decide +kernel
  exact ⟨by decide +kernel, _, (Option.some_get ran).symm,
    requests_answered_once (Option.some_get ran).symm⟩

end Owner

end Reb.Debugger
