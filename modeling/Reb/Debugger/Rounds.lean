/-
# Debugger.Rounds -- what a round of the actor's loop comes to

Every event the actor handles ends with the actor sound, the envelope it took
answered or waiting, and nobody waiting without an exchange (`turn_ends`).  Only
Create, Reset and Close may change which run there is.
-/
import Reb.Debugger.Conduct

namespace Reb.Debugger.Owner

open Theory.Machine

set_option autoImplicit false

variable {o m o' : Owner} {hand : Option Nat} {renews : Bool}

/-! ## Frames -/

theorem rejectWaiters_pending (error : Error) : (o.rejectWaiters error).pending = none := by
  unfold rejectWaiters rejectPause rejectPending
  cases waiting : o.pending <;> cases paused : o.pause <;> simp [reject, emit, waiting, paused]

theorem rejectWaiters_pause (error : Error) : (o.rejectWaiters error).pause = none := by
  unfold rejectWaiters rejectPause
  cases paused : (o.rejectPending error).pause <;> simp [reject, emit, paused]

theorem rejectPending_session (error : Error) : (o.rejectPending error).session = o.session := by
  rw [rejectPending]
  split <;> rfl

theorem rejectWaiters_session (error : Error) : (o.rejectWaiters error).session = o.session := by
  rw [rejectWaiters, rejectPause]
  split <;> exact rejectPending_session error

theorem rejectWaiters_exchange (error : Error) : (o.rejectWaiters error).exchange = o.exchange := by
  rw [rejectWaiters, rejectPause]
  split <;> exact rejectPending_exchange error

theorem dispose_pending (reaped : Option DisposalFailure) :
    (o.dispose reaped).1.pending = o.pending := by
  unfold dispose
  split <;> rfl

theorem dispose_pause (reaped : Option DisposalFailure) :
    (o.dispose reaped).1.pause = o.pause := by
  unfold dispose
  split <;> rfl

/-- A disposal either fails and ends the run, or leaves no helper. -/
theorem dispose_cases (reaped : Option DisposalFailure) :
    ((o.dispose reaped).2 = none ∧ (o.dispose reaped).1.child = none
        ∧ (o.dispose reaped).1.session = o.session.map (·.disposed true))
      ∨ ((o.dispose reaped).2.isSome = true
        ∧ (o.dispose reaped).1.session = o.session.map (·.disposed false)) := by
  unfold dispose
  split
  · exact .inl ⟨rfl, ‹_›, rfl⟩
  · exact .inl ⟨rfl, rfl, rfl⟩
  · exact .inr ⟨rfl, rfl⟩

theorem dispose_final {reaped : Option DisposalFailure}
    (final : ∀ s, o.session = some s → s.view.state.terminal = true) {s : Runtime}
    (found : (o.dispose reaped).1.session = some s) : s.view.state.terminal = true := by
  rcases dispose_cases (o := o) reaped with ⟨-, -, session⟩ | ⟨-, session⟩ <;>
    rw [session, Option.map_eq_some_iff] at found <;> obtain ⟨w, before, rfl⟩ := found
  · exact Runtime.disposed_terminal (final w before) true
  · exact Runtime.disposed_false_terminal w

theorem retire_final {state : State} (final : state.terminal = true) {reason : String}
    {unknown : Bool} {reaped : Option DisposalFailure} {s : Runtime}
    (found : (o.retire state reason unknown reaped).session = some s) :
    s.view.state.terminal = true := by
  refine dispose_final (fun w before => ?_) found
  rw [updateSession, Option.map_eq_some_iff] at before
  obtain ⟨v, -, rfl⟩ := before
  exact v.retired_terminal final reason unknown

/-! ## Rounds that give the run up -/

theorem giveUp_settled {state : State} (final : state.terminal = true) (reason : String)
    (unknown : Bool) (reaped : Option DisposalFailure) (error : Error) :
    Settled ((o.retire state reason unknown reaped).rejectWaiters error).publish := by
  refine .quiet (rejectWaiters_pending error) (rejectWaiters_pause error) fun s found => .inl ?_
  exact retire_final final ((rejectWaiters_session error).symm.trans found)

theorem giveUp_ends {state : State} (final : state.terminal = true) (reason : String)
    (unknown : Bool) (reaped : Option DisposalFailure) (error : Error) :
    Ends renews o none ((o.retire state reason unknown reaped).rejectWaiters error).publish :=
  (giveUp_leads final reason unknown reaped error).ends (giveUp_settled final reason unknown reaped error)

theorem checkTime_settled (settled : Settled o) (now : Duration)
    (reaped : Option DisposalFailure) : Settled (o.checkTime now reaped) := by
  rw [checkTime]
  cases found : o.session with
  | none => exact settled
  | some s =>
      simp only []
      split
      · exact settled
      split
      · exact giveUp_settled rfl _ _ reaped _
      split
      · split
        · rename_i flying
          exact .flying flying
        · rename_i quiet
          have idle : o.exchange = none := by simpa using quiet
          obtain ⟨pending, pause⟩ := settled.waiters idle
          have kept : ∀ p : Owner, p.exchange = none → p.pending = none → p.pause = none →
              Settled (p.retire .expired "expired" false reaped).publish := by
            intro p still pending pause
            have abandoned : p.abandon = p := by rw [abandon, still]
            refine .quiet ?_ ?_ fun s found => .inl (retire_final rfl found)
            · exact (dispose_pending reaped).trans (by rw [abandoned]; exact pending)
            · exact (dispose_pause reaped).trans (by rw [abandoned]; exact pause)
          exact kept _ idle pending pause
      · refine ⟨settled.waiters, fun idle w same => ?_⟩
        cases same
        exact settled.idle idle s found

/-! ## Starting a run -/

/-- A run that begins owes nothing to the replies of the run before it. -/
theorem begin_sound {s : Runtime} {nextGeneration : UInt64} (sound : Sound o hand)
    (idle : o.exchange = none) (held : s.Sound []) (fresh : s.spec.generation < nextGeneration) :
    Sound ({ o with nextGeneration, session := some s }.emit (.began s.spec.generation)) hand := by
  refine ⟨sound.lawful.snoc trivial, ?_, ?_, ?_, ?_, ?_, ?_, ?_⟩
  · simpa [emit, Deed.live] using sound.helper
  · simpa [emit, Deed.flight] using sound.wire
  · intro j member
    exact sound.parked j (by simpa [emit] using member)
  · intro j member
    exact sound.skipped j (by simpa [emit] using member)
  · intro j
    simpa [emit, Deed.answers] using sound.account j
  · rintro w ⟨⟩
    simpa [emit, Deed.accept] using ⟨held, fresh⟩
  · intro r flying
    rw [show o.exchange = some r from flying] at idle
    cases idle

theorem freshRun_sound (message : Envelope) (spec : SpawnSpec) (now : Duration) :
    (o.freshRun message spec now).Sound [] :=
  ⟨rfl, fun _ => .inl rfl, rfl, .start, rfl, rfl⟩

/-- The run after `o` is one that `o` has not numbered yet. -/
theorem begin_passes {nextGeneration : UInt64} (later : o.nextGeneration ≤ nextGeneration)
    (next : o'.nextGeneration = nextGeneration) (taken : o'.taken = o.taken)
    (stopped : o'.stopped = o.stopped)
    (begun : ∀ s, o'.session = some s → s.spec.generation = o.nextGeneration) : Passes true o o' := by
  refine ⟨⟨by rw [next]; exact later, fun s found => .inr ?_⟩, by simp, taken, stopped⟩
  rw [begun s found]
  exact UInt64.le_refl _

theorem launch_ends {outside : Outside} {message : Envelope} {s : Runtime}
    (found : o.session = some s) (idle : o.exchange = none) (pending : o.pending = none)
    (pause : o.pause = none) (free : o.child = none) (live : s.view.state.terminal = false)
    (first : s.initializing = true) :
    Ends renews o (some message.reply) (o.launch outside message s) := by
  rw [launch]
  split
  · rename_i build _
    have built : s.Revises { s with view := { s.view with buildId := some build } } :=
      Runtime.revises_of_state rfl (UInt64.le_refl _) rfl rfl id rfl rfl rfl
    refine Leads.ends ?_ (.flying rfl)
    apply Leads.trans _ publish_leads
    apply (revise_leads found built (.inl idle)).trans
    apply Leads.trans (spawn_leads (by exact free) s.spec)
    apply Leads.trans (m := { { { o with
      session := some { s with view := { s.view with buildId := some build } }
      child := some s.spec }.emit (.spawned s.spec) with
        exchange := some ⟨0, s.spec.generation, 0, 0⟩ }.emit
          (.requested ⟨0, s.spec.generation, 0, 0⟩) with pending := o.pending })
    · apply request_leads
      · rfl
      · exact idle
      · exact ⟨live, rfl, .inl ⟨rfl, first⟩⟩
    · exact wait_leads message pending
  · rename_i failure _
    apply Leads.ends
    · apply Leads.trans _ (reject_leads message failure.error)
      apply Leads.trans _ publish_leads
      exact revise_leads found ((s.terminate_revises rfl _).trans
        (Runtime.stamp_revises _ message.request .rejected)) (.inl idle)
    · refine .quiet pending pause fun w found => .inl ?_
      cases found
      exact s.terminate_terminal rfl _

theorem start_ends {outside : Outside} {message : Envelope} {fixture : Fixture}
    {sessionId : UInt64} (idle : o.exchange = none) (pending : o.pending = none)
    (pause : o.pause = none) (free : o.child = none) :
    Ends true o (some message.reply) (o.start outside message fixture sessionId) := by
  rw [start, if_neg (by simp [free])]
  cases next : checkedAdd o.nextGeneration 1 with
  | none =>
      apply Leads.ends
      · exact ((updateSession_leads idle fun s => s.terminate_revises rfl _).trans
          publish_leads).trans (reject_leads message _)
      · refine .quiet pending pause fun s found => .inl ?_
        obtain ⟨w, -, rfl⟩ := Option.map_eq_some_iff.1 found
        exact w.terminate_terminal rfl _
  | some nextGeneration =>
      intro sound
      have fresh : o.nextGeneration < nextGeneration := by
        rw [UInt64.lt_iff_toNat_lt, checkedAdd_eq_some.1 next]
        exact Nat.lt_succ_self _
      have began := begin_sound sound idle
        (freshRun_sound (o := o) message ⟨fixture, sessionId, o.nextGeneration⟩ outside.now) fresh
      have published := (publish_leads began).1
      generalize begin : ({ o with nextGeneration, session := some (o.freshRun message
        ⟨fixture, sessionId, o.nextGeneration⟩ outside.now) }.emit (.began _)).publish = p at published
      have launched : Ends true p (some message.reply) (p.launch outside message (o.freshRun message
          ⟨fixture, sessionId, o.nextGeneration⟩ outside.now)) := by
        subst begin
        exact launch_ends rfl idle pending pause free rfl rfl
      obtain ⟨kept, settled, passes⟩ := launched published
      subst begin
      refine ⟨kept, settled, Passes.trans ?_ passes⟩
      refine begin_passes (Runtime.le_checkedAdd next) ?_ ?_ ?_ ?_
      · rfl
      · rfl
      · rfl
      · rintro w ⟨⟩
        rfl

/-! ## Stop, Close and Reset -/

theorem skip_leads {k : Nat} (gone : o.taken[k]? = some true) :
    Leads o (some k) (o.emit (.skipped k)) none := by
  intro sound
  refine ⟨⟨sound.lawful.snoc trivial, ?_, ?_, ?_, ?_, ?_, ?_, sound.flight⟩, .of_session rfl rfl rfl rfl⟩
  · simpa [emit, Deed.live] using sound.helper
  · simpa [emit, Deed.flight] using sound.wire
  · intro j member
    exact ⟨(sound.parked j (by simpa [emit] using member)).1, by simp⟩
  · intro j member
    rcases List.mem_append.1 member with earlier | same
    · exact sound.skipped j earlier
    · cases List.mem_singleton.1 same
      exact gone
  · intro j
    have := sound.account j
    have skipped : answered j (o.log ++ [.skipped k]) = answered j o.log + owed j (some k) := by
      simp [Deed.answers, owed]
    simp only [emit, skipped, owed_none]
    omega
  · intro s found
    simpa [emit, Deed.accept] using sound.run s found

theorem close_ends {outside : Outside} {message : Envelope} {ack : Ack} (idle : o.exchange = none)
    (pending : o.pending = none) (pause : o.pause = none) :
    Ends true o (some message.reply)
      ({ o with session := none }.publish.answer outside.fits message ack) := by
  intro sound
  have closed : Sound { o with session := none } (some message.reply) := by
    refine ⟨sound.lawful, sound.helper, sound.wire, sound.parked, sound.skipped, sound.account, ?_, ?_⟩
    · rintro s ⟨⟩
    · intro r flying
      rw [show o.exchange = some r from flying] at idle
      cases idle
  obtain ⟨kept, -⟩ := publish_leads.trans (answer_leads outside.fits message ack) closed
  refine ⟨kept, .quiet pending pause ?_, ⟨UInt64.le_refl _, ?_⟩, by simp, rfl, rfl⟩
  · rintro s ⟨⟩
  · rintro s ⟨⟩

theorem withdraw_leads {s : Runtime} (found : o.session = some s) (uncertainStep : Bool) :
    Leads o hand (o.withdraw s uncertainStep) hand := by
  apply Leads.trans _ publish_leads
  apply Leads.trans _ (rejectWaiters_leads abandon_idle _)
  apply Leads.trans _ abandon_leads
  exact revise_leads found (s.quiesced_revises uncertainStep) (.inr (Runtime.transition_live rfl))

theorem release_ends {outside : Outside} {message : Envelope} {s : Runtime} {uncertainStep : Bool}
    (idle : o.exchange = none) (pending : o.pending = none) (pause : o.pause = none)
    (free : o.child = none) :
    Ends message.request.action.renews o (some message.reply)
      (o.release outside message s uncertainStep) := by
  rw [release]
  generalize (if uncertainStep then Ack.outcomeUnknown else .completed) = ack
  split
  · rename_i reset
    rw [reset]
    exact start_ends idle pending pause free
  · rename_i close
    rw [close]
    exact close_ends idle pending pause
  · apply Leads.ends
    · apply Leads.trans _ (answer_leads _ message _)
      apply Leads.trans _ publish_leads
      apply Leads.trans _ (stamp_leads _ _)
      exact updateSession_leads idle fun s => s.terminate_revises rfl _
    · refine .quiet pending pause fun w found => .inl ?_
      obtain ⟨v, stopped, rfl⟩ := Option.map_eq_some_iff.1 found
      obtain ⟨u, -, rfl⟩ := Option.map_eq_some_iff.1 stopped
      exact u.terminate_terminal rfl _

theorem quiesce_ends {outside : Outside} {message : Envelope} {s : Runtime}
    (found : o.session = some s) :
    Ends message.request.action.renews o (some message.reply) (o.quiesce outside message s) := by
  rw [quiesce]
  generalize (o.exchange.isSome && !s.initializing) = uncertainStep
  have withdrawn : Leads o (some message.reply) (o.withdraw s uncertainStep) (some message.reply) :=
    withdraw_leads found uncertainStep
  have idle : (o.withdraw s uncertainStep).exchange = none :=
    (rejectWaiters_exchange _).trans abandon_idle
  have pending : (o.withdraw s uncertainStep).pending = none := rejectWaiters_pending _
  have pause : (o.withdraw s uncertainStep).pause = none := rejectWaiters_pause _
  generalize o.withdraw s uncertainStep = p at *
  have disposed := withdrawn.trans (dispose_leads idle outside.reaped)
  have idle' := (dispose_exchange outside.reaped).trans idle
  have pending' := (dispose_pending outside.reaped).trans pending
  have pause' := (dispose_pause outside.reaped).trans pause
  rcases dispose_cases (o := p) outside.reaped with ⟨reaped, free, -⟩ | ⟨failed, session⟩
  · revert disposed idle' pending' pause' reaped free
    rcases p.dispose outside.reaped with ⟨d, _ | failure⟩
    · intro disposed idle' pending' pause' _ free
      exact disposed.then (release_ends idle' pending' pause' free)
    · intro _ _ _ _ impossible
      cases impossible
  · revert disposed idle' pending' pause' failed session
    rcases p.dispose outside.reaped with ⟨d, _ | failure⟩
    · intro _ _ _ _ impossible
      cases impossible
    · intro disposed _ pending' pause' _ session
      apply Leads.ends
      · apply Leads.trans _ (reject_leads message failure)
        exact (disposed.trans (stamp_leads _ _)).trans publish_leads
      · refine .quiet pending' pause' fun w found => .inl ?_
        obtain ⟨v, between, rfl⟩ := Option.map_eq_some_iff.1 found
        rw [show d.session = p.session.map (·.disposed false) from session,
          Option.map_eq_some_iff] at between
        obtain ⟨u, -, rfl⟩ := between
        exact u.disposed_false_terminal

/-! ## Requests -/

theorem park_leads (message : Envelope) (flying : o.exchange.isSome = true)
    (free : o.pause = none) :
    Leads o (some message.reply) ({ o with pause := some message }.emit (.parked message.reply))
      none := by
  intro sound
  refine ⟨⟨sound.lawful.snoc ?_, ?_, ?_, ?_, ?_, ?_, ?_, sound.flight⟩, .of_session rfl rfl rfl rfl⟩
  · rw [Deed.Law, sound.wire]
    exact flying
  · simpa [emit, Deed.live] using sound.helper
  · simpa [emit, Deed.flight] using sound.wire
  · intro j member
    rcases List.mem_append.1 member with earlier | same
    · exact ⟨(sound.parked j earlier).1, by simp⟩
    · cases List.mem_singleton.1 same
      have := sound.account message.reply
      refine ⟨?_, by simp⟩
      by_contra late
      have none : issued message.reply o.taken.length = 0 := if_neg late
      have one : owed message.reply (some message.reply) = 1 := if_pos rfl
      omega
  · intro j member
    exact sound.skipped j (by simpa [emit] using member)
  · intro j
    have := sound.account j
    simp only [free, Option.map_none, owed_none] at this
    simp only [emit, answered_snoc, Deed.answers, Option.map_some, owed_none]
    simpa using this
  · intro s found
    simpa [emit, Deed.accept] using sound.run s found

theorem dispatch_cases {s : Runtime} :
    ((o.dispatch s).2 = none ∧ (o.dispatch s).1.exchange.isSome = true)
      ∨ (o.dispatch s).2.isSome = true := by
  unfold dispatch
  split
  · exact .inr rfl
  split
  · exact .inr rfl
  split
  · exact .inr rfl
  simp only []
  split
  · exact .inr rfl
  · exact .inl ⟨rfl, rfl⟩

theorem dispatch_pause {s : Runtime} : (o.dispatch s).1.pause = o.pause := by
  unfold dispatch
  split
  · rfl
  split
  · rfl
  split
  · rfl
  simp only []
  split <;> rfl

theorem abandon_pause : o.abandon.pause = o.pause := by
  rw [abandon]
  split <;> rfl

theorem retire_pause (state : State) (reason : String) (unknown : Bool)
    (reaped : Option DisposalFailure) :
    (o.retire state reason unknown reaped).pause = o.pause :=
  (dispose_pause reaped).trans abandon_pause

theorem rejectPending_pending (error : Error) : (o.rejectPending error).pending = none := by
  rw [rejectPending]
  split
  · assumption
  · rfl

theorem rejectPending_pause (error : Error) : (o.rejectPending error).pause = o.pause := by
  rw [rejectPending]
  split <;> rfl

theorem step_ends {outside : Outside} {message : Envelope} {s : Runtime}
    (action : message.request.action = .step) (found : o.session = some s)
    (idle : o.exchange = none) (paused : s.view.state = .paused) (settled : Settled o) :
    Ends renews o (some message.reply) (o.control outside message s) := by
  intro sound
  obtain ⟨free, unparked⟩ := settled.waiters idle
  have stepping : s.Revises (s.transition .stepping) := Runtime.transition_revises rfl (by simp)
  have live : (s.transition .stepping).view.state.terminal = false :=
    Runtime.transition_live rfl (by rw [paused]; rfl)
  have begun : (s.transition .stepping).initializing = false := by
    rw [Runtime.initializing, stepping.trace, ← Bool.not_eq_true]
    intro first
    have := (sound.run s found).1.begun first
    simp [paused, State.terminal] at this
  have waits := (revise_leads found stepping (.inl idle)).trans (wait_leads message free)
  rw [control, action]
  simp only []
  generalize step : ({ o with session := some (s.transition .stepping), pending := some message } :
    Owner) = p at *
  have waits' : Leads o (some message.reply) p none := step ▸ waits
  have sent := waits'.trans (dispatch_leads (by rw [← step]) live begun)
  have unparked' : (p.dispatch (s.transition .stepping)).1.pause = none := by
    rw [dispatch_pause, ← step]
    exact unparked
  revert sent unparked'
  rcases dispatch_cases (o := p) (s := s.transition .stepping) with ⟨none, flying⟩ | failed
  · revert none flying
    rcases p.dispatch (s.transition .stepping) with ⟨d, _ | failure⟩
    · intro _ flying sent _
      exact (sent.trans publish_leads).ends (.flying flying) sound
    · intro impossible
      cases impossible
  · revert failed
    rcases p.dispatch (s.transition .stepping) with ⟨d, _ | failure⟩
    · intro impossible
      cases impossible
    · intro _ sent unparked'
      apply Leads.ends _ _ sound
      · apply Leads.trans _ publish_leads
        apply Leads.trans _ (rejectPending_leads (retire_idle ..) failure)
        exact sent.trans (retire_leads rfl _ _ outside.reaped)
      · refine .quiet (rejectPending_pending failure) ?_ fun w same => .inl ?_
        · exact (rejectPending_pause failure).trans ((retire_pause ..).trans unparked')
        · exact retire_final rfl ((rejectPending_session failure).symm.trans same)

theorem run_ends {outside : Outside} {message : Envelope} {s : Runtime}
    (action : message.request.action = .run) (found : o.session = some s)
    (idle : o.exchange = none) (paused : s.view.state = .paused) (settled : Settled o) :
    Ends renews o (some message.reply) (o.control outside message s) := by
  obtain ⟨free, unparked⟩ := settled.waiters idle
  have running : s.Revises (s.transition .running) := Runtime.transition_revises rfl (by simp)
  have timed : (s.transition .running).Revises { s.transition .running with
      nextTick := some (outside.now.saturatingAdd runInterval) } :=
    Runtime.revises_of_state rfl (UInt64.le_refl _) rfl rfl id rfl rfl rfl
  rw [control, action]
  apply Leads.ends
  · apply Leads.trans _ (answer_leads _ message .completed)
    apply Leads.trans _ publish_leads
    exact revise_leads found ((running.trans timed).trans (Runtime.stamp_revises ..)) (.inl idle)
  · refine .quiet free unparked fun w same => .inr (.inr ?_)
    cases same
    rw [Runtime.stamp, Runtime.transition, paused]
    rfl

theorem pause_ends {outside : Outside} {message : Envelope} {s : Runtime}
    (action : message.request.action = .pause) (found : o.session = some s)
    (unparked : o.pause = none) (settled : Settled o) :
    Ends renews o (some message.reply) (o.control outside message s) := by
  have untimed : s.Revises { s with nextTick := none } :=
    Runtime.revises_of_state rfl (UInt64.le_refl _) rfl rfl id rfl rfl rfl
  rw [control, action]
  simp only []
  split
  · rename_i flying
    have pausing : s.Revises ({ s with nextTick := none }.transition .pausing) :=
      untimed.trans (Runtime.transition_revises rfl (by simp))
    refine Leads.ends ?_ (.flying flying)
    apply Leads.trans _ publish_leads
    apply (revise_leads found pausing (.inr (Runtime.transition_live
      (s := { s with nextTick := none }) rfl))).trans
    exact park_leads message flying unparked
  · rename_i quiet
    have idle : o.exchange = none := by simpa using quiet
    have rest := settled.idle idle s found
    have pausing : s.Revises ({ s with nextTick := none }.transition .paused) :=
      untimed.trans (Runtime.transition_revises rfl fun _ starting => by
        rcases rest with final | paused | running <;> simp_all [State.terminal])
    obtain ⟨free, -⟩ := settled.waiters idle
    apply Leads.ends
    · apply Leads.trans _ (answer_leads _ message .completed)
      apply Leads.trans _ publish_leads
      exact revise_leads found (pausing.trans (Runtime.stamp_revises ..)) (.inl idle)
    · refine .quiet free unparked fun w same => ?_
      cases same
      rw [Runtime.stamp, Runtime.transition]
      split
      · exact .inr (.inl rfl)
      · exact rest

/-- What `precondition` lets through. -/
theorem precondition_none {request : ControlRequest} {s : Runtime}
    (ok : o.precondition request s = none) :
    (request.action = .run ∨ request.action = .step → o.exchange = none ∧ s.view.state = .paused)
      ∧ (request.action = .pause → o.pause = none) := by
  unfold precondition at ok
  split at ok
  · rename_i executes
    refine ⟨fun _ => ?_, fun pause => by rcases executes with same | same <;> simp [pause] at same⟩
    split at ok
    · cases ok
    · rename_i quiet
      simpa using quiet
  · rename_i other
    refine ⟨fun executes => absurd executes other, fun pause => ?_⟩
    split at ok
    · cases ok
    · rename_i free
      simpa [pause] using free

theorem control_ends {outside : Outside} {message : Envelope} {s : Runtime}
    (found : o.session = some s) (settled : Settled o)
    (executes : message.request.action = .run ∨ message.request.action = .step →
      o.exchange = none ∧ s.view.state = .paused)
    (pauses : message.request.action = .pause → o.pause = none) :
    Ends message.request.action.renews o (some message.reply) (o.control outside message s) := by
  have quiesces (same : o.control outside message s = o.quiesce outside message s) :
      Ends message.request.action.renews o (some message.reply) (o.control outside message s) :=
    same ▸ quiesce_ends found
  cases action : message.request.action with
  | run =>
      obtain ⟨idle, paused⟩ := executes (.inl action)
      exact run_ends action found idle paused settled
  | step =>
      obtain ⟨idle, paused⟩ := executes (.inr action)
      exact step_ends action found idle paused settled
  | pause => exact pause_ends action found (pauses action) settled
  | stop => exact action ▸ quiesces (by rw [control, action])
  | reset => exact action ▸ quiesces (by rw [control, action])
  | close => exact action ▸ quiesces (by rw [control, action])
  | create => exact action ▸ quiesces (by rw [control, action])

/-- A run that is revised in the same state leaves the actor as settled as it was. -/
theorem Settled.revised {s s' : Runtime} (settled : Settled o) (found : o.session = some s)
    (state : s'.view.state = s.view.state) : Settled { o with session := some s' } := by
  refine ⟨settled.waiters, fun idle w same => ?_⟩
  cases same
  rw [state]
  exact settled.idle idle s found

theorem perform_ends {outside : Outside} {message : Envelope} {s : Runtime}
    (found : o.session = some s) (settled : Settled o) :
    Ends message.request.action.renews o (some message.reply) (o.perform outside message s) := by
  rw [perform]
  cases allowed : o.precondition message.request s with
  | some error =>
      exact (reject_leads message error).ends (settled.same rfl rfl rfl rfl)
  | none =>
      cases ok : o.advanceControl s with
      | error error =>
          generalize told : (if (o.exchange.isSome && !s.initializing) = true then
            uncertain .disconnected else error) = told
          refine ((giveUp_leads rfl _ _ outside.reaped _).trans (reject_leads message error)).ends ?_
          exact (giveUp_settled rfl _ _ outside.reaped _).same rfl rfl rfl rfl
      | ok advanced =>
          obtain ⟨s', revises, state, rfl⟩ := advanceControl_ok ok
          obtain ⟨executes, pauses⟩ := precondition_none allowed
          have stamped : s.Revises (s'.stamp message.request .pending) :=
            revises.trans (Runtime.stamp_revises ..)
          apply (revise_leads found stamped (.inr fun live => by
            rw [show (s'.stamp message.request .pending).view.state = s.view.state from state,
              live])).then
          exact control_ends rfl (settled.revised found state) (fun act => by
            obtain ⟨idle, paused⟩ := executes act
            exact ⟨idle, state.trans paused⟩) pauses

theorem create_ends {outside : Outside} {message : Envelope} {fixture : Fixture}
    (settled : Settled o) :
    Ends true o (some message.reply) (o.create outside message fixture) := by
  rw [create]
  split
  · exact (reject_leads message _).ends (settled.same rfl rfl rfl rfl)
  rename_i none
  split
  · exact (reject_leads message _).ends (settled.same rfl rfl rfl rfl)
  simp only [Bool.or_eq_true, not_or, Bool.not_eq_true, Option.isSome_eq_false_iff,
    Option.isNone_iff_eq_none] at none
  intro sound
  have idle : o.exchange = .none := by
    cases flying : o.exchange with
    | none => rfl
    | some r =>
        obtain ⟨s, found, -⟩ := sound.flight r flying
        rw [none.1] at found
        cases found
  obtain ⟨free, unparked⟩ := settled.waiters idle
  have numbered : Leads o (some message.reply) { o with nextSession := o.nextSession + 1 }
      (some message.reply) := fun sound =>
    ⟨⟨sound.lawful, sound.helper, sound.wire, sound.parked, sound.skipped, sound.account, sound.run, sound.flight⟩,
      .of_session rfl rfl rfl rfl⟩
  exact numbered.then (start_ends idle free unparked none.2) sound

theorem handle_ends {outside : Outside} {message : Envelope} (settled : Settled o) :
    Ends message.request.action.renews o (some message.reply) (o.handle outside message) := by
  rw [handle]
  split
  · rename_i created
    rw [created]
    exact create_ends settled
  split
  · exact (reject_leads message _).ends (settled.same rfl rfl rfl rfl)
  · rename_i matched
    intro sound
    have checks : Leads o (some message.reply) (o.checkTime outside.checked outside.checkReaped)
      (some message.reply) := checkTime_leads outside.checked outside.checkReaped
    have settled' := checkTime_settled settled outside.checked outside.checkReaped
    obtain ⟨s, found⟩ : ∃ s, o.session = some s := by
      rw [Bool.not_eq_true, Bool.not_eq_false', scopeMatches, Option.any_eq_true] at matched
      obtain ⟨s, found, -⟩ := matched
      exact ⟨s, found⟩
    obtain ⟨s', found', -⟩ := (checks sound).2.run.some found
    simp only [found']
    exact checks.then (perform_ends found' settled') sound

theorem take_sound (sound : Sound o none) (closed : Bool) :
    Sound { o with taken := o.taken ++ [closed] } (some o.taken.length) := by
  refine ⟨sound.lawful, sound.helper, sound.wire, ?_, ?_, ?_, sound.run, sound.flight⟩
  · intro k member
    have earlier := (sound.parked k member).1
    exact ⟨by simpa using Nat.lt_succ_of_lt earlier, by simpa using Nat.ne_of_gt earlier⟩
  · intro k member
    have earlier := sound.skipped k member
    rwa [List.getElem?_append_left (List.getElem?_eq_some_iff.1 earlier).1]
  · intro k
    have := sound.account k
    rw [owed_none] at this
    simp only [List.length_append, List.length_singleton, issued_succ]
    omega

/-- The envelope is in hand from here on. -/
theorem receive_ends {outside : Outside} {request : ControlRequest} {closed : Bool}
    (settled : Settled o) (sound : Sound o none) :
    Sound (o.receive outside request closed) none ∧ Settled (o.receive outside request closed)
      ∧ Passes request.action.renews { o with taken := o.taken ++ [closed] }
        (o.receive outside request closed) := by
  have settled' : Settled { o with taken := o.taken ++ [closed] } := settled.same rfl rfl rfl rfl
  rw [receive]
  split
  · rename_i gone
    exact (skip_leads (by simp [gone])).ends (settled'.same rfl rfl rfl rfl) (take_sound sound closed)
  · exact @handle_ends _ _ ⟨request, o.taken.length⟩ settled' (take_sound sound closed)

/-! ## The timer -/

theorem tick_ends {outside : Outside} (settled : Settled o) :
    Ends renews o none (o.tick outside) := by
  rw [tick]
  have settled' := checkTime_settled settled outside.checked outside.checkReaped
  have checked : Leads o none (o.checkTime outside.checked outside.checkReaped) none :=
    checkTime_leads outside.checked outside.checkReaped
  generalize o.checkTime outside.checked outside.checkReaped = p at *
  apply checked.then
  cases found : p.session with
  | none => exact Leads.refl.ends settled'
  | some s =>
      simp only []
      split
      · rename_i eligible
        simp only [due, found, Option.any_some, Bool.and_eq_true, beq_iff_eq] at eligible
        obtain ⟨⟨running, -⟩, idle⟩ := eligible
        intro sound
        have begun : s.initializing = false := by
          rw [← Bool.not_eq_true]
          intro first
          have := (sound.run s found).1.begun first
          simp [running, State.terminal] at this
        have sent : Leads p none (p.dispatch s).1 none :=
          dispatch_leads found (by rw [running]; rfl) begun
        revert sent
        rcases dispatch_cases (o := p) (s := s) with ⟨none, flying⟩ | failed
        · revert none flying
          rcases p.dispatch s with ⟨d, _ | failure⟩
          · intro _ flying sent
            exact (sent.trans publish_leads).ends (.flying flying) sound
          · intro impossible
            cases impossible
        · revert failed
          rcases p.dispatch s with ⟨d, _ | failure⟩
          · intro impossible
            cases impossible
          · intro _ sent
            exact sent.then (giveUp_ends rfl _ _ outside.reaped failure) sound
      · exact Leads.refl.ends settled'

end Reb.Debugger.Owner
