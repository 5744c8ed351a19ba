/-
# Debugger.LostInstruction -- what is left of an instruction nobody answered

`Forgotten` says of a run that it has ended with its execution state unknown.  That
stays so, since a run that has ended stays as it ended; and every turn that gives an
instruction up, a shutdown apart, leaves its run so (`turn_remembers`).
-/
import Reb.Debugger.Lifecycle
import Reb.Debugger.Uncertainty

namespace Reb.Debugger

open Theory.Machine

set_option autoImplicit false

/-! ## What the view says of the execution -/

namespace Runtime

variable (s : Runtime)

theorem terminate_known (state : State) (reason : String) :
    (s.terminate state reason).view.executionStateKnown = s.view.executionStateKnown := by
  rw [terminate]
  split <;> rfl

theorem terminate_spec (state : State) (reason : String) :
    (s.terminate state reason).spec = s.spec := by
  rw [terminate]
  split <;> rfl

theorem disposed_known (reaped : Bool) :
    (s.disposed reaped).view.executionStateKnown = s.view.executionStateKnown := by
  rw [disposed]
  split
  · rfl
  · exact terminate_known _ _ _

theorem retired_unknown (state : State) (reason : String) :
    (s.retired state reason true).view.executionStateKnown = false :=
  Bool.and_false _

theorem quiesced_unknown : (s.quiesced true).view.executionStateKnown = false := Bool.and_false _

/-- The run has ended, and what its last instruction did is not known. -/
def Lost : Prop := s.view.state.terminal = true ∧ s.view.executionStateKnown = false

variable {s}

theorem Lost.later {s' : Runtime} (lost : s.Lost) (later : s.SameRun s') : s'.Lost := by
  obtain ⟨state, -, unknown⟩ := later.final lost.1
  exact ⟨by rw [state, lost.1], unknown lost.2⟩

theorem Lost.disposed (lost : s.Lost) (reaped : Bool) : (s.disposed reaped).Lost :=
  lost.later (s.disposed_revises reaped).same

end Runtime

namespace Owner

variable {o m o' : Owner} {hand : Option Nat} {g : UInt64}

/-- The run numbered `g` is lost, unless it is gone. -/
def Forgotten (g : UInt64) (o : Owner) : Prop :=
  ∀ s, o.session = some s → s.spec.generation = g → s.Lost

theorem Forgotten.same (forgotten : Forgotten g o) (same : o'.session = o.session) :
    Forgotten g o' := by
  intro s found
  exact forgotten s (same ▸ found)

theorem Forgotten.continues (forgotten : Forgotten g o) (older : g < o.nextGeneration)
    (continues : Continues o o') : Forgotten g o' := by
  intro s' found named
  rcases continues.runs s' found with ⟨s, before, later⟩ | fresh
  · exact (forgotten s before (by rw [← later.spec, named])).later later
  · rw [named, UInt64.le_iff_toNat_le] at fresh
    rw [UInt64.lt_iff_toNat_lt] at older
    omega

theorem retire_forgotten {state : State} (final : state.terminal = true) (reason : String)
    (reaped : Option DisposalFailure) : Forgotten g (o.retire state reason true reaped) := by
  intro s found _
  have retired (w : Runtime) : (w.retired state reason true).Lost :=
    ⟨w.retired_terminal final reason true, w.retired_unknown state reason⟩
  rcases dispose_cases (o := o.abandon.updateSession (·.retired state reason true)) reaped with
    ⟨-, -, session⟩ | ⟨-, session⟩ <;>
    obtain ⟨w, before, rfl⟩ := Option.map_eq_some_iff.1 (session.symm.trans found) <;>
    obtain ⟨v, -, rfl⟩ := Option.map_eq_some_iff.1 before
  · exact (retired v).disposed true
  · exact (retired v).disposed false

theorem giveUp_forgotten {state : State} (final : state.terminal = true) (reason : String)
    (reaped : Option DisposalFailure) (error : Error) :
    Forgotten g ((o.retire state reason true reaped).rejectWaiters error).publish :=
  (retire_forgotten final reason reaped).same (rejectWaiters_session error)

/-! ## Turns that meet an instruction in flight -/

/-- The instruction `r` is still in flight, or its run is lost. -/
def Remembers (r : WireRequest) (o : Owner) : Prop :=
  o.exchange = some r ∨ Forgotten r.generation o

variable {r : WireRequest}

theorem checkTime_remembers (flying : o.exchange = some r) (now : Duration)
    (reaped : Option DisposalFailure) : Remembers r (o.checkTime now reaped) := by
  rw [checkTime]
  cases found : o.session with
  | none => exact .inl flying
  | some s =>
      have flies : o.exchange.isSome = true := by rw [flying]; rfl
      simp only [flies, if_true]
      split
      · exact .inl flying
      split
      · exact .inr (giveUp_forgotten rfl _ reaped _)
      split
      · exact .inl flying
      · exact .inl flying

theorem start_forgotten (unknown : ∀ s, o.session = some s → s.view.executionStateKnown = false)
    (free : o.child = none) (older : g < o.nextGeneration) (outside : Outside) (message : Envelope)
    (fixture : Fixture) (sessionId : UInt64) :
    Forgotten g (o.start outside message fixture sessionId) := by
  rw [start, if_neg (by simp [free])]
  split
  · intro s found _
    obtain ⟨w, before, rfl⟩ := Option.map_eq_some_iff.1 found
    exact ⟨w.terminate_terminal rfl _, (w.terminate_known _ _).trans (unknown w before)⟩
  · intro s found named
    have fresh : s.spec.generation = o.nextGeneration := by
      simp only [launch] at found
      split at found <;> cases found
      · rfl
      · rw [Runtime.stamp, Runtime.terminate_spec]
        rfl
    rw [← named, fresh, UInt64.lt_iff_toNat_lt] at older
    omega

theorem release_forgotten (unknown : ∀ s, o.session = some s → s.view.executionStateKnown = false)
    (free : o.child = none) (older : g < o.nextGeneration) (outside : Outside) (message : Envelope)
    (s : Runtime) (uncertainStep : Bool) :
    Forgotten g (o.release outside message s uncertainStep) := by
  rw [release]
  split
  · exact start_forgotten unknown free older outside message _ _
  · rintro w ⟨⟩
  · intro w found _
    obtain ⟨v, stopped, rfl⟩ := Option.map_eq_some_iff.1 found
    obtain ⟨u, before, rfl⟩ := Option.map_eq_some_iff.1 stopped
    exact ⟨u.terminate_terminal rfl _, (u.terminate_known _ _).trans (unknown u before)⟩

theorem quiesce_forgotten {s : Runtime} (sound : Sound o hand) (found : o.session = some s)
    (older : g < o.nextGeneration) (executes : (o.exchange.isSome && !s.initializing) = true)
    (outside : Outside) (message : Envelope) : Forgotten g (o.quiesce outside message s) := by
  rw [quiesce, executes]
  have session : (o.withdraw s true).session = some (s.quiesced true) :=
    (rejectWaiters_session _).trans abandon_session
  have withdrawn := withdraw_leads found true sound
  have idle : (o.withdraw s true).exchange = none :=
    (rejectWaiters_exchange _).trans abandon_idle
  have older' : g < (o.withdraw s true).nextGeneration := by
    rw [withdrawn.2.next]
    exact older
  generalize o.withdraw s true = p at *
  have next := (dispose_leads idle outside.reaped withdrawn.1).2.next
  rcases dispose_cases (o := p) outside.reaped with ⟨reaped, free, after⟩ | ⟨failed, after⟩
  · revert next reaped free after
    rcases p.dispose outside.reaped with ⟨d, _ | failure⟩
    · intro next _ free after
      apply release_forgotten _ free (by rw [next]; exact older')
      intro w same
      obtain ⟨v, before, rfl⟩ := Option.map_eq_some_iff.1 (after.symm.trans same)
      cases session.symm.trans before
      rw [Runtime.disposed_known, Runtime.quiesced_unknown]
    · intro _ impossible
      cases impossible
  · revert next failed after
    rcases p.dispose outside.reaped with ⟨d, _ | failure⟩
    · intro _ impossible
      cases impossible
    · intro _ _ after w same _
      obtain ⟨v, between, rfl⟩ := Option.map_eq_some_iff.1 same
      obtain ⟨u, before, rfl⟩ := Option.map_eq_some_iff.1 (after.symm.trans between)
      cases session.symm.trans before
      exact ⟨Runtime.disposed_false_terminal _, by
        rw [Runtime.stamp, Runtime.disposed_known, Runtime.quiesced_unknown]⟩

/-- A request meets an instruction in flight. -/
theorem perform_remembers {s : Runtime} (sound : Sound o hand) (found : o.session = some s)
    (flying : o.exchange = some r) (executes : r.operation = 2) (outside : Outside)
    (message : Envelope) : Remembers r (o.perform outside message s) := by
  obtain ⟨w, same, awaits⟩ := sound.flight r flying
  cases found.symm.trans same
  have begun : s.initializing = false := by
    rcases awaits.operation with ⟨start, -⟩ | ⟨-, begun⟩
    · rw [executes] at start
      cases start
    · exact begun
  have lossy : (o.exchange.isSome && !s.initializing) = true := by rw [flying, begun]; rfl
  have older : r.generation < o.nextGeneration := by
    rw [awaits.generation]
    exact (sound.run s found).2
  rw [perform]
  cases allowed : o.precondition message.request s with
  | some error => exact .inl flying
  | none =>
      cases ok : o.advanceControl s with
      | error error =>
          simp only [lossy]
          exact .inr ((giveUp_forgotten rfl _ outside.reaped _).same rfl)
      | ok advanced =>
          obtain ⟨s', revises, state, rfl⟩ := advanceControl_ok ok
          have stamped : s.Revises (s'.stamp message.request .pending) :=
            revises.trans (Runtime.stamp_revises ..)
          have led : Leads o hand { o with session := some (s'.stamp message.request .pending) } hand :=
            revise_leads found stamped (.inr fun live => by
              rw [show (s'.stamp message.request .pending).view.state = s.view.state from state, live])
          have kept := (led sound).1
          have begun' : (s'.stamp message.request .pending).initializing = false := by
            rw [Runtime.initializing, stamped.trace]
            exact begun
          have quiesces : Forgotten r.generation
              (({ o with session := some (s'.stamp message.request .pending) } : Owner).quiesce outside
                message (s'.stamp message.request .pending)) :=
            quiesce_forgotten kept rfl older (by
              rw [begun']
              simp [flying]) outside message
          obtain ⟨idles, -⟩ := precondition_none allowed
          have busy (act : message.request.action = .run ∨ message.request.action = .step) : False := by
            rw [(idles act).1] at flying
            cases flying
          simp only [stamp, updateSession, Option.map_some]
          rw [control]
          split
          · exact absurd (.inl ‹_›) busy
          · exact absurd (.inr ‹_›) busy
          · rw [if_pos (by simp [flying])]
            exact .inl flying
          · exact .inr quiesces

theorem receive_remembers {request : ControlRequest} {closed : Bool} (sound : Sound o none)
    (settled : Settled o) (flying : o.exchange = some r) (executes : r.operation = 2)
    (outside : Outside) : Remembers r (o.receive outside request closed) := by
  obtain ⟨s, found, awaits⟩ := sound.flight r flying
  have older : r.generation < o.nextGeneration := by
    rw [awaits.generation]
    exact (sound.run s found).2
  rw [receive]
  split
  · exact .inl flying
  have held := take_sound sound closed
  generalize taking : ({ o with taken := o.taken ++ [closed] } : Owner) = p at *
  have flying' : p.exchange = some r := by rw [← taking]; exact flying
  have older' : r.generation < p.nextGeneration := by rw [← taking]; exact older
  have settled' : Settled p := by
    subst taking
    exact settled.same rfl rfl rfl rfl
  rw [handle]
  split
  · rw [create, if_pos (by simp [← taking, found])]
    exact .inl flying'
  split
  · exact .inl flying'
  have checks := checkTime_leads outside.checked outside.checkReaped held
  have checked := checkTime_remembers flying' outside.checked outside.checkReaped
  have settled'' := checkTime_settled settled' outside.checked outside.checkReaped
  have older'' : r.generation < (p.checkTime outside.checked outside.checkReaped).nextGeneration := by
    rw [checks.2.next]
    exact older'
  simp only []
  generalize p.checkTime outside.checked outside.checkReaped = q at *
  cases found' : q.session with
  | none => exact checked
  | some s' =>
      rcases checked with flying'' | forgotten
      · exact perform_remembers checks.1 found' flying'' executes outside _
      · exact .inr (forgotten.continues older''
          (@perform_ends _ _ ⟨request, _⟩ _ found' settled'' checks.1).2.2.continues)

theorem tick_remembers (flying : o.exchange = some r) (sound : Sound o none) (outside : Outside) :
    Remembers r (o.tick outside) := by
  have checked := checkTime_remembers flying outside.checked outside.checkReaped
  obtain ⟨s, found, awaits⟩ := sound.flight r flying
  obtain ⟨w, found', later⟩ :=
    (checkTime_leads outside.checked outside.checkReaped sound).2.run.some found
  rw [tick]
  generalize o.checkTime outside.checked outside.checkReaped = p at *
  simp only [found']
  rw [if_neg]
  · exact checked
  · rw [Bool.and_eq_true, not_and']
    intro idle
    rcases checked with flying' | forgotten
    · simp [flying'] at idle
    · have lost := forgotten w found' (by rw [later.spec, awaits.generation])
      simp only [due, found', Option.any_some, Bool.and_eq_true, beq_iff_eq, not_and]
      intro running
      simp [running, Runtime.Lost, State.terminal] at lost

theorem fail_forgotten {s : Runtime} (begun : s.initializing = false) (outside : Outside)
    (error : Error) : Forgotten g (o.fail outside s error) := by
  rw [fail, begun]
  apply giveUp_forgotten
  split <;> rfl

end Owner

end Reb.Debugger
