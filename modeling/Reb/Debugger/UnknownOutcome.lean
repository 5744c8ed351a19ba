/-
# Debugger.UnknownOutcome -- an unknown outcome is reported where one was lost

Two things go together in a turn that gives an instruction up: whoever waits is told
that its outcome is unknown, and the view of its run says so from then on (`Reported`).
The actor does both except where it `misreports`: a clock that reads backwards while a
run is starting is reported as a lost instruction, and a shutdown reports a lost start
and leaves the view of a lost instruction as it was.
-/
import Reb.Debugger.LostInstruction

namespace Reb.Debugger.Owner

open Theory.Machine

set_option autoImplicit false

/-! ## Turns -/

/-- The turn brings a reply that validates. -/
def believes (o : Owner) (t : Turn) : Bool :=
  match t.event with
  | .reply result => (o.checkTime t.now t.reaped).session.any fun s =>
      (s.validated result).toOption.isSome
  | _ => false

def endsRun (t : Turn) : Bool :=
  match t.event with
  | .message request _ => request.action == .reset || request.action == .close
  | _ => false

/-- The turn gives the instruction `r` up. -/
structure Loses (o : Owner) (t : Turn) (o' : Owner) (r : WireRequest) : Prop where
  flying : o.exchange = some r
  executes : r.operation = 2
  unbelieved : o.believes t = false
  dropped : o'.exchange ≠ some r

/-- An outcome is called unknown in a turn only if it drops an instruction whose reply it
has not validated.  The run that lost one is unknown ever after, and it stays there until
Reset or Close. -/
structure Reported (o : Owner) (t : Turn) (o' : Owner) : Prop where
  told : ∀ deed ∈ o'.log.drop o.log.length, deed.doubtful = true →
    .dropped ∈ o'.log.drop o.log.length
      ∧ ∃ r, o.exchange = some r ∧ r.operation = 2 ∧ o.believes t = false
  unknown : ∀ r, Loses o t o' r → ∀ turns q, play turn o' turns = some q →
    ∀ s, q.session = some s → s.view.runGeneration = r.generation →
      s.view.executionStateKnown = false
  stays : ∀ r, Loses o t o' r → endsRun t = false → ∀ turns q, play turn o' turns = some q →
    (∀ u ∈ turns, endsRun u = false) →
      ∃ s, q.session = some s ∧ s.view.runGeneration = r.generation

/-- The lease check at the head of the turn, or the one that precedes what is handled,
sees the clock go backwards while a start is in flight; or a shutdown meets an
exchange. -/
def misreports (o : Owner) (t : Turn) : Bool :=
  o.exchange.isSome && o.session.any fun s =>
    let leased := !(s.view.state.terminal || s.expiring)
    let again := s.initializing && leased && decide (s.lastClock ≤ t.now)
      && decide (t.now < s.deadline) && decide (t.outside.checked < t.now)
    (s.initializing && leased && decide (t.now < s.lastClock)) ||
      match t.event with
      | .shutdown => !(leased && decide (t.now < s.lastClock))
      | .message request closed =>
          !closed && request.action != .create && o.scopeMatches request && again
      | .timer => again
      | _ => false

def reportable (o : Owner) (t : Turn) : Bool := !o.misreports t

variable {o o' : Owner} {t : Turn}

/-! ## What the lease check meets -/

theorem checkTime_backwards {now : Duration} (reaped : Option DisposalFailure)
    (backwards : o.rollsBack now = true) : (o.checkTime now reaped).exchange = none := by
  cases found : o.session with
  | none => simp [rollsBack, found] at backwards
  | some s =>
      rw [rollsBack, found, Option.any_some, Bool.and_eq_true, Bool.not_eq_true',
        decide_eq_true_eq] at backwards
      obtain ⟨leased, earlier⟩ := backwards
      rw [checkTime, found]
      simp only [leased, earlier, if_true, Bool.false_eq_true, if_false]
      exact (rejectWaiters_exchange _).trans (retire_idle ..)

/-- A run whose lease has ended is not checked again. -/
theorem stopping_leased {s : Runtime} (leased : (s.view.state.terminal || s.expiring) = false) :
    ((s.transition .stopping).view.state.terminal || (s.transition .stopping).expiring) = true := by
  have allowed : s.view.state.allows .stopping = true := by
    rw [Runtime.expiring] at leased
    revert leased
    cases s.view.state <;> simp [State.allows, State.terminal]
  rw [Runtime.transition, if_pos allowed]
  rfl

/-- The second check of a turn sees the clock go backwards only after a first one that
has found nothing. -/
theorem checkTime_again {now checked : Duration} {reaped : Option DisposalFailure}
    (again : (o.checkTime now reaped).rollsBack checked = true) :
    ∃ s, o.session = some s ∧ (s.view.state.terminal || s.expiring) = false ∧ s.lastClock ≤ now
      ∧ now < s.deadline ∧ checked < now
      ∧ o.checkTime now reaped = { o with session := some { s with lastClock := now } } := by
  have ended {p : Owner} (final : ∀ s, p.session = some s →
      (s.view.state.terminal || s.expiring) = true) (backwards : p.rollsBack checked = true) :
      False := by
    rw [rollsBack, Option.any_eq_true] at backwards
    obtain ⟨s, found, live⟩ := backwards
    simp [final s found] at live
  cases found : o.session with
  | none =>
      rw [checkTime, found] at again
      simp [rollsBack, found] at again
  | some s =>
      rw [checkTime, found] at again ⊢
      simp only [] at again ⊢
      split at again
      · rename_i ends
        refine absurd again (ended ?_)
        intro w same
        cases found.symm.trans same
        exact ends
      rename_i leased
      split at again
      · refine absurd again (ended ?_)
        intro w same
        rw [retire_final rfl ((rejectWaiters_session _).symm.trans same), Bool.true_or]
      rename_i forwards
      split at again
      · split at again
        · refine absurd again (ended ?_)
          rintro w ⟨⟩
          have live : (s.view.state.terminal || s.expiring) = false := by simpa using leased
          exact stopping_leased (s := { s with lastClock := now, nextTick := none }) live
        · refine absurd again (ended ?_)
          intro w same
          rw [retire_final rfl same, Bool.true_or]
      · rename_i early
        rw [rollsBack, Option.any_some, Bool.and_eq_true, decide_eq_true_eq] at again
        have leased' : (s.view.state.terminal || s.expiring) = false := by simpa using leased
        refine ⟨s, rfl, leased', Nat.le_of_not_lt forwards, Nat.lt_of_not_le early, again.2, ?_⟩
        rw [if_neg leased, if_neg forwards, if_neg early]

/-! ## What a turn reports -/

/-- The turn may lose an instruction that was in flight when it came. -/
def Doubt (o : Owner) (t : Turn) : Prop :=
  ∃ r, o.exchange = some r ∧ r.operation = 2 ∧ o.believes t = false

/-- What is in flight is an instruction unless the run is starting. -/
theorem doubt_of_begun (sound : Sound o none) (unbelieved : o.believes t = false)
    (flies : o.exchange.isSome = true)
    (begun : ∀ s, o.session = some s → s.initializing = true → False) : Doubt o t := by
  obtain ⟨r, flying⟩ := Option.isSome_iff_exists.1 flies
  obtain ⟨s, found, awaits⟩ := sound.flight r flying
  rcases awaits.operation with ⟨-, first⟩ | ⟨executes, -⟩
  · exact (begun s found first).elim
  · exact ⟨r, flying, executes, unbelieved⟩

theorem risks_doubt (unbelieved : o.believes t = false) : Risks (Doubt o t) o := by
  intro r flying executes
  exact ⟨r, flying, executes, unbelieved⟩

/-- The check at the head of a reportable turn. -/
theorem head_doubt (sound : Sound o none) (ok : o.reportable t = true)
    (unbelieved : o.believes t = false) (backwards : o.rollsBack t.now = true)
    (flies : o.exchange.isSome = true) : Doubt o t := by
  apply doubt_of_begun sound unbelieved flies
  intro s found first
  rw [rollsBack, found, Option.any_some] at backwards
  rw [reportable, misreports, flies, found, Option.any_some, first] at ok
  simp only [Bool.true_and, backwards, Bool.true_or, Bool.not_true, Bool.false_eq_true] at ok

/-- The check before what a reportable turn handles. -/
theorem again_doubt (sound : Sound o none) (ok : o.reportable t = true)
    (unbelieved : o.believes t = false)
    (handled : (match t.event with
      | .message request closed =>
          !closed && request.action != .create && o.scopeMatches request
      | .timer => true
      | _ => false) = true)
    (again : (o.checkTime t.now t.reaped).rollsBack t.outside.checked = true)
    (flies : (o.checkTime t.now t.reaped).exchange.isSome = true) : Doubt o t := by
  obtain ⟨s, found, leased, forwards, early, backwards, same⟩ := checkTime_again again
  rw [same] at flies
  apply doubt_of_begun sound unbelieved flies
  intro w found' first
  cases found.symm.trans found'
  rw [reportable, misreports, show o.exchange.isSome = true from flies, found, Option.any_some,
    first, leased] at ok
  revert handled ok
  cases t.event <;> simp_all

/-- A reportable shutdown meets no exchange. -/
theorem shutdown_idle (sound : Sound o none) (ok : o.reportable t = true) (event : t.event = .shutdown)
    (flies : (o.checkTime t.now t.reaped).exchange.isSome = true) : False := by
  have flown : o.exchange.isSome = true := by
    rcases checkTime_exchange (o := o) t.now t.reaped with idle | same
    · simp [idle] at flies
    · rwa [same] at flies
  have forwards : o.rollsBack t.now = false := by
    rw [← Bool.not_eq_true]
    intro backwards
    simp [checkTime_backwards t.reaped backwards] at flies
  obtain ⟨r, flying⟩ := Option.isSome_iff_exists.1 flown
  obtain ⟨s, found, -⟩ := sound.flight r flying
  rw [rollsBack, found, Option.any_some] at forwards
  rw [reportable, misreports, flown, found, Option.any_some, event] at ok
  simp only [forwards, Bool.not_false, Bool.or_true, Bool.true_and, Bool.not_true,
    Bool.false_eq_true] at ok

theorem receive_told {request : ControlRequest} {closed : Bool} {doubt : Prop} {outside : Outside}
    (sound : Sound o none) (risks : Risks doubt o)
    (holds : closed = false → request.action ≠ .create → o.scopeMatches request = true →
      o.rollsBack outside.checked = true → o.exchange.isSome = true → doubt) :
    Told doubt o (o.receive outside request closed) := by
  have took : Told doubt o { o with taken := o.taken ++ [closed] } := .of_log rfl
  rw [receive]
  split
  · exact took.trans (emit_told rfl)
  · rename_i present
    apply took.trans
    exact handle_told (take_sound sound closed) risks (holds (by simpa using present))

theorem turn_told (step : o.turn t = some o') (reached : Reached o)
    (ok : o.reportable t = true) : Told (Doubt o t) o o' := by
  rw [turn] at step
  split at step
  · cases step
  rename_i running
  have settled := checkTime_settled (reached.settled (by simpa using running)) t.now t.reaped
  have checked := (checkTime_leads t.now t.reaped reached.sound).1
  have again := @again_doubt o t reached.sound ok
  have flown := checkTime_exchange (o := o) t.now t.reaped
  cases event : t.event with
  | shutdown =>
      have unbelieved : o.believes t = false := by rw [believes, event]
      have first : Told (Doubt o t) o (o.checkTime t.now t.reaped) :=
        checkTime_told t.reaped (head_doubt reached.sound ok unbelieved)
      simp only [event] at step
      cases step
      apply first.trans
      apply (shutdown_told t.outside.reaped settled.waiters ?_).trans (.of_log rfl)
      intro flies
      exact (shutdown_idle reached.sound ok event flies).elim
  | message request closed =>
      have unbelieved : o.believes t = false := by rw [believes, event]
      have first : Told (Doubt o t) o (o.checkTime t.now t.reaped) :=
        checkTime_told t.reaped (head_doubt reached.sound ok unbelieved)
      simp only [event] at step
      cases step
      apply first.trans
      apply receive_told checked ((risks_doubt unbelieved).checkTime _ _)
      intro present named matched backwards flies
      apply again unbelieved _ backwards flies
      obtain ⟨s, found, -, -, -, -, same⟩ := checkTime_again backwards
      have matched' : o.scopeMatches request = true := by
        rw [same] at matched
        rw [scopeMatches, found]
        exact matched
      simp [event, present, named, matched']
  | reply result =>
      simp only [event] at step
      split at step
      · rename_i flies
        cases step
        have first : Told (Doubt o t) o (o.checkTime t.now t.reaped) := by
          apply checkTime_told t.reaped
          intro backwards _
          simp [checkTime_backwards t.reaped backwards] at flies
        obtain ⟨r, flying⟩ := Option.isSome_iff_exists.1 flies
        apply first.trans
        apply complete_told checked flying
        intro unbelieved
        apply Risks.checkTime
        apply risks_doubt
        rw [believes, event]
        exact unbelieved
      · cases step
  | timer =>
      have unbelieved : o.believes t = false := by rw [believes, event]
      have first : Told (Doubt o t) o (o.checkTime t.now t.reaped) :=
        checkTime_told t.reaped (head_doubt reached.sound ok unbelieved)
      simp only [event] at step
      split at step
      · cases step
        apply first.trans
        apply tick_told
        exact again unbelieved (by rw [event])
      · cases step
  | mailboxClosed =>
      have unbelieved : o.believes t = false := by rw [believes, event]
      simp only [event] at step
      cases step
      exact checkTime_told t.reaped (head_doubt reached.sound ok unbelieved)

/-! ## What a turn leaves behind -/

theorem turn_remembers {r : WireRequest} (step : o.turn t = some o') (reached : Reached o)
    (ok : o.reportable t = true) (flying : o.exchange = some r) (executes : r.operation = 2)
    (unbelieved : o.believes t = false) : Remembers r o' := by
  obtain ⟨s, found, awaits⟩ := reached.sound.flight r flying
  rw [turn] at step
  split at step
  · cases step
  rename_i running
  have settled := checkTime_settled (reached.settled (by simpa using running)) t.now t.reaped
  obtain ⟨sound, follows⟩ := checkTime_leads t.now t.reaped reached.sound
  have checked := checkTime_remembers flying t.now t.reaped
  have flown := checkTime_exchange (o := o) t.now t.reaped
  have idles := shutdown_idle reached.sound ok
  have older : r.generation < (o.checkTime t.now t.reaped).nextGeneration := by
    rw [follows.next, awaits.generation]
    exact (reached.sound.run s found).2
  rw [believes] at unbelieved
  generalize o.checkTime t.now t.reaped = p at *
  cases event : t.event with
  | shutdown =>
      simp only [event] at step
      cases step
      rcases checked with flying' | forgotten
      · exact (idles event (by rw [flying']; rfl)).elim
      · have gone := (shutdown_leads t.outside.reaped (uncertain .disconnected) sound).2.continues
        exact .inr ((forgotten.continues older gone).same rfl)
  | message request closed =>
      simp only [event] at step
      cases step
      rcases checked with flying' | forgotten
      · exact receive_remembers sound settled flying' executes t.outside
      · have later : Continues { p with taken := p.taken ++ [closed] }
          (p.receive t.outside request closed) := (receive_ends settled sound).2.2.continues
        exact .inr (forgotten.continues older ⟨later.next, later.runs⟩)
  | reply result =>
      simp only [event] at step unbelieved
      split at step
      · rename_i flies
        cases step
        have flying' : p.exchange = some r := by
          rcases flown with idle | same
          · simp [idle] at flies
          · rw [same, flying]
        obtain ⟨w, found', awaits'⟩ := sound.flight r flying'
        have begun : w.initializing = false := by
          rcases awaits'.operation with ⟨start, -⟩ | ⟨-, begun⟩
          · rw [executes] at start
            cases start
          · exact begun
        rw [complete_of (o := { p with exchange := none }) found']
        rw [found', Option.any_some] at unbelieved
        cases judged : w.validated result with
        | error error => exact .inr (fail_forgotten begun t.outside error)
        | ok reply =>
            rw [judged] at unbelieved
            cases unbelieved
      · cases step
  | timer =>
      simp only [event] at step
      split at step
      · cases step
        rcases checked with flying' | forgotten
        · exact tick_remembers flying' sound t.outside
        · have later : Passes false p (p.tick t.outside) := (tick_ends settled sound).2.2
          exact .inr (forgotten.continues older later.continues)
      · cases step
  | mailboxClosed =>
      simp only [event] at step
      cases step
      exact checked

/-- Only Reset and Close take a run away. -/
theorem turn_stays (step : o.turn t = some o') (reached : Reached o) (kept : endsRun t = false)
    {s : Runtime} (found : o.session = some s) :
    ∃ s', o'.session = some s' ∧ s'.spec = s.spec := by
  have same : SameRun o o' := by
    cases renews : renewsRun t with
    | false => exact (turn_reached step reached).2.run renews
    | true =>
        cases event : t.event with
        | message request closed =>
            have created : request.action = .create := by
              rw [renewsRun, event] at renews
              rw [endsRun, event] at kept
              simp only [] at renews kept
              revert renews kept
              cases request.action <;> decide
            have checked := (checkTime_leads t.now t.reaped reached.sound).2.run
            obtain ⟨w, found', -⟩ := checked.some found
            rw [turn] at step
            split at step
            · cases step
            simp only [event, Option.some.injEq] at step
            subst step
            apply checked.trans
            generalize o.checkTime t.now t.reaped = p at *
            rw [receive]
            split
            · exact .of_eq rfl
            · rw [handle]
              rw [dif_pos created, create, if_pos (by simp [found'])]
              exact .of_eq rfl
        | _ => simp [renewsRun, event] at renews
  obtain ⟨s', found', later⟩ := same.some found
  exact ⟨s', found', later.spec⟩

theorem play_stays {turns : List Turn} (run : play turn o turns = some o') (reached : Reached o)
    (kept : ∀ u ∈ turns, endsRun u = false) {s : Runtime} (found : o.session = some s) :
    ∃ s', o'.session = some s' ∧ s'.spec = s.spec := by
  induction turns generalizing o s with
  | nil =>
      cases run
      exact ⟨s, found, rfl⟩
  | cons u rest ih =>
      obtain ⟨m, first, others⟩ := play_cons_eq_some.1 run
      obtain ⟨w, between, same⟩ := turn_stays first reached (kept u (by simp)) found
      obtain ⟨s', found', same'⟩ :=
        ih others (turn_reached first reached).1 (fun v member => kept v (by simp [member])) between
      exact ⟨s', found', same'.trans same⟩

theorem turn_reported (step : o.turn t = some o') (reached : Reached o)
    (ok : o.reportable t = true) : Reported o t o' := by
  obtain ⟨reached', -⟩ := turn_reached step reached
  refine ⟨?_, ?_, ?_⟩
  · obtain ⟨new, log, told⟩ := turn_told step reached ok
    rw [log, List.drop_left]
    intro deed member doubtful
    obtain ⟨holds, dropped⟩ := told deed member doubtful
    exact ⟨dropped, holds⟩
  · intro r loses turns q run s found named
    obtain ⟨w, before, awaits⟩ := reached.sound.flight r loses.flying
    have older : r.generation < o'.nextGeneration := by
      rw [awaits.generation]
      exact UInt64.lt_of_lt_of_le (reached.sound.run w before).2
        (turn_reached step reached).2.continues.next
    have lost : Forgotten r.generation o' :=
      (turn_remembers step reached ok loses.flying loses.executes loses.unbelieved).resolve_left
        loses.dropped
    obtain ⟨last, continues⟩ := play_reached run reached'
    have held := (last.sound.run s found).1
    exact (lost.continues older continues s found (held.generation ▸ named)).2
  · intro r loses kept turns q run others
    obtain ⟨w, before, awaits⟩ := reached.sound.flight r loses.flying
    obtain ⟨v, between, same⟩ := turn_stays step reached kept before
    obtain ⟨s, found, same'⟩ := play_stays run reached' others between
    obtain ⟨last, -⟩ := play_reached run reached'
    exact ⟨s, found, by rw [(last.sound.run s found).1.generation, same', same, awaits.generation]⟩

/-- In a run whose turns are all reportable, every turn reports what it loses. -/
theorem outcome_reported {instanceId : String} {turns : List Turn}
    (run : play (guarded turn reportable) (initial instanceId) turns = some o) :
    ∀ past t rest, turns = past ++ t :: rest → ∃ m m',
      play turn (initial instanceId) past = some m ∧ turn m t = some m' ∧ Reported m t m' := by
  rintro past t rest rfl
  obtain ⟨m, m', reaches, next⟩ := play_split run
  obtain ⟨ok, step⟩ := guarded_eq_some.1 next
  have reached := play_of_guarded reaches
  exact ⟨m, m', reached, step, turn_reported step (initial_play reached) ok⟩

/-- A Stop finds an instruction in flight. -/
def sampleLoss : List Turn :=
  [sampleCreate, sampleStarted, sampleRequest .step (some 2) (some 0), sampleRequest .stop none none]

theorem outcome_reported_sample :
    (play turn (initial "backend") sampleLoss).map (·.log.countP Deed.doubtful) = some 2
      ∧ ∀ past t rest, sampleLoss = past ++ t :: rest → ∃ m m',
        play turn (initial "backend") past = some m ∧ turn m t = some m' ∧ Reported m t m' := by
  have ran : (play (guarded turn reportable) (initial "backend") sampleLoss).isSome = true := by
    decide +kernel
  exact ⟨by decide +kernel, outcome_reported (Option.some_get ran).symm⟩

/-- A run that starts at the clock's tenth nanosecond. -/
def sampleLate : Turn := { sampleCreate with outside := { now := 10 } }

/-- The clock reads the ninth nanosecond while that run's start is in flight. -/
def sampleRollback : Turn where
  now := 9
  event := .mailboxClosed

theorem rollback_misreported :
    ∃ m m', play turn (initial "backend") [sampleLate] = some m
      ∧ turn m sampleRollback = some m' ∧ ¬ Reported m sampleRollback m' := by
  have ran : (play turn (initial "backend") ([sampleLate] ++ [sampleRollback])).isSome = true := by
    decide +kernel
  have found : ((play turn (initial "backend") [sampleLate]).bind fun m =>
      (turn m sampleRollback).map fun m' =>
        ((m'.log.drop m.log.length).any Deed.doubtful, m.exchange.map (·.operation)))
      = some (true, some 0) := by decide +kernel
  obtain ⟨m, m', reaches, step⟩ := play_split (Option.some_get ran).symm
  refine ⟨m, m', reaches, step, fun reported => ?_⟩
  rw [reaches, Option.bind_some, step, Option.map_some, Option.some.injEq, Prod.mk.injEq] at found
  obtain ⟨doubted, starts⟩ := found
  obtain ⟨deed, member, doubtful⟩ := List.any_eq_true.1 doubted
  obtain ⟨-, r, flying, executes, -⟩ := reported.told deed member doubtful
  rw [flying, Option.map_some, executes] at starts
  cases starts

end Reb.Debugger.Owner
