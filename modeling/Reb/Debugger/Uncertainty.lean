/-
# Debugger.Uncertainty -- when an outcome is called unknown

An instruction is sent with operation 2, a start with operation 0.  The paths that
give an exchange up each work out for themselves whether an instruction may be lost.
`Told` says of one function that it calls an outcome unknown only where one is.

The two paths that do not look at the operation are the clock that reads backwards
and the shutdown; their lemmas have to be told what they meet.
-/
import Reb.Debugger.Turns

namespace Reb.Debugger

open Theory.Machine

set_option autoImplicit false

/-! ## Uncertain answers -/

def Error.doubtful (error : Error) : Bool := error.reason.code == .commandOutcomeUnknown

/-- An error or an acknowledgment that says the outcome is unknown. -/
def Deed.doubtful : Deed → Bool
  | .replied _ (.error error) => error.doubtful
  | .replied _ (.ok served) =>
      served.view.ack == some .outcomeUnknown || served.reason.any (·.code == .commandOutcomeUnknown)
  | _ => false

namespace Owner

variable {o m o' : Owner} {hand : Option Nat} {doubt : Prop}

/-- From `o` to `o'` an outcome is called unknown only where there is a doubt, and an
exchange is dropped then. -/
def Told (doubt : Prop) (o o' : Owner) : Prop :=
  ∃ new, o'.log = o.log ++ new ∧ ∀ deed ∈ new, deed.doubtful = true → doubt ∧ .dropped ∈ new

/-- An instruction that is in flight may be lost. -/
def Risks (doubt : Prop) (o : Owner) : Prop :=
  ∀ r, o.exchange = some r → r.operation = 2 → doubt

theorem Told.of_log (same : o'.log = o.log) : Told doubt o o' :=
  ⟨[], by rw [same, List.append_nil], by simp⟩

theorem Told.trans (first : Told doubt o m) (second : Told doubt m o') : Told doubt o o' := by
  obtain ⟨new, log, told⟩ := first
  obtain ⟨new', log', told'⟩ := second
  refine ⟨new ++ new', by rw [log', log, List.append_assoc], fun deed member doubtful => ?_⟩
  rcases List.mem_append.1 member with early | late
  · obtain ⟨holds, dropped⟩ := told deed early doubtful
    exact ⟨holds, List.mem_append_left _ dropped⟩
  · obtain ⟨holds, dropped⟩ := told' deed late doubtful
    exact ⟨holds, List.mem_append_right _ dropped⟩

theorem Told.grows (told : Told doubt o o') : o.log <+: o'.log := by
  obtain ⟨new, log, -⟩ := told
  exact ⟨new, log.symm⟩

/-- Anything may be called unknown once an exchange has been dropped. -/
theorem Told.dropped {new : List Deed} (holds : doubt) (log : m.log = o.log ++ new)
    (drops : .dropped ∈ new) (grows : m.log <+: o'.log) : Told doubt o o' := by
  obtain ⟨new', log'⟩ := grows
  exact ⟨new ++ new', by rw [← log', log, List.append_assoc], fun _ _ _ =>
    ⟨holds, List.mem_append_left _ drops⟩⟩

theorem emit_told {deed : Deed} (certain : deed.doubtful = false) : Told doubt o (o.emit deed) := by
  refine ⟨[deed], rfl, fun d member doubtful => ?_⟩
  rw [List.mem_singleton.1 member, certain] at doubtful
  cases doubtful

theorem emit_grows (deed : Deed) : o.log <+: (o.emit deed).log := ⟨[deed], rfl⟩

theorem answer_told (fits : PublicView → Bool) (message : Envelope) :
    Told doubt o (o.answer fits message .completed) := by
  apply emit_told
  simp only [boundedValue, reduceCtorEq, if_false]
  split <;> rfl

theorem rejectPending_told {error : Error} (certain : error.doubtful = false) :
    Told doubt o (o.rejectPending error) := by
  rw [rejectPending]
  split
  · exact .of_log rfl
  · exact emit_told certain

theorem rejectWaiters_told {error : Error} (certain : error.doubtful = false) :
    Told doubt o (o.rejectWaiters error) := by
  apply (rejectPending_told certain).trans
  rw [rejectWaiters, rejectPause]
  split
  · exact .of_log rfl
  · exact emit_told certain

theorem rejectPending_grows (error : Error) : o.log <+: (o.rejectPending error).log := by
  rw [rejectPending]
  split
  · exact List.prefix_rfl
  · exact emit_grows _

theorem rejectWaiters_grows (error : Error) : o.log <+: (o.rejectWaiters error).log := by
  apply (rejectPending_grows error).trans
  rw [rejectWaiters, rejectPause]
  split
  · exact List.prefix_rfl
  · exact emit_grows _

theorem abandon_told : Told doubt o o.abandon := by
  rw [abandon]
  split
  · exact .of_log rfl
  · exact emit_told rfl

theorem abandon_log {r : WireRequest} (flying : o.exchange = some r) :
    o.abandon.log = o.log ++ [.dropped] := by
  rw [abandon, flying]
  rfl

theorem dispose_told (reaped : Option DisposalFailure) : Told doubt o (o.dispose reaped).1 := by
  unfold dispose
  split
  · exact .of_log rfl
  · exact emit_told rfl
  · exact .of_log rfl

/-- A disposal that fails has not lost an instruction. -/
theorem dispose_certain {reaped : Option DisposalFailure} {error : Error}
    (failed : (o.dispose reaped).2 = some error) : error.doubtful = false := by
  revert failed
  unfold dispose
  split
  · intro impossible
    cases impossible
  · intro impossible
    cases impossible
  · rename_i failure _
    rintro ⟨⟩
    cases failure <;> rfl

theorem retire_told (state : State) (reason : String) (unknown : Bool)
    (reaped : Option DisposalFailure) : Told doubt o (o.retire state reason unknown reaped) :=
  abandon_told.trans (dispose_told reaped)

/-! ## Runs that are given up -/

theorem giveUp_certain (state : State) (reason : String) (unknown : Bool)
    (reaped : Option DisposalFailure) {error : Error} (certain : error.doubtful = false) :
    Told doubt o ((o.retire state reason unknown reaped).rejectWaiters error).publish :=
  ((retire_told state reason unknown reaped).trans (rejectWaiters_told certain)).trans (.of_log rfl)

/-- A run that is given up with an exchange in flight drops it. -/
theorem giveUp_told {r : WireRequest} (flying : o.exchange = some r) (holds : doubt) (state : State)
    (reason : String) (unknown : Bool) (reaped : Option DisposalFailure) (error : Error) :
    Told doubt o ((o.retire state reason unknown reaped).rejectWaiters error).publish := by
  have drops : (o.abandon.updateSession (·.retired state reason unknown)).log
      = o.log ++ [.dropped] := abandon_log flying
  apply Told.dropped holds drops (List.mem_singleton_self _)
  exact (dispose_told reaped : Told True _ _).grows.trans (rejectWaiters_grows error)

/-- What `initializing` tells of the exchange in flight. -/
theorem executing {s : Runtime} (sound : Sound o hand) (found : o.session = some s)
    (unknown : (o.exchange.isSome && !s.initializing) = true) :
    ∃ r, o.exchange = some r ∧ r.operation = 2 := by
  rw [Bool.and_eq_true, Bool.not_eq_true'] at unknown
  obtain ⟨flies, begun⟩ := unknown
  obtain ⟨r, flying⟩ := Option.isSome_iff_exists.1 flies
  obtain ⟨w, same, awaits⟩ := sound.flight r flying
  cases found.symm.trans same
  rcases awaits.operation with ⟨-, begins⟩ | ⟨executes, -⟩
  · rw [begun] at begins
    cases begins
  · exact ⟨r, flying, executes⟩

theorem judged_told {s : Runtime} (sound : Sound o hand) (found : o.session = some s)
    (risks : Risks doubt o) (state : State) (reason : String) (reaped : Option DisposalFailure)
    {cause : Cause} {error : Error} (certain : error.doubtful = false) :
    Told doubt o ((o.retire state reason (o.exchange.isSome && !s.initializing) reaped).rejectWaiters
      (if o.exchange.isSome && !s.initializing then uncertain cause else error)).publish := by
  cases unknown : o.exchange.isSome && !s.initializing with
  | false => exact giveUp_certain _ _ _ reaped certain
  | true =>
      obtain ⟨r, flying, executes⟩ := executing sound found unknown
      exact giveUp_told flying (risks r flying executes) _ _ _ reaped _

/-! ## Where the clock reads backwards -/

/-- The lease check would see the clock go backwards. -/
def rollsBack (o : Owner) (now : Duration) : Bool :=
  o.session.any fun s => !(s.view.state.terminal || s.expiring) && decide (now < s.lastClock)

theorem checkTime_told {now : Duration} (reaped : Option DisposalFailure)
    (holds : o.rollsBack now = true → o.exchange.isSome = true → doubt) :
    Told doubt o (o.checkTime now reaped) := by
  rw [checkTime]
  cases found : o.session with
  | none => exact .of_log rfl
  | some s =>
      simp only []
      split
      · exact .of_log rfl
      rename_i live
      split
      · rename_i backwards
        cases flying : o.exchange with
        | none => exact giveUp_certain _ _ _ reaped rfl
        | some r =>
            refine giveUp_told flying (holds ?_ (by rw [flying]; rfl)) _ _ _ reaped _
            rw [rollsBack, found, Option.any_some, Bool.and_eq_true]
            exact ⟨by simpa using live, decide_eq_true backwards⟩
      split
      · split
        · exact .of_log rfl
        · exact (retire_told (o := { o with session := some _ }) _ _ _ reaped).trans (.of_log rfl)
      · exact .of_log rfl

/-! ## Requests -/

theorem launch_told (outside : Outside) (message : Envelope) (s : Runtime) :
    Told doubt o (o.launch outside message s) := by
  rw [launch]
  split
  · exact Told.trans (emit_told rfl) (emit_told rfl)
  · rename_i failure _
    apply emit_told
    cases failure <;> rfl

theorem start_told (outside : Outside) (message : Envelope) (fixture : Fixture)
    (sessionId : UInt64) : Told doubt o (o.start outside message fixture sessionId) := by
  rw [start]
  split
  · exact emit_told rfl
  split
  · exact emit_told rfl
  · exact Told.trans (emit_told rfl) (launch_told outside message _)

theorem release_told (outside : Outside) (message : Envelope) (s : Runtime) :
    Told doubt o (o.release outside message s false) := by
  rw [release]
  split
  · exact start_told outside message _ _
  · exact answer_told (o := { o with session := none }.publish) outside.fits message
  · exact answer_told outside.fits message

theorem release_grows (outside : Outside) (message : Envelope) (s : Runtime)
    (uncertainStep : Bool) : o.log <+: (o.release outside message s uncertainStep).log := by
  rw [release]
  split
  · exact (start_told outside message _ _ : Told True _ _).grows
  · exact emit_grows _
  · exact emit_grows _

theorem withdraw_told (s : Runtime) : Told doubt o (o.withdraw s false) := by
  have quiesced : Told doubt o { o with session := some (s.quiesced false) } := .of_log rfl
  exact (quiesced.trans (abandon_told.trans (rejectWaiters_told rfl))).trans (.of_log rfl)

theorem withdraw_log {r : WireRequest} (flying : o.exchange = some r) (s : Runtime)
    (uncertainStep : Bool) :
    o.log ++ [.dropped] <+: (o.withdraw s uncertainStep).log := by
  have dropped := abandon_log (o := { o with session := some (s.quiesced uncertainStep) }) flying
  exact dropped ▸ rejectWaiters_grows _

theorem quiesce_told {s : Runtime} (sound : Sound o hand) (found : o.session = some s)
    (risks : Risks doubt o) (outside : Outside) (message : Envelope) :
    Told doubt o (o.quiesce outside message s) := by
  rw [quiesce]
  cases unknown : o.exchange.isSome && !s.initializing with
  | false =>
      have withdrawn : Told doubt o (o.withdraw s false) := withdraw_told s
      have disposed : Told doubt o ((o.withdraw s false).dispose outside.reaped).1 :=
        withdrawn.trans (dispose_told outside.reaped)
      have certain := @dispose_certain (o.withdraw s false) outside.reaped
      revert disposed certain
      rcases (o.withdraw s false).dispose outside.reaped with ⟨d, _ | failure⟩
      · intro disposed _
        exact disposed.trans (release_told outside message s)
      · intro disposed certain
        exact disposed.trans (emit_told (certain rfl))
  | true =>
      obtain ⟨r, flying, executes⟩ := executing sound found unknown
      obtain ⟨new, log⟩ := withdraw_log flying s true
      rw [List.append_assoc] at log
      apply Told.dropped (risks r flying executes) log.symm (by simp)
      have disposed := (dispose_told outside.reaped : Told True (o.withdraw s true) _).grows
      revert disposed
      rcases (o.withdraw s true).dispose outside.reaped with ⟨d, _ | failure⟩
      · intro disposed
        exact disposed.trans (release_grows outside message s true)
      · intro disposed
        exact disposed.trans (emit_grows _)

theorem dispatch_told (s : Runtime) : Told doubt o (o.dispatch s).1 := by
  rw [dispatch]
  split
  · exact .of_log rfl
  split
  · exact .of_log rfl
  split
  · exact .of_log rfl
  simp only []
  split
  · exact .of_log rfl
  · exact emit_told rfl

/-- A request that was never sent has lost nothing. -/
theorem dispatch_certain {s : Runtime} {error : Error} (failed : (o.dispatch s).2 = some error) :
    error.doubtful = false := by
  revert failed
  unfold dispatch
  split
  · rintro ⟨⟩
    rfl
  split
  · rintro ⟨⟩
    rfl
  split
  · rintro ⟨⟩
    rfl
  simp only []
  split
  · rintro ⟨⟩
    rfl
  · intro impossible
    cases impossible

theorem control_told {s : Runtime} (sound : Sound o hand) (found : o.session = some s)
    (risks : Risks doubt o) (outside : Outside) (message : Envelope) :
    Told doubt o (o.control outside message s) := by
  rw [control]
  split
  · exact answer_told outside.fits message
  · simp only []
    generalize step : ({ o with session := some (s.transition .stepping), pending := some message } :
      Owner) = p
    have same : Told doubt o p := .of_log (by rw [← step])
    have sent : Told doubt o (p.dispatch (s.transition .stepping)).1 := same.trans (dispatch_told _)
    have certain := @dispatch_certain p (s.transition .stepping)
    revert sent certain
    rcases p.dispatch (s.transition .stepping) with ⟨d, _ | failure⟩
    · intro sent _
      exact sent.trans (.of_log rfl)
    · intro sent certain
      apply (sent.trans (retire_told _ _ _ outside.reaped)).trans
      exact (rejectPending_told (certain rfl)).trans (.of_log rfl)
  · split
    · exact emit_told rfl
    · exact answer_told outside.fits message
  · exact quiesce_told sound found risks outside message

theorem precondition_certain {request : ControlRequest} {s : Runtime} {error : Error}
    (refused : o.precondition request s = some error) : error.doubtful = false := by
  unfold precondition at refused
  split at refused
  · split at refused
    · cases refused
      rfl
    split at refused
    · cases refused
      rfl
    · cases refused
  · split at refused
    · cases refused
      rfl
    · cases refused

theorem advanceControl_error {s : Runtime} {error : Error}
    (exhausted : o.advanceControl s = .error error) : error = controlExhausted := by
  rw [advanceControl] at exhausted
  split at exhausted
  · cases exhausted
    rfl
  · cases exhausted

theorem perform_told {s : Runtime} (sound : Sound o hand) (found : o.session = some s)
    (risks : Risks doubt o) (outside : Outside) (message : Envelope) :
    Told doubt o (o.perform outside message s) := by
  rw [perform]
  cases allowed : o.precondition message.request s with
  | some error => exact emit_told (precondition_certain allowed)
  | none =>
      cases ok : o.advanceControl s with
      | error error =>
          cases advanceControl_error ok
          apply Told.trans _ (emit_told rfl)
          exact judged_told sound found risks _ _ outside.reaped rfl
      | ok advanced =>
          obtain ⟨s', revises, state, rfl⟩ := advanceControl_ok ok
          have stamped : s.Revises (s'.stamp message.request .pending) :=
            revises.trans (Runtime.stamp_revises ..)
          have led : Leads o hand { o with session := some (s'.stamp message.request .pending) } hand :=
            revise_leads found stamped (.inr fun live => by
              rw [show (s'.stamp message.request .pending).view.state = s.view.state from state, live])
          exact control_told (led sound).1 rfl risks outside message

theorem create_told (outside : Outside) (message : Envelope) (fixture : Fixture) :
    Told doubt o (o.create outside message fixture) := by
  rw [create]
  split
  · exact emit_told rfl
  split
  · exact emit_told rfl
  · exact start_told (o := { o with nextSession := o.nextSession + 1 }) outside message fixture _

theorem checkTime_exchange (now : Duration) (reaped : Option DisposalFailure) :
    (o.checkTime now reaped).exchange = none
      ∨ (o.checkTime now reaped).exchange = o.exchange := by
  rw [checkTime]
  cases found : o.session with
  | none => exact .inr rfl
  | some s =>
      simp only []
      split
      · exact .inr rfl
      split
      · exact .inl ((rejectWaiters_exchange _).trans (retire_idle ..))
      split
      · split
        · exact .inr rfl
        · exact .inl (retire_idle ..)
      · exact .inr rfl

theorem Risks.checkTime (risks : Risks doubt o) (now : Duration) (reaped : Option DisposalFailure) :
    Risks doubt (o.checkTime now reaped) := by
  intro r flying executes
  rcases checkTime_exchange (o := o) now reaped with idle | same
  · rw [idle] at flying
    cases flying
  · exact risks r (same.symm.trans flying) executes

theorem handle_told (sound : Sound o hand) (risks : Risks doubt o) {outside : Outside}
    {message : Envelope}
    (holds : message.request.action ≠ .create → o.scopeMatches message.request = true →
      o.rollsBack outside.checked = true → o.exchange.isSome = true → doubt) :
    Told doubt o (o.handle outside message) := by
  rw [handle]
  split
  · exact create_told outside message _
  rename_i named
  split
  · exact emit_told rfl
  rename_i matched
  have checked : Told doubt o (o.checkTime outside.checked outside.checkReaped) :=
    checkTime_told outside.checkReaped (holds named (by simpa using matched))
  simp only []
  split
  · exact checked
  · rename_i s found
    apply checked.trans
    exact perform_told (checkTime_leads _ _ sound).1 found (risks.checkTime _ _) outside message

/-! ## The timer and replies -/

theorem tick_told (outside : Outside)
    (holds : o.rollsBack outside.checked = true → o.exchange.isSome = true → doubt) :
    Told doubt o (o.tick outside) := by
  rw [tick]
  have checked : Told doubt o (o.checkTime outside.checked outside.checkReaped) :=
    checkTime_told outside.checkReaped holds
  generalize o.checkTime outside.checked outside.checkReaped = p at *
  cases found : p.session with
  | none => exact checked
  | some s =>
      simp only []
      split
      · have sent : Told doubt o (p.dispatch s).1 := checked.trans (dispatch_told s)
        have certain := @dispatch_certain p s
        revert sent certain
        rcases p.dispatch s with ⟨d, _ | failure⟩
        · intro sent _
          exact sent.trans (.of_log rfl)
        · intro sent certain
          exact sent.trans (giveUp_certain _ _ _ outside.reaped (certain rfl))
      · exact checked

theorem settleWaiters_told (outside : Outside) : Told doubt o (o.settleWaiters outside) := by
  have first : Told doubt o (o.pending.elim o fun message => o.stamp message.request .completed) := by
    cases o.pending <;> exact .of_log rfl
  rw [settleWaiters]
  generalize (o.pending.elim o fun message => o.stamp message.request .completed) = p at *
  have second : Told doubt p (p.pause.elim p fun message => p.stamp message.request .completed) := by
    cases p.pause <;> exact .of_log rfl
  generalize (p.pause.elim p fun message => p.stamp message.request .completed) = q at *
  have third : Told doubt q (q.publish.answerPending outside.fits) := by
    rw [answerPending]
    split
    · exact .of_log rfl
    · rename_i message _
      exact answer_told (o := { q.publish with pending := none }) outside.fits message
  apply (first.trans second).trans (third.trans _)
  generalize q.publish.answerPending outside.fits = u
  rw [answerPause]
  split
  · exact .of_log rfl
  · rename_i message _
    exact answer_told (o := { u with pause := none }) outside.fits message

theorem conclude_told (outside : Outside) (s : Runtime) (advances ended : Bool) :
    Told doubt o (o.conclude outside s advances ended) := by
  rw [conclude]
  generalize next : (if advances = true then o.advanceControl s else .ok o) = advanced
  cases advanced with
  | error error =>
      apply giveUp_certain
      split at next
      · cases advanceControl_error next
        rfl
      · cases next
  | ok p =>
      have advanced : Told doubt o p := by
        split at next
        · obtain ⟨s', -, -, rfl⟩ := advanceControl_ok next
          exact .of_log rfl
        · cases next
          exact .of_log rfl
      simp only []
      split
      · have disposed : Told doubt o (p.dispose outside.reaped).1 :=
          advanced.trans (dispose_told outside.reaped)
        have certain := @dispose_certain p outside.reaped
        revert disposed certain
        rcases p.dispose outside.reaped with ⟨d, _ | failure⟩
        · intro disposed _
          exact disposed.trans (settleWaiters_told outside)
        · intro disposed certain
          exact (disposed.trans (rejectWaiters_told (certain rfl))).trans (.of_log rfl)
      · exact advanced.trans (settleWaiters_told outside)

theorem accept_told (outside : Outside) (s : Runtime) (reply : NativeView) :
    Told doubt o (o.accept outside s reply) := by
  rw [accept]
  split
  · exact giveUp_certain _ _ _ outside.reaped rfl
  · exact conclude_told outside _ _ _

theorem refuse_told (outside : Outside) (status : UInt16) :
    Told doubt o (o.refuse outside status) := by
  apply giveUp_certain
  split <;> rfl

/-- A reply that is not believed leaves a doubt where it answers an instruction. -/
theorem fail_told {r : WireRequest} {s : Runtime} (sound : Sound o hand) (found : o.session = some s)
    (flying : o.exchange = some r) (risks : Risks doubt o) (outside : Outside) (error : Error) :
    Told doubt o (({ o with exchange := none }.emit .dropped).fail outside s error) := by
  cases first : s.initializing with
  | true =>
      have dropped : Told doubt o ({ o with exchange := none }.emit .dropped) := by
        apply emit_told (o := { o with exchange := none })
        rfl
      apply dropped.trans
      apply giveUp_certain
      rw [if_pos first]
      rfl
  | false =>
      obtain ⟨w, same, executes⟩ := executing sound found (by rw [flying, first]; rfl)
      have drops : ({ o with exchange := none }.emit .dropped).log = o.log ++ [.dropped] := rfl
      apply Told.dropped (risks w same executes) drops (List.mem_singleton_self _)
      rw [fail]
      exact (retire_told _ _ _ outside.reaped : Told True _ _).grows.trans (rejectWaiters_grows _)

theorem complete_told {r : WireRequest} (sound : Sound o hand) (flying : o.exchange = some r)
    {outside : Outside} {result : Except Error NativeReply}
    (risks : (o.session.any fun s => (s.validated result).toOption.isSome) = false → Risks doubt o) :
    Told doubt o ({ o with exchange := none }.complete outside result) := by
  obtain ⟨s, found, -⟩ := sound.flight r flying
  rw [complete_of (o := { o with exchange := none }) found]
  cases judged : s.validated result with
  | error error =>
      apply fail_told sound found flying (risks _) outside error
      rw [found, Option.any_some, judged]
      rfl
  | ok reply =>
      simp only []
      have believed : Told doubt o ({ o with exchange := none }.emit (.validated reply)) := by
        apply emit_told (o := { o with exchange := none })
        rfl
      split
      · exact believed.trans (refuse_told outside _)
      · exact believed.trans (accept_told outside s _)

/-! ## Shutdown -/

theorem shutdown_told (reaped : Option DisposalFailure)
    (waiters : o.exchange = none → o.pending = none ∧ o.pause = none)
    (holds : o.exchange.isSome = true → doubt) :
    Told doubt o ((o.abandon.rejectWaiters (uncertain .disconnected)).dispose reaped).1 := by
  apply Told.trans _ (dispose_told reaped)
  cases flying : o.exchange with
  | none =>
      obtain ⟨pending, pause⟩ := waiters flying
      have still : o.abandon.rejectWaiters (uncertain .disconnected) = o := by
        rw [abandon, flying]
        simp [rejectWaiters, rejectPause, rejectPending, pending, pause]
      rw [still]
      exact .of_log rfl
  | some r =>
      apply Told.dropped (holds (by rw [flying]; rfl)) (abandon_log flying)
        (List.mem_singleton_self _)
      exact rejectWaiters_grows _

end Owner

end Reb.Debugger
