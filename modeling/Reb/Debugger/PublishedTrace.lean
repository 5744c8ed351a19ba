/-
# Debugger.PublishedTrace -- the trace a client sees

The run's view holds what `Believed` replies make of a trace, whatever the helper
sends; here this meets the log, which counts the executions that were answered, and
the view that is published: at the end of every turn it is the run's own.
-/
import Reb.Debugger.Lifecycle

namespace Reb.Debugger

open Theory.Machine

set_option autoImplicit false

/-! ## Counting executions -/

/-- The request in flight, and the executions answered with status 0 since the run began. -/
def Deed.execute : Option WireRequest × Nat → Deed → Option WireRequest × Nat
  | (flight, _), .began _ => (flight, 0)
  | (flight, n), .validated reply =>
      (none, if reply.status = 0 ∧ flight.any (·.operation == 2) then n + 1 else n)
  | (flight, n), deed => (deed.flight flight, n)

def executions (log : List Deed) : Nat := (log.foldl Deed.execute (none, 0)).2

/-- Every believed reply but the first answers an execution. -/
theorem execute_eq {log : List Deed} (lawful : Lawful Deed.Law log) :
    log.foldl Deed.execute (none, 0) = (inFlight log, (accepted log).length - 1) := by
  induction log using List.reverseRecOn with
  | nil => rfl
  | append_singleton past deed ih =>
      rw [List.foldl_append, ih lawful.before, List.foldl_cons, List.foldl_nil, inFlight_snoc,
        accepted_snoc]
      have obeys := lawful past deed [] rfl
      cases deed with
      | began generation => rfl
      | validated reply =>
          obtain ⟨request, flying, executes⟩ := obeys
          have counted : Deed.execute (inFlight past, (accepted past).length - 1) (.validated reply)
              = (none, if reply.status = 0 ∧ accepted past ≠ [] then (accepted past).length - 1 + 1
                else (accepted past).length - 1) := by
            simp [Deed.execute, flying, executes]
          rw [counted, Deed.flight, Deed.accept]
          by_cases status : reply.status = 0
          · cases views : accepted past <;> simp [status]
          · simp [status]
      | _ => rfl

namespace Owner

variable {o o' : Owner}

/-! ## What is published -/

/-- The published view is the run's view. -/
def Fresh (o : Owner) : Prop := o.published.session = o.session.map (·.view)

theorem publish_fresh (o : Owner) : o.publish.Fresh := rfl

theorem checkTime_fresh (fresh : o.Fresh) (now : Duration) (reaped : Option DisposalFailure) :
    (o.checkTime now reaped).Fresh := by
  rw [checkTime]
  cases found : o.session with
  | none => exact fresh
  | some s =>
      simp only []
      split
      · exact fresh
      split
      · exact publish_fresh _
      split
      · split
        · exact publish_fresh _
        · exact publish_fresh _
      · rw [Fresh, found] at fresh
        exact fresh

theorem launch_fresh (outside : Outside) (message : Envelope) (s : Runtime) :
    (o.launch outside message s).Fresh := by
  rw [launch]
  split
  · exact publish_fresh _
  · rfl

theorem start_fresh (outside : Outside) (message : Envelope) (fixture : Fixture)
    (sessionId : UInt64) (fresh : o.child.isSome = true → o.Fresh) :
    (o.start outside message fixture sessionId).Fresh := by
  rw [start]
  split
  · exact fresh ‹_›
  split
  · rfl
  · exact launch_fresh outside message _

theorem quiesce_fresh (outside : Outside) (message : Envelope) (s : Runtime) :
    (o.quiesce outside message s).Fresh := by
  rw [quiesce]
  generalize (o.exchange.isSome && !s.initializing) = uncertainStep
  rcases dispose_cases (o := o.withdraw s uncertainStep) outside.reaped with
    ⟨reaped, free, -⟩ | ⟨failed, -⟩
  · revert reaped free
    rcases (o.withdraw s uncertainStep).dispose outside.reaped with ⟨d, _ | failure⟩
    · intro _ free
      simp only [release]
      split
      · exact start_fresh outside message _ _ (fun held => by
          rw [show d.child = none from free] at held
          cases held)
      · rfl
      · rfl
    · intro impossible
      cases impossible
  · revert failed
    rcases (o.withdraw s uncertainStep).dispose outside.reaped with ⟨d, _ | failure⟩
    · intro impossible
      cases impossible
    · intro _
      rfl

theorem control_fresh (outside : Outside) (message : Envelope) (s : Runtime) :
    (o.control outside message s).Fresh := by
  rw [control]
  split
  · rfl
  · simp only []
    split <;> exact publish_fresh _
  · simp only []
    split
    · exact publish_fresh _
    · rfl
  · exact quiesce_fresh outside message s

theorem perform_fresh (fresh : o.Fresh) (outside : Outside) (message : Envelope) (s : Runtime) :
    (o.perform outside message s).Fresh := by
  rw [perform]
  split
  · exact fresh
  split
  · rfl
  · rename_i advanced ok
    obtain ⟨s', -, -, rfl⟩ := advanceControl_ok ok
    exact control_fresh outside message _

theorem handle_fresh (fresh : o.Fresh) (outside : Outside) (message : Envelope) :
    (o.handle outside message).Fresh := by
  rw [handle]
  split
  · rw [create]
    split
    · exact fresh
    split
    · exact fresh
    · exact start_fresh outside message _ _ fun _ => fresh
  split
  · exact fresh
  · have fresh' := checkTime_fresh fresh outside.checked outside.checkReaped
    simp only []
    split
    · exact fresh'
    · exact perform_fresh fresh' outside message _

theorem tick_fresh (fresh : o.Fresh) (outside : Outside) : (o.tick outside).Fresh := by
  have fresh' := checkTime_fresh fresh outside.checked outside.checkReaped
  rw [tick]
  split
  · exact fresh'
  split
  · split <;> exact publish_fresh _
  · exact fresh'

theorem settleWaiters_fresh (outside : Outside) : (o.settleWaiters outside).Fresh := by
  rw [settleWaiters]
  generalize (o.pending.elim o fun message => o.stamp message.request .completed) = p
  generalize (p.pause.elim p fun message => p.stamp message.request .completed) = q
  unfold answerPause answerPending
  cases pending : q.publish.pending with
  | none =>
      simp only []
      split <;> rfl
  | some message =>
      simp only []
      split <;> rfl

theorem conclude_fresh (outside : Outside) (s : Runtime) (advances ended : Bool) :
    (o.conclude outside s advances ended).Fresh := by
  rw [conclude]
  split
  · exact publish_fresh _
  split
  · split
    · exact publish_fresh _
    · exact settleWaiters_fresh outside
  · exact settleWaiters_fresh outside

theorem complete_fresh (fresh : o.Fresh) (outside : Outside) (result : Except Error NativeReply) :
    (o.complete outside result).Fresh := by
  rw [complete]
  split
  · exact fresh
  split
  · exact publish_fresh _
  · simp only []
    split
    · exact publish_fresh _
    · rw [accept]
      split
      · exact publish_fresh _
      · exact conclude_fresh outside _ _ _

/-- Every turn but a shutdown ends with the run's view published. -/
theorem turn_fresh {t : Turn} (step : o.turn t = some o') (fresh : o.Fresh)
    (running : o'.stopped = false) : o'.Fresh := by
  rw [turn] at step
  split at step
  · cases step
  have fresh' := checkTime_fresh fresh t.now t.reaped
  cases event : t.event with
  | shutdown =>
      simp only [event] at step
      cases step
      cases running
  | message request closed =>
      simp only [event, receive] at step
      cases step
      split
      · exact fresh'
      · apply handle_fresh
        exact fresh'
  | reply result =>
      simp only [event] at step
      split at step
      · cases step
        apply complete_fresh
        exact fresh'
      · cases step
  | timer =>
      simp only [event] at step
      split at step
      · cases step
        exact tick_fresh fresh' t.outside
      · cases step
  | mailboxClosed =>
      simp only [event] at step
      cases step
      exact fresh'

theorem play_fresh {turns : List Turn} (run : play turn o turns = some o')
    (fresh : o.stopped = false → o.Fresh) : o'.stopped = false → o'.Fresh := by
  refine @play_keeps Owner Turn turn (fun o => o.stopped = false → o.Fresh) ?_ _ _ _ run fresh
  intro s t s' step fresh running
  have before : s.stopped = false := by
    rw [← Bool.not_eq_true]
    intro stopped
    rw [turn, if_pos stopped] at step
    cases step
  exact turn_fresh step (fresh before) running

/-! ## The trace -/

/-- What a run holds, and what is published of it, between any two turns. -/
structure TraceKept (o : Owner) : Prop where
  published : o.stopped = false → o.published.session = o.session.map (·.view)
  empty : ∀ s, o.session = some s → accepted o.log = [] → s.view.trace = {}
  coherent : ∀ s, o.session = some s → accepted o.log ≠ [] →
    s.view.trace.Coherent s.spec (accepted o.log)
  executed : ∀ s, o.session = some s → s.view.trace.executedCount.toNat = executions o.log

theorem Reached.traceKept (reached : Reached o) (fresh : o.stopped = false → o.Fresh) :
    TraceKept o := by
  have lawful := reached.sound.lawful
  refine ⟨fresh, ?_, ?_, ?_⟩
  · intro s found none
    have held := (reached.sound.run s found).1
    rw [held.trace, none]
    rfl
  · intro s found some
    have held := (reached.sound.run s found).1
    rw [held.trace]
    exact held.believed.coherent some
  · intro s found
    have held := (reached.sound.run s found).1
    rw [executions, execute_eq lawful, held.trace]
    by_cases replied : accepted o.log = []
    · rw [replied]
      rfl
    · have counted := (held.believed.coherent replied).counted
      exact Nat.eq_sub_of_add_eq counted

/-- The trace stays coherent, whatever the helper replies. -/
theorem published_trace_coherent {instanceId : String} {turns : List Turn}
    (run : play turn (initial instanceId) turns = some o) : TraceKept o :=
  (initial_play run).traceKept (play_fresh run fun _ => rfl)

theorem published_trace_coherent_sample :
    (play turn (initial "backend") sampleRun).map (fun o => (executions o.log,
        o.session.map fun s => s.view.trace.records)) = some (1, some [sampleRecord])
      ∧ ∃ o, play turn (initial "backend") sampleRun = some o ∧ TraceKept o := by
  have ran : (play turn (initial "backend") sampleRun).isSome = true := by decide +kernel
  exact ⟨by decide +kernel, _, (Option.some_get ran).symm,
    published_trace_coherent (Option.some_get ran).symm⟩

end Owner

end Reb.Debugger
