/-
# Worker.QueueCalls -- calls of the queue that run to their end

The transfer endpoints call the queue from one sequence.  A call is the queue's own
program, access by access, with no other thread in between; it keeps the outline, and
it leaves the queue at rest.
-/
import Reb.Worker.ObservationSteps

namespace Reb.Worker

set_option autoImplicit false

open Theory.Interleaving

/-- The queue, seen by calls that run to their end. -/
abbrev Queue : Type := QueueMemory Unit

/-- A program from a point on, for at most so many accesses. -/
def alone (choice : QueueChoice) : Nat → Queue → QueuePc → Queue × QueueResult
  | _, queue, .returned result => (queue, result)
  | 0, queue, _ => (queue, {})
  | fuel + 1, queue, pc =>
      alone choice fuel (queueAccess () choice queue pc).1 (queueAccess () choice queue pc).2

namespace QueueMemory

variable (queue : Queue)

def elapse (elapsed : Nat) : Queue := { queue with clock := queue.clock + elapsed }

/-- A call that is given this time.  The longest program, `Configure`, has nine accesses. -/
def called (call : QueueCall) (nowNs : Nat) (fails : Bool := false) : Queue × QueueResult :=
  alone { fails } 9 queue (call.start nowNs)

/-- `Stats`. -/
structure CaptureStats where
  attempted : Nat := 0
  dropped : Nat := 0
  pendingGap : Nat := 0
  retired : Nat := 0
  stale : Nat := 0
  contended : Nat := 0
  queued : Nat := 0
  deriving DecidableEq, Repr

def stats : CaptureStats where
  attempted := queue.guarded.attempted
  dropped := queue.guarded.dropped
  pendingGap := queue.guarded.pendingGap
  retired := queue.guarded.retired
  stale := queue.guarded.stale
  contended := if queue.contentionOverflow then uint64Max else queue.contended
  queued := queue.guarded.records.length

def isEnabled : Bool := queue.activeGeneration != 0

/-- Between two calls: nobody holds anything. -/
structure Resting : Prop where
  kept : queue.Kept
  locked : queue.locked = none
  controllers : queue.controllers = []

end QueueMemory

variable {queue queue' : Queue} {pc : QueuePc} {choice : QueueChoice} {call : QueueCall}
  {nowNs : Nat} {fails : Bool}

/-! ## A call keeps the outline -/

/-- With one sequence nobody else is in control. -/
theorem Asserts.serialized (asserts : Asserts () queue pc) : serialized () queue pc := by
  intro starts
  refine List.eq_nil_iff_forall_not_mem.2 fun _ => asserts.idle ?_
  cases pc <;> first | exact id | cases starts

/-- How many accesses are left at most. -/
def QueuePc.left : QueuePc → Nat
  | .returned _ => 0
  | .unlock _ | .unlockControl _ | .overflow => 1
  | .expireReadable | .publishActive _ | .disableLock | .contend => 2
  | .expireActive | .publishReadable _ | .disableReadable => 3
  | .configureWorkerLow _ | .disableActive => 4
  | .configureWorkerHigh _ => 5
  | .configureSession _ => 6
  | .configureLock _ _ => 7
  | .configureReadable _ _ => 8
  | .configureActive _ _ => 9
  | .retireExchange _ => 1
  | .retireWorkerLow _ => 2
  | .retireWorkerHigh _ => 3
  | .retireSession _ => 4
  | .retireActive _ => 5
  | .takeCommit _ | .captureExhausted | .captureCommit _ _ _ => 2
  | .beginCheck _ _ _ _ _ | .takeCheck _ | .captureCheck _ _ _ => 4
  | .beginLock _ _ _ _ _ | .takeLock _ | .captureLock _ _ _ => 5
  | .beginActive _ _ _ _ _ | .takeReadable _ | .captureActive _ _ _ => 6
  | .idle => 10

theorem tryLock_left {held contended : QueuePc} {fails : Bool} {bound : Nat}
    (inside : held.left < bound) (outside : contended.left < bound) :
    (tryLock () fails queue held contended).2.left < bound := by
  rw [tryLock]
  split
  · exact outside
  · exact inside

theorem Asserts.unlocked (asserts : Asserts () queue pc) (outside : ¬ pc.inSection) :
    queue.locked = none := by
  cases held : queue.locked with
  | none => rfl
  | some i => exact absurd (asserts.mutex.2 held) outside

/-- Every access of a call that runs alone brings it closer to its end. -/
theorem queueAccess_left (choice : QueueChoice) (asserts : Asserts () queue pc) (begun : pc.left < 10)
    (running : ∀ result, pc ≠ .returned result) :
    (queueAccess () choice queue pc).2.left < pc.left := by
  cases pc with
  | idle => exact absurd begun (Nat.lt_irrefl _)
  | returned result => exact absurd rfl (running result)
  | configureLock policy nowNs =>
      rw [queueAccess, asserts.unlocked id]
      simp only [Option.isSome_none, Bool.false_eq_true, if_false, configureSection]
      split <;> exact Nat.le_of_ble_eq_true rfl
  | disableLock =>
      rw [queueAccess, asserts.unlocked id]
      exact Nat.le_of_ble_eq_true rfl
  | beginLock | captureLock => exact tryLock_left (Nat.le_of_ble_eq_true rfl) (Nat.le_of_ble_eq_true rfl)
  | takeLock => exact tryLock_left (Nat.le_of_ble_eq_true rfl) (Nat.le_of_ble_eq_true rfl)
  | beginCheck =>
      simp only [queueAccess, beginSection]
      split
      · exact Nat.le_of_ble_eq_true rfl
      · split
        · exact Nat.le_of_ble_eq_true rfl
        · split <;> exact Nat.le_of_ble_eq_true rfl
  | captureCheck =>
      simp only [queueAccess, captureSection]
      repeat (split; · exact Nat.le_of_ble_eq_true rfl)
      exact Nat.le_of_ble_eq_true rfl
  | captureCommit =>
      simp only [queueAccess, captureCommit]
      split <;> exact Nat.le_of_ble_eq_true rfl
  | takeCheck =>
      simp only [queueAccess, takeSection]
      repeat (split; · exact Nat.le_of_ble_eq_true rfl)
      exact Nat.le_of_ble_eq_true rfl
  | takeCommit =>
      simp only [queueAccess, takeCommit]
      split
      · exact Nat.le_of_ble_eq_true rfl
      · split <;> exact Nat.le_of_ble_eq_true rfl
  | beginActive =>
      simp only [queueAccess]
      split
      · exact Nat.le_of_ble_eq_true rfl
      · split <;> exact Nat.le_of_ble_eq_true rfl
  | retireActive | retireSession | retireWorkerHigh | retireWorkerLow | retireExchange |
    captureActive | takeReadable | contend =>
      simp only [queueAccess]
      split <;> exact Nat.le_of_ble_eq_true rfl
  | _ => exact Nat.le_of_ble_eq_true rfl

theorem Asserts.rests {result : QueueResult} (kept : queue.Kept)
    (asserts : Asserts () queue (.returned result)) : queue.Resting :=
  ⟨kept, asserts.unlocked id, List.eq_nil_iff_forall_not_mem.2 fun _ => asserts.idle id⟩

/-- A condition on the queue and the program point that every access keeps holds at the end
of the call, which is reached. -/
theorem alone_ends {holds : Queue → QueuePc → Prop} {fuel : Nat} (kept : queue.Kept)
    (asserts : Asserts () queue pc) (enough : pc.left ≤ fuel) (bounded : fuel < 10)
    (keeps : ∀ {queue pc}, queue.Kept → Asserts () queue pc → pc.left < 10 →
      (∀ result, pc ≠ .returned result) → holds queue pc →
        holds (queueAccess () choice queue pc).1 (queueAccess () choice queue pc).2)
    (start : holds queue pc) :
    (alone choice fuel queue pc).1.Resting ∧
      holds (alone choice fuel queue pc).1 (.returned (alone choice fuel queue pc).2) := by
  induction fuel generalizing queue pc with
  | zero =>
      cases pc with
      | returned result => exact ⟨asserts.rests kept, start⟩
      | _ => exact absurd enough (Nat.not_succ_le_zero _)
  | succ fuel ih =>
      by_cases finished : ∃ result, pc = .returned result
      · obtain ⟨result, rfl⟩ := finished
        exact ⟨asserts.rests kept, start⟩
      · have running : ∀ result, pc ≠ .returned result := fun result same => finished ⟨result, same⟩
        have begun : pc.left < 10 := enough.trans_lt bounded
        obtain ⟨kept', asserts', -⟩ := queueAccess_keeps choice kept asserts asserts.serialized
        have closer := queueAccess_left choice asserts begun running
        have next := ih kept' asserts' (Nat.le_of_lt_succ (closer.trans_le enough))
          (Nat.lt_of_succ_lt bounded) (keeps kept asserts begun running start)
        rw [alone]
        · exact next
        · exact running

theorem called_ends (call : QueueCall) (nowNs : Nat) (fails : Bool)
    (holds : Queue → QueuePc → Prop) (rests : queue.Resting)
    (keeps : ∀ {queue pc}, (∀ result, pc ≠ .returned result) → holds queue pc →
      holds (queueAccess () { fails } queue pc).1 (queueAccess () { fails } queue pc).2)
    (start : holds queue (call.start nowNs)) :
    (queue.called call nowNs fails).1.Resting ∧
      holds (queue.called call nowNs fails).1 (.returned (queue.called call nowNs fails).2) := by
  obtain ⟨outside, uncontrolled, knows⟩ := call.start_outside (ι := Unit) nowNs
  have asserts : Asserts () queue (call.start nowNs) := by
    refine ⟨iff_of_false outside ?_, fun now => absurd now uncontrolled, fun _ => ?_, knows queue⟩
    · rw [rests.locked]
      exact (Option.some_ne_none ()).symm
    · rw [rests.controllers]
      exact List.not_mem_nil
  refine alone_ends rests.kept asserts ?_ (by decide) (fun _ _ _ => keeps) start
  cases call <;> exact Nat.le_of_ble_eq_true rfl

/-! ## What the calls of the workers leave alone -/

/-- Nothing is taken and no policy is put in force; what is recorded is recorded now. -/
structure Onward (nowNs : Nat) (queue queue' : Queue) : Prop where
  clock : queue'.clock = queue.clock
  policy : queue'.guarded.policy = queue.guarded.policy
  taken : queue'.guarded.taken = queue.guarded.taken
  records : ∀ record ∈ queue'.guarded.records,
    record ∈ queue.guarded.records ∨ record.monotonicTimeNs = nowNs

theorem Onward.refl : Onward nowNs queue queue := ⟨rfl, rfl, rfl, fun _ => .inl⟩

theorem Onward.trans {queue'' : Queue} (first : Onward nowNs queue queue')
    (second : Onward nowNs queue' queue'') : Onward nowNs queue queue'' where
  clock := second.clock.trans first.clock
  policy := second.policy.trans first.policy
  taken := second.taken.trans first.taken
  records := fun record queued =>
    (second.records record queued).elim (first.records record) .inr

theorem Onward.cleared (clock : queue'.clock = queue.clock)
    (cleared : queue'.guarded = queue.guarded.clearLocked) : Onward nowNs queue queue' := by
  refine ⟨clock, ?_, ?_, ?_⟩
  · rw [cleared]; rfl
  · rw [cleared]; rfl
  · rw [cleared]
    exact fun _ queued => absurd queued List.not_mem_nil

/-- A point in a call other than `Configure` and `Take`, which read this time. -/
def QueuePc.apart (nowNs : Nat) : QueuePc → Prop
  | .disableActive | .disableReadable | .disableLock | .unlockControl _ | .retireActive _
  | .retireSession _ | .retireWorkerHigh _ | .retireWorkerLow _ | .retireExchange _ | .contend
  | .overflow | .captureExhausted | .expireActive | .expireReadable | .unlock _ | .returned _ => True
  | .beginActive _ _ _ _ readNs | .beginLock _ _ _ _ readNs | .beginCheck _ _ _ _ readNs
  | .captureActive _ _ readNs | .captureLock _ _ readNs | .captureCheck _ _ readNs
  | .captureCommit _ _ readNs => readNs = nowNs
  | _ => False

structure Moves (nowNs : Nat) (queue : Queue) (moved : Queue × QueuePc) : Prop where
  onward : Onward nowNs queue moved.1
  apart : moved.2.apart nowNs

/-- The accounts move on without a record that is new or taken. -/
theorem Moves.accounts {guarded : Guarded} (apart : pc.apart nowNs)
    (policy : guarded.policy = queue.guarded.policy) (taken : guarded.taken = queue.guarded.taken)
    (records : guarded.records = queue.guarded.records) :
    Moves nowNs queue (queue.setGuarded guarded, pc) :=
  ⟨⟨rfl, policy, taken, fun _ queued => .inl (records ▸ queued)⟩, apart⟩

theorem queueAccess_moves (apart : pc.apart nowNs) (running : ∀ result, pc ≠ .returned result) :
    Moves nowNs queue (queueAccess () choice queue pc) := by
  cases pc with
  | returned result => exact absurd rfl (running result)
  | disableActive | disableReadable => exact ⟨⟨rfl, rfl, rfl, fun _ => .inl⟩, trivial⟩
  | disableLock =>
      rw [queueAccess]
      split
      · exact ⟨.refl, trivial⟩
      · exact ⟨.cleared rfl rfl, trivial⟩
  | unlockControl | unlock => exact ⟨⟨rfl, rfl, rfl, fun _ => .inl⟩, trivial⟩
  | expireActive => exact ⟨⟨rfl, rfl, rfl, fun _ => .inl⟩, trivial⟩
  | expireReadable => exact ⟨.cleared rfl rfl, trivial⟩
  | overflow => exact ⟨⟨rfl, rfl, rfl, fun _ => .inl⟩, trivial⟩
  | captureExhausted => exact ⟨⟨rfl, rfl, rfl, fun _ => .inl⟩, trivial⟩
  | contend =>
      rw [queueAccess]
      split <;> exact ⟨⟨rfl, rfl, rfl, fun _ => .inl⟩, trivial⟩
  | retireActive | retireSession | retireWorkerHigh | retireWorkerLow =>
      rw [queueAccess]
      split <;> exact ⟨.refl, trivial⟩
  | retireExchange =>
      rw [queueAccess]
      split <;> exact ⟨⟨rfl, rfl, rfl, fun _ => .inl⟩, trivial⟩
  | beginActive =>
      rw [queueAccess]
      split
      · exact ⟨.refl, trivial⟩
      · split
        · exact ⟨.refl, trivial⟩
        · exact ⟨.refl, apart⟩
  | captureActive =>
      rw [queueAccess]
      split
      · exact ⟨.refl, trivial⟩
      · exact ⟨.refl, apart⟩
  | beginLock | captureLock =>
      rw [queueAccess, tryLock]
      split
      · exact ⟨.refl, trivial⟩
      · exact ⟨⟨rfl, rfl, rfl, fun _ => .inl⟩, apart⟩
  | beginCheck =>
      rw [queueAccess, beginSection]
      split
      · exact .accounts trivial rfl rfl rfl
      · split
        · exact ⟨.refl, trivial⟩
        · split <;> exact ⟨.refl, trivial⟩
  | captureCheck =>
      rw [queueAccess, captureSection]
      split
      · exact .accounts trivial rfl rfl rfl
      · split
        · exact ⟨.refl, trivial⟩
        · split
          · exact ⟨.refl, trivial⟩
          · split
            · exact .accounts trivial rfl rfl rfl
            · split
              · exact .accounts trivial rfl rfl rfl
              · exact ⟨.refl, apart⟩
  | captureCommit ticket input readNs =>
      rw [queueAccess, captureCommit]
      split
      · exact .accounts trivial rfl rfl rfl
      · refine ⟨⟨rfl, rfl, rfl, fun record queued => ?_⟩, trivial⟩
        refine (List.mem_append.1 queued).imp_right fun new => ?_
        rw [List.mem_singleton.1 new]
        exact apart
  | _ => exact apart.elim

/-- The calls of the threads that are observed, and of `Disable`. -/
def QueueCall.apart : QueueCall → Bool
  | .configure _ | .take => false
  | _ => true

theorem called_onward (nowNs : Nat) (fails : Bool) (rests : queue.Resting) (other : call.apart = true) :
    (queue.called call nowNs fails).1.Resting ∧
      Onward nowNs queue (queue.called call nowNs fails).1 := by
  have ends := called_ends call nowNs fails
    (fun reached pc => Moves nowNs queue (reached, pc)) rests ?_ ?_
  · exact ⟨ends.1, ends.2.onward⟩
  · intro reached pc running moves
    have next := @queueAccess_moves reached pc { fails } _ moves.apart running
    exact ⟨moves.onward.trans next.onward, next.apart⟩
  · refine ⟨.refl, ?_⟩
    cases call with
    | configure | take => cases other
    | disable | retire => exact trivial
    | beginCapture | capture => exact rfl

/-! ## Take -/

/-- What a `Take` asked at this time found: the front of the ring, or no record. -/
def Took (nowNs : Nat) (queue queue' : Queue) (result : QueueResult) : Prop :=
  (result.status = .accepted ∧ nowNs < queue.guarded.policy.expiresAtMonotonicNs ∧
    queue'.clock = queue.clock ∧ ∃ rest, queue.guarded.records = result.record :: rest ∧
      queue'.guarded = queue.guarded.take result.record rest nowNs) ∨
  (result.status ≠ .accepted ∧ Onward nowNs queue queue')

/-- A point in a `Take`, seen from its start. -/
def Taking (nowNs : Nat) (queue queue' : Queue) : QueuePc → Prop
  | .takeReadable readNs | .takeLock readNs | .takeCheck readNs =>
      readNs = nowNs ∧ queue'.guarded = queue.guarded ∧ queue'.clock = queue.clock
  | .takeCommit readNs =>
      readNs = nowNs ∧ queue'.guarded = queue.guarded ∧ queue'.clock = queue.clock ∧
        nowNs < queue.guarded.policy.expiresAtMonotonicNs
  | .expireActive | .expireReadable =>
      queue'.guarded = queue.guarded ∧ queue'.clock = queue.clock
  | .unlock result | .returned result => Took nowNs queue queue' result
  | _ => False

theorem Onward.same (guarded : queue'.guarded = queue.guarded) (clock : queue'.clock = queue.clock) :
    Onward nowNs queue queue' :=
  ⟨clock, by rw [guarded], by rw [guarded], fun _ queued => .inl (guarded ▸ queued)⟩

theorem queueAccess_taking {start : Queue} (taking : Taking nowNs start queue pc)
    (running : ∀ result, pc ≠ .returned result) :
    Taking nowNs start (queueAccess () choice queue pc).1 (queueAccess () choice queue pc).2 := by
  cases pc with
  | returned result => exact absurd rfl (running result)
  | takeReadable readNs =>
      rw [queueAccess]
      split
      · exact .inr ⟨by decide, .same taking.2.1 taking.2.2⟩
      · exact taking
  | takeLock readNs =>
      rw [queueAccess, tryLock]
      split
      · exact .inr ⟨by decide, .same taking.2.1 taking.2.2⟩
      · exact taking
  | takeCheck readNs =>
      obtain ⟨rfl, guarded, clock⟩ := taking
      rw [queueAccess, takeSection]
      split
      · exact .inr ⟨by decide, .same guarded clock⟩
      · split
        · exact ⟨guarded, clock⟩
        next unexpired =>
        split
        · exact .inr ⟨by decide, .same guarded clock⟩
        · exact ⟨rfl, guarded, clock, guarded ▸ Nat.lt_of_not_le unexpired⟩
  | takeCommit readNs =>
      obtain ⟨rfl, guarded, clock, unexpired⟩ := taking
      rw [queueAccess, takeCommit]
      split
      · exact .inr ⟨by decide, .same guarded clock⟩
      next record rest front =>
      split
      · refine .inr ⟨by decide, clock, ?_, ?_, fun later queued => .inl ?_⟩
        · show queue.guarded.policy = _
          rw [guarded]
        · show queue.guarded.taken = _
          rw [guarded]
        · rw [← guarded, front]
          exact List.mem_cons_of_mem _ queued
      · exact .inl ⟨rfl, unexpired, clock, rest, guarded ▸ front, congrArg (·.take record rest readNs) guarded⟩
  | expireActive => exact taking
  | expireReadable =>
      exact .inr ⟨by decide, .cleared taking.2 (congrArg Guarded.clearLocked taking.1)⟩
  | unlock result =>
      refine taking.imp (fun took => took) fun refused => ⟨refused.1, ?_⟩
      exact ⟨refused.2.clock, refused.2.policy, refused.2.taken, refused.2.records⟩
  | _ => exact taking.elim

theorem called_took (nowNs : Nat) (fails : Bool) (rests : queue.Resting) :
    (queue.called .take nowNs fails).1.Resting ∧
      Took nowNs queue (queue.called .take nowNs fails).1 (queue.called .take nowNs fails).2 :=
  called_ends .take nowNs fails (Taking nowNs queue) rests (fun running taking => queueAccess_taking taking running)
    ⟨rfl, rfl, rfl⟩

/-! ## Configure -/

/-- What `Configure` did: the policy is in force and nothing is queued, or it was refused. -/
def Configured (policy : NativeWorkerObservationPolicy) (nowNs : Nat) (queue queue' : Queue)
    (result : QueueResult) : Prop :=
  (result.status = .accepted ∧ queue'.clock = queue.clock ∧
    queue.guarded.greatestGeneration < policy.generation ∧
    queue'.guarded = queue.guarded.clearLocked.configure policy) ∨
  (result.status ≠ .accepted ∧ Onward nowNs queue queue')

def Configures (policy : NativeWorkerObservationPolicy) (nowNs : Nat) (queue queue' : Queue) :
    QueuePc → Prop
  | .configureActive asked _ | .configureReadable asked _ | .configureLock asked _ =>
      asked = policy ∧ queue'.guarded = queue.guarded ∧ queue'.clock = queue.clock
  | .configureSession asked | .configureWorkerHigh asked | .configureWorkerLow asked
  | .publishReadable asked | .publishActive asked =>
      asked = policy ∧ Configured policy nowNs queue queue' {}
  | .unlockControl result | .returned result => Configured policy nowNs queue queue' result
  | _ => False

theorem queueAccess_configures {start : Queue} {policy : NativeWorkerObservationPolicy}
    (configures : Configures policy nowNs start queue pc)
    (running : ∀ result, pc ≠ .returned result) :
    Configures policy nowNs start (queueAccess () choice queue pc).1
      (queueAccess () choice queue pc).2 := by
  cases pc with
  | returned result => exact absurd rfl (running result)
  | configureActive | configureReadable => exact configures
  | configureLock asked readNs =>
      obtain ⟨rfl, guarded, clock⟩ := configures
      rw [queueAccess]
      split
      · exact ⟨rfl, guarded, clock⟩
      · rw [configureSection]
        split
        · exact .inr ⟨by decide, .cleared clock (congrArg Guarded.clearLocked guarded)⟩
        next accepted =>
          simp only [Bool.or_eq_true, not_or, decide_eq_true_eq, Nat.not_le] at accepted
          refine ⟨rfl, .inl ⟨rfl, clock, ?_, congrArg (·.clearLocked.configure asked) guarded⟩⟩
          exact guarded ▸ accepted.1.2
  | configureSession | configureWorkerHigh | configureWorkerLow | publishReadable =>
      obtain ⟨rfl, ⟨accepted, clock, newer, guarded⟩ | refused⟩ := configures
      · exact ⟨rfl, .inl ⟨rfl, clock, newer, guarded⟩⟩
      · exact absurd rfl refused.1
  | publishActive =>
      obtain ⟨rfl, ⟨accepted, clock, newer, guarded⟩ | refused⟩ := configures
      · exact .inl ⟨rfl, clock, newer, guarded⟩
      · exact absurd rfl refused.1
  | unlockControl result =>
      refine configures.imp (fun accepted => accepted) fun refused => ⟨refused.1, ?_⟩
      exact ⟨refused.2.clock, refused.2.policy, refused.2.taken, refused.2.records⟩
  | _ => exact configures.elim

theorem called_configured (policy : NativeWorkerObservationPolicy) (nowNs : Nat) (fails : Bool)
    (rests : queue.Resting) :
    (queue.called (.configure policy) nowNs fails).1.Resting ∧
      Configured policy nowNs queue (queue.called (.configure policy) nowNs fails).1
        (queue.called (.configure policy) nowNs fails).2 :=
  called_ends (.configure policy) nowNs fails (Configures policy nowNs queue) rests
    (fun running configures => queueAccess_configures configures running) ⟨rfl, rfl, rfl⟩

end Reb.Worker
