/-
# Worker.ObservationAccounting -- what the taken records account for

Over every run in which `Configure` and `Disable` are not begun beside one another,
the records taken of a generation are linked without a hole, and what was accepted is
queued, taken or retired (`accounting_exact`).  The projection that receives them
before the expiry misses exactly what the records after the first report as dropped.

Two poles bound the result.  A `Disable` beside a `Configure` clears records of the
new generation without ending it, and a `Take` that read its clock before a capture
returns a record from its own future (`accounting_poles`).
-/
import Reb.Worker.ObservationSteps

namespace Reb.Worker

set_option autoImplicit false

open Theory.Interleaving

/-! ## The projection -/

namespace NativeWorkerObservationProjection

variable {projection : NativeWorkerObservationProjection} {record : NativeWorkerObservation}
  {policy : NativeWorkerObservationPolicy} {nowNs : Nat}

/-- A record that comes out of the transfer, and when it is applied. -/
structure Delivery where
  record : NativeWorkerObservation
  nowNs : Nat
  deriving DecidableEq

def receive (projection : NativeWorkerObservationProjection) (deliveries : List Delivery) :
    NativeWorkerObservationProjection :=
  deliveries.foldl (fun projection delivery => (projection.apply delivery.record delivery.nowNs).2)
    projection

/-- The deliveries that come before one at the expiry or past it. -/
def inTime (policy : NativeWorkerObservationPolicy) (deliveries : List Delivery) : List Delivery :=
  deliveries.takeWhile (·.nowNs < policy.expiresAtMonotonicNs)

/-- What the records after the first report as dropped before them. -/
def reportedAfterFirst (deliveries : List Delivery) : Nat :=
  (deliveries.tail.map (·.record.droppedBefore)).sum

/-- What a record is about does not bear on the order of the records. -/
structure InStep (projection projection' : NativeWorkerObservationProjection) : Prop where
  authority : projection'.authority = projection.authority
  lastSequence : projection'.lastSequence = projection.lastSequence
  missing : projection'.stats.missingSequences = projection.stats.missingSequences

theorem applyMessage_inStep : InStep projection (projection.applyMessage record).2 := by
  rw [applyMessage]
  split
  · exact ⟨rfl, rfl, rfl⟩
  · dsimp only
    split
    · exact ⟨rfl, rfl, rfl⟩
    · exact ⟨rfl, rfl, rfl⟩

theorem applyScript_inStep : InStep projection (projection.applyScript record).2 := by
  rw [applyScript]
  dsimp only
  split
  · split
    · exact ⟨rfl, rfl, rfl⟩
    · exact ⟨rfl, rfl, rfl⟩
  · exact ⟨rfl, rfl, rfl⟩

theorem expire_unexpired (unexpired : nowNs < projection.authority.expiresAtMonotonicNs) :
    (projection.expire nowNs).2 = projection := by
  rw [expire, if_neg]
  simp only [Bool.and_eq_true, decide_eq_true_eq, not_and, Nat.not_le]
  exact fun _ => unexpired

/-- Whatever the record is about. -/
theorem takenUp_inStep : InStep projection
    (if isMessage record.operation then projection.applyMessage record
      else if record.operation == .scriptCompiled then projection.applyScript record
      else projection.applyLifecycle record).2 := by
  split
  · exact applyMessage_inStep
  · split
    · exact applyScript_inStep
    · exact ⟨rfl, rfl, rfl⟩

/-- A record of the authority, in order and in time, is counted by its distance. -/
theorem apply_next (authority : projection.authority = policy) (recorded : Recorded policy record)
    (past : record.monotonicTimeNs ≤ nowNs) (unexpired : nowNs < policy.expiresAtMonotonicNs)
    (later : projection.lastSequence < record.sequence) :
    let applied := (projection.apply record nowNs).2
    applied.authority = policy ∧ applied.lastSequence = record.sequence ∧
      applied.stats.missingSequences =
        if projection.lastSequence != 0 then
          increment projection.stats.missingSequences (record.sequence - projection.lastSequence - 1)
        else projection.stats.missingSequences := by
  have valid := recorded.valid nowNs past unexpired
  subst authority
  intro applied
  obtain ⟨authority, lastSequence, missing⟩ : InStep { projection with
      lastSequence := record.sequence
      stats := { projection.stats with
        missingSequences :=
          if projection.lastSequence != 0 then
            increment projection.stats.missingSequences (record.sequence - projection.lastSequence - 1)
          else projection.stats.missingSequences
        reportedDrops := increment projection.stats.reportedDrops record.droppedBefore } } applied := by
    show InStep _ (projection.apply record nowNs).2
    rw [apply, expire_unexpired unexpired, valid, Bool.not_true, if_neg Bool.false_ne_true,
      if_neg later.not_ge]
    exact takenUp_inStep
  exact ⟨authority, lastSequence, missing⟩

/-- No longer authorized, and what was missing by then. -/
structure Retired (projection : NativeWorkerObservationProjection) (missing : Nat) : Prop where
  authority : projection.authority = {}
  missing : projection.stats.missingSequences = missing

theorem apply_retired {missing : Nat} (retired : projection.Retired missing) :
    ((projection.apply record nowNs).2).Retired missing := by
  have unexpired : (projection.expire nowNs).2 = projection := by
    rw [expire, retired.authority]
    rfl
  have refused : isValidNativeWorkerObservation record {} nowNs = false := rfl
  rw [apply, unexpired]
  dsimp only
  rw [retired.authority, refused, Bool.not_false, if_pos rfl]
  exact ⟨rfl, retired.missing⟩

theorem apply_expired (authority : projection.authority = policy) (valid : validPolicy policy = true)
    (expired : policy.expiresAtMonotonicNs ≤ nowNs) :
    ((projection.apply record nowNs).2).Retired projection.stats.missingSequences := by
  subst authority
  have expires : (projection.expire nowNs).2 = projection.retire := by
    rw [expire, if_pos]
    rw [Bool.and_eq_true, bne_iff_ne, decide_eq_true_eq]
    exact ⟨validPolicy_generation valid, expired⟩
  have refused : isValidNativeWorkerObservation record {} nowNs = false := rfl
  rw [apply, expires]
  exact ⟨rfl, rfl⟩

theorem receive_retired {missing : Nat} (deliveries : List Delivery)
    (retired : projection.Retired missing) : (projection.receive deliveries).Retired missing := by
  induction deliveries generalizing projection with
  | nil => exact retired
  | cons delivery rest ih => exact ih (apply_retired retired)

/-- Behind a received record: nothing is missing but what the later ones report. -/
theorem receive_behind (deliveries : List Delivery) {earlier : NativeWorkerObservation}
    (authority : projection.authority = policy) (valid : validPolicy policy = true)
    (last : projection.lastSequence = earlier.sequence) (nonzero : earlier.sequence ≠ 0)
    (below : projection.stats.missingSequences ≤ earlier.sequence)
    (linked : Linked (earlier :: deliveries.map (·.record)))
    (recorded : ∀ delivery ∈ deliveries, Recorded policy delivery.record ∧
      delivery.record.monotonicTimeNs ≤ delivery.nowNs) :
    (projection.receive deliveries).stats.missingSequences =
      projection.stats.missingSequences +
        ((inTime policy deliveries).map (·.record.droppedBefore)).sum := by
  induction deliveries generalizing projection earlier with
  | nil => rfl
  | cons delivery rest ih =>
    obtain ⟨mine, past⟩ := recorded delivery List.mem_cons_self
    rw [inTime, List.takeWhile_cons]
    by_cases unexpired : delivery.nowNs < policy.expiresAtMonotonicNs
    · rw [if_pos (decide_eq_true unexpired), List.map_cons, List.sum_cons]
      obtain ⟨follows, chain⟩ := List.isChain_cons_cons.1 linked
      have follows : delivery.record.sequence =
        earlier.sequence + 1 + delivery.record.droppedBefore := follows
      obtain ⟨still, reached, counted⟩ := apply_next authority mine past unexpired (by omega)
      have missing : (projection.apply delivery.record delivery.nowNs).2.stats.missingSequences =
          projection.stats.missingSequences + delivery.record.droppedBefore := by
        rw [counted, last, if_pos (bne_iff_ne.2 nonzero), increment_exact]
        · omega
        · have := mine.bounded
          omega
      show (receive (projection.apply delivery.record delivery.nowNs).2 rest).stats.missingSequences = _
      rw [ih still reached (by omega) (by omega) chain
        (fun later member => recorded later (List.mem_cons_of_mem _ member)), missing, inTime]
      omega
    · rw [if_neg (fun now => unexpired (of_decide_eq_true now))]
      exact (receive_retired rest (apply_expired authority valid (Nat.le_of_not_lt unexpired))).missing

/-- From a reset: what is missing is what the records after the first report. -/
theorem receive_reset (deliveries : List Delivery) (valid : validPolicy policy = true)
    (linked : Linked (deliveries.map (·.record)))
    (recorded : ∀ delivery ∈ deliveries, Recorded policy delivery.record ∧
      delivery.record.monotonicTimeNs ≤ delivery.nowNs) :
    ((reset policy).2.receive deliveries).stats.missingSequences =
      reportedAfterFirst (inTime policy deliveries) := by
  rw [reset, if_pos valid]
  cases deliveries with
  | nil => rfl
  | cons delivery rest =>
    obtain ⟨mine, past⟩ := recorded delivery List.mem_cons_self
    rw [inTime, List.takeWhile_cons]
    by_cases unexpired : delivery.nowNs < policy.expiresAtMonotonicNs
    · have sequence : delivery.record.sequence ≠ 0 := by
        have := mine.valid delivery.nowNs past unexpired
        intro zero
        simp [isValidNativeWorkerObservation, zero] at this
      obtain ⟨still, reached, counted⟩ := @apply_next { authority := policy } _ _ _ rfl mine past
        unexpired (Nat.pos_of_ne_zero sequence)
      have behind := receive_behind rest still valid reached sequence
        (counted.trans_le (Nat.zero_le _)) linked
        (fun later member => recorded later (List.mem_cons_of_mem _ member))
      rw [counted] at behind
      rw [if_pos (decide_eq_true unexpired)]
      exact behind.trans (Nat.zero_add _)
    · rw [if_neg (fun now => unexpired (of_decide_eq_true now))]
      exact (receive_retired rest (@apply_expired { authority := policy } _ _ _ rfl valid
        (Nat.le_of_not_lt unexpired))).missing

end NativeWorkerObservationProjection

/-! ## The queue -/

section Queue

variable {ι : Type} {config : QueueConfig ι}

/-- The ticket of a thread in `Retire`. -/
def QueuePc.retiring : QueuePc → Option NativeWorkerCaptureTicket
  | .retireActive ticket | .retireSession ticket | .retireWorkerHigh ticket
  | .retireWorkerLow ticket | .retireExchange ticket => some ticket
  | _ => none

/-- The thread gives back the mutex and returns the record. -/
def QueuePc.returning : QueuePc → Option NativeWorkerObservation
  | .unlock result => if result.record = {} then none else some result.record
  | _ => none

structure Accounted [DecidableEq ι] (config : QueueConfig ι) : Prop where
  linked : ∀ generation, Linked (config.memory.guarded.takenOf generation)
  counted : config.memory.guarded.accepted = config.memory.guarded.records.length +
    config.memory.guarded.taken.length + config.memory.guarded.retired
  valid : ∀ taken ∈ config.memory.guarded.taken,
    taken.record.generation = taken.policy.generation ∧
      taken.nowNs < taken.policy.expiresAtMonotonicNs ∧
      ∀ nowNs, taken.record.monotonicTimeNs ≤ nowNs → nowNs < taken.policy.expiresAtMonotonicNs →
        isValidNativeWorkerObservation taken.record taken.policy nowNs = true
  current : ∀ i record, (config.locals i).returning = some record →
    record.generation = config.memory.guarded.greatestGeneration
  retires : ∀ i ticket choice, (config.locals i).retiring = some ticket →
    (queueAccess i choice config.memory (config.locals i)).1.activeGeneration ≠
        config.memory.activeGeneration →
      Guarded.Names config.memory.guarded.policy ticket
  missing : ∀ taken ∈ config.memory.guarded.taken,
    ∀ deliveries : List NativeWorkerObservationProjection.Delivery,
      deliveries.map (·.record) <:+: config.memory.guarded.takenOf taken.policy.generation →
      (∀ delivery ∈ deliveries, delivery.record.monotonicTimeNs ≤ delivery.nowNs) →
      ((NativeWorkerObservationProjection.reset taken.policy).2.receive
          deliveries).stats.missingSequences =
        NativeWorkerObservationProjection.reportedAfterFirst
          (NativeWorkerObservationProjection.inTime taken.policy deliveries)

/-- A step of `Retire` that changes what is active is the exchange, and finds its own. -/
theorem retire_names [DecidableEq ι] {i : ι} {memory : QueueMemory ι} {pc : QueuePc}
    {ticket : NativeWorkerCaptureTicket} {choice : QueueChoice} (kept : memory.Kept)
    (asserts : Asserts i memory pc) (retiring : pc.retiring = some ticket)
    (deactivates : (queueAccess i choice memory pc).1.activeGeneration ≠ memory.activeGeneration) :
    Guarded.Names memory.guarded.policy ticket := by
  cases pc with
  | retireActive | retireSession | retireWorkerHigh | retireWorkerLow =>
      refine absurd ?_ deactivates
      rw [queueAccess]
      split <;> rfl
  | retireExchange =>
      cases retiring
      rw [queueAccess] at deactivates
      split at deactivates
      case isTrue same => exact asserts.retires kept (fun none => deactivates none.symm) (beq_iff_eq.1 same)
      case isFalse => exact absurd rfl deactivates
  | _ => cases retiring

/-- The records taken of a generation are records of the policy they were taken under. -/
theorem Guarded.Sound.takenOf_recorded {guarded : Guarded} (sound : guarded.Sound) {taken : Taken}
    (member : taken ∈ guarded.taken) {record : NativeWorkerObservation}
    (mine : record ∈ guarded.takenOf taken.policy.generation) : Recorded taken.policy record := by
  obtain ⟨mapped, generation⟩ := List.mem_filter.1 mine
  obtain ⟨other, also, rfl⟩ := List.mem_map.1 mapped
  have recorded := (sound.recorded other also).1
  have same : other.policy.generation = taken.policy.generation :=
    recorded.generation.symm.trans (beq_iff_eq.1 generation)
  exact sound.agreed other also taken member same ▸ recorded

theorem accounting_exact [DecidableEq ι]
    (run : Reachable ((observationMachine ι).access.meeting serialized) (unconfigured ι) config) :
    Accounted config := by
  have start : Outline.Holds QueueMemory.Kept Asserts (unconfigured ι) := by
    refine ⟨.withdrawn Guarded.sound_empty rfl rfl, fun i => ⟨?_, False.elim, ?_, trivial⟩⟩
    · exact iff_of_false id (Option.some_ne_none i).symm
    · exact fun _ => List.not_mem_nil
  obtain ⟨kept, asserts⟩ := observation_outline.reachable run trivial start
  constructor
  case linked => exact kept.sound.linked
  case counted => exact kept.sound.counted
  case valid =>
    intro taken member
    obtain ⟨recorded, unexpired⟩ := kept.sound.recorded taken member
    exact ⟨recorded.generation, unexpired, recorded.valid⟩
  case current =>
    intro i record returning
    have knows := (asserts i).knows
    cases at_ : config.locals i with
    | unlock result =>
        rw [at_] at returning knows
        rw [QueuePc.returning] at returning
        split at returning
        case isTrue => cases returning
        case isFalse nonempty =>
          cases returning
          exact knows.resolve_left nonempty
    | _ =>
        rw [at_] at returning
        cases returning
  case retires =>
    intro i ticket choice retiring deactivates
    exact retire_names kept (asserts i) retiring deactivates
  case missing =>
    intro taken member deliveries received past
    have unbroken : Linked (config.memory.guarded.takenOf taken.policy.generation) →
        Linked (deliveries.map (·.record)) := by
      obtain ⟨before, after, split⟩ := received
      intro linked
      rw [← split] at linked
      exact linked.left_of_append.right_of_append
    refine NativeWorkerObservationProjection.receive_reset deliveries
      (kept.sound.recorded taken member).1.authorized
      (unbroken (kept.sound.linked taken.policy.generation)) fun delivery delivered => ?_
    refine ⟨kept.sound.takenOf_recorded member (received.subset ?_), past delivery delivered⟩
    exact List.mem_map_of_mem delivered

instance [DecidableEq ι] (i : ι) (memory : QueueMemory ι) (pc : QueuePc) :
    Decidable (serialized i memory pc) :=
  inferInstanceAs (Decidable (_ → _))

/-! ## Runs of two threads -/

def lease71 : NativeWorkerObservationPolicy :=
  ⟨71, 1, 105, ⟨1, 2⟩, ⟨3, 4⟩, ⟨5, 6⟩, ⟨7, 8⟩, .document⟩

def ticket71 : NativeWorkerCaptureTicket := ⟨71, 1, ⟨5, 6⟩⟩

def onward : QueueChoice := {}

/-- One call of a thread, from its start over so many accesses. -/
def called (thread : Bool) (call : QueueCall) (elapsed accesses : Nat) : List (Bool × QueueChoice) :=
  (thread, { call, elapsed }) :: List.replicate accesses (thread, onward)

def played (moves : List (Bool × QueueChoice)) : QueueConfig Bool :=
  moves.foldl (observationMachine Bool).perform (unconfigured Bool)

/-- What was taken: its sequence, and what it reports as dropped before it. -/
def sequences (config : QueueConfig Bool) : List (Nat × Nat) :=
  config.memory.guarded.taken.map fun taken => (taken.record.sequence, taken.record.droppedBefore)

/-- Two captures are accepted and taken, and one between them is refused. -/
def twoTaken : List (Bool × QueueChoice) :=
  called false (.configure lease71) 0 9 ++ called false (.capture ticket71 {}) 1 5 ++
    called false (.capture ticket71 { scriptId := 1 }) 1 4 ++
    called false (.capture ticket71 {}) 1 5 ++ called true .take 1 5 ++ called true .take 1 5

theorem accounting_exact_two_taken :
    Accounted (played twoTaken) ∧ sequences (played twoTaken) = [(1, 0), (3, 1)] :=
  ⟨accounting_exact ((observationMachine Bool).schedule_reachable_meeting serialized _ twoTaken
    (by decide +kernel)), by decide +kernel⟩

/-- `Disable` clears a generation that a `Configure` beside it has just made active. -/
def lateDisable : List (Bool × QueueChoice) :=
  called true .disable 0 2 ++ called false (.configure lease71) 0 9 ++
    called false (.capture ticket71 {}) 1 5 ++ called false .take 0 5 ++
    called false (.capture ticket71 { scriptId := 1 }) 1 4 ++ List.replicate 2 (true, onward) ++
    called false (.capture ticket71 {}) 1 5 ++ called false .take 0 5

/-- A capture comes between the clock that `Take` reads and its section; then time passes. -/
def lateTake : List (Bool × QueueChoice) :=
  called false (.configure lease71) 0 9 ++ called true .take 90 1 ++
    called false (.capture ticket71 {}) 10 5 ++ called false (.retire ticket71) 10 0 ++
    List.replicate 3 (true, onward)

/-- A hole that no record reports, and a record returned before its own time to a caller
whose lease is over. -/
theorem accounting_poles :
    (∃ config : QueueConfig Bool,
      Reachable (observationMachine Bool).access (unconfigured Bool) config ∧
        ¬ Linked (config.memory.guarded.takenOf 1)) ∧
    (∃ config : QueueConfig Bool,
      Reachable ((observationMachine Bool).access.meeting serialized) (unconfigured Bool) config ∧
        ∃ taken ∈ config.memory.guarded.taken,
          (config.locals true).returning = some taken.record ∧
            isValidNativeWorkerObservation taken.record taken.policy taken.nowNs = false ∧
            isValidNativeWorkerObservation taken.record taken.policy config.memory.clock = false) := by
  constructor
  · refine ⟨played lateDisable, (observationMachine Bool).schedule_reachable _ lateDisable, ?_⟩
    unfold Linked Follows
    decide +kernel
  · refine ⟨played lateTake, (observationMachine Bool).schedule_reachable_meeting serialized _ lateTake
      (by decide +kernel), ?_⟩
    decide +kernel

end Queue

end Reb.Worker
