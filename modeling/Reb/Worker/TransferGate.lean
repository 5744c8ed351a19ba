/-
# Worker.TransferGate -- the browser's gate against any renderer

The replies may be anything the wire can carry, at any time and under any authority.  A
batch is published only as one of the lease that stands, behind all that was published
before it (`Behind`), with records that the lease admits, in order (`Fit`).
-/
import Reb.Worker.TransferPublishesOnce

namespace Reb.Worker

set_option autoImplicit false

/-- A call of the browser on its own end. -/
inductive GateMove where
  | configure (lease : NativeWorkerLease)
  | request
  | receive (reply : NativeWorkerTransferReply)
  | pendingForPublication
  | acknowledgePublished (batch : NativeWorkerBatchAck)
  | revoke

/-- The array of a batch has its sixteen slots. -/
def GateMove.Sized : GateMove → Prop
  | .receive reply => reply.batch.records.length = kNativeWorkerBatchCapacity
  | _ => True

instance (move : GateMove) : Decidable move.Sized := by
  cases move <;> unfold GateMove.Sized <;> infer_instance

/-- The receiver, with the batches acknowledged as published and the leases they came under. -/
structure Gate where
  receiver : NativeWorkerTransferReceiver := {}
  published : List (NativeWorkerLease × NativeWorkerBatch) := []

namespace Gate

def moved (gate : Gate) (authority : NativeWorkerAuthority) (nowNs : Nat) : GateMove → Gate
  | .configure lease =>
      { gate with receiver := (gate.receiver.configure authority nowNs lease).2 }
  | .request => { gate with receiver := (gate.receiver.request authority nowNs).2.2 }
  | .receive reply => { gate with receiver := (gate.receiver.receive authority nowNs reply).2 }
  | .pendingForPublication =>
      { gate with receiver := (gate.receiver.pendingForPublication authority nowNs).2 }
  | .acknowledgePublished batch =>
      let answer := gate.receiver.acknowledgePublished authority nowNs batch
      { receiver := answer.2
        published := gate.published ++
          if answer.1 then [(gate.receiver.lease, gate.receiver.pending)] else [] }
  | .revoke => { gate with receiver := gate.receiver.revoke }

def run (moves : List (NativeWorkerAuthority × Nat × GateMove)) : Gate :=
  moves.foldl (fun gate move => gate.moved move.1 move.2.1 move.2.2) {}

end Gate

/-! ## What may be published -/

/-- A batch of an earlier lease, or one of the same lease with smaller numbers throughout. -/
def Behind (earlier later : NativeWorkerLease × NativeWorkerBatch) : Prop :=
  earlier.1.policy.generation < later.1.policy.generation ∨
    (earlier.1 = later.1 ∧ earlier.2.batchId < later.2.batchId ∧
      ∀ record ∈ earlier.2.used, ∀ record' ∈ later.2.used, record.sequence < record'.sequence)

/-- The batch is one of the lease, and its records are valid under it and in order. -/
structure Fit (lease : NativeWorkerLease) (batch : NativeWorkerBatch) : Prop where
  epoch : batch.epoch = workerTransferEpoch lease
  count : batch.count ≤ kNativeWorkerBatchCapacity
  records : ∃ nowNs, ∀ record ∈ batch.used,
    isValidNativeWorkerObservation record lease.policy nowNs = true ∧
      lease.issuedAtNs ≤ record.monotonicTimeNs
  ordered : batch.used.Pairwise fun record record' => record.sequence < record'.sequence

variable {lease : NativeWorkerLease} {gate : Gate}

/-- The records that the loop over the slots admits. -/
theorem slotsValid_taken {nowNs used sequence : Nat} {records : List NativeWorkerObservation}
    (valid : slotsValid lease nowNs used sequence records = true) :
    (∀ record ∈ records.take used, isValidNativeWorkerObservation record lease.policy nowNs = true ∧
      lease.issuedAtNs ≤ record.monotonicTimeNs ∧ sequence < record.sequence) ∧
    (records.take used).Pairwise fun record record' => record.sequence < record'.sequence := by
  induction records generalizing used sequence with
  | nil => simp
  | cons first rest ih =>
      cases used with
      | zero => simp
      | succ used =>
          rw [slotsValid] at valid
          simp only [Bool.and_eq_true, decide_eq_true_eq] at valid
          obtain ⟨⟨⟨admitted, past⟩, issued⟩, later⟩ := valid
          obtain ⟨each, ordered⟩ := ih later
          rw [List.take_succ_cons, List.forall_mem_cons, List.pairwise_cons]
          refine ⟨⟨⟨admitted, issued, past⟩, fun record member => ?_⟩,
            fun record member => (each record member).2.2, ordered⟩
          obtain ⟨admitted', issued', past'⟩ := each record member
          exact ⟨admitted', issued', past.trans past'⟩

/-- No record of a batch in order comes after the last. -/
theorem Fit.sequence_le {batch : NativeWorkerBatch} (fit : Fit lease batch)
    (sized : batch.records.length = kNativeWorkerBatchCapacity) (sequence : Nat)
    {record : NativeWorkerObservation} (member : record ∈ batch.used) :
    record.sequence ≤ NativeWorkerTransferReceiver.lastUsed batch sequence := by
  obtain ⟨place, inside, rfl⟩ := List.getElem_of_mem member
  have within := inside
  rw [NativeWorkerBatch.used, List.length_take] at within
  have few := fit.count
  have last : batch.count - 1 < batch.used.length := by
    rw [NativeWorkerBatch.used, List.length_take]
    omega
  have same : batch.used[batch.count - 1] = batch.records.getD (batch.count - 1) {} := by
    rw [List.getD_eq_getElem _ _ (by omega)]
    exact List.getElem_take
  rw [NativeWorkerTransferReceiver.lastUsed, if_pos (bne_iff_ne.2 (by omega)), ← same]
  rcases Nat.lt_or_ge place (batch.count - 1) with before | end'
  · exact (List.pairwise_iff_getElem.1 fit.ordered _ _ inside last before).le
  · have : place = batch.count - 1 := by omega
    subst this
    exact le_rfl

namespace Gate

/-! ## What every call keeps -/

/-- The receiver is active: what it published, and what it holds. -/
structure Stands (gate : Gate) : Prop where
  greatest : gate.receiver.greatestGeneration = gate.receiver.lease.policy.generation
  published : ∀ entry ∈ gate.published,
    entry.1.policy.generation < gate.receiver.lease.policy.generation ∨
      (entry.1 = gate.receiver.lease ∧ entry.2.batchId ≤ gate.receiver.lastBatchId ∧
        (gate.receiver.pending.batchId ≠ 0 → entry.2.batchId < gate.receiver.pending.batchId) ∧
        ∀ record ∈ entry.2.used, record.sequence ≤ gate.receiver.lastSequence)
  held : gate.receiver.pending.batchId ≠ 0 →
    Fit gate.receiver.lease gate.receiver.pending ∧
      gate.receiver.pending.records.length = kNativeWorkerBatchCapacity ∧
      gate.receiver.pending.batchId = gate.receiver.lastBatchId ∧
      ∀ record ∈ gate.receiver.pending.used, gate.receiver.lastSequence < record.sequence

structure Kept (gate : Gate) : Prop where
  behind : gate.published.Pairwise Behind
  fit : ∀ entry ∈ gate.published, Fit entry.1 entry.2
  greatest : ∀ entry ∈ gate.published,
    entry.1.policy.generation ≤ gate.receiver.greatestGeneration
  stands : gate.receiver.active = true → gate.Stands

variable {receiver : NativeWorkerTransferReceiver}

/-- The receiver goes on with what it has, or is not active any more. -/
theorem Kept.goes (kept : gate.Kept)
    (greatest : receiver.greatestGeneration = gate.receiver.greatestGeneration)
    (stands : receiver.active = true → Stands { gate with receiver := receiver }) :
    Kept { gate with receiver := receiver } :=
  ⟨kept.behind, kept.fit, fun entry member => greatest ▸ kept.greatest entry member, stands⟩

theorem Kept.revoke (kept : gate.Kept) : Kept { gate with receiver := gate.receiver.revoke } :=
  kept.goes rfl fun active => absurd active Bool.false_ne_true

theorem Kept.configure (kept : gate.Kept) (authority : NativeWorkerAuthority) (nowNs : Nat)
    (lease : NativeWorkerLease) : (gate.moved authority nowNs (.configure lease)).Kept := by
  rw [moved, NativeWorkerTransferReceiver.configure]
  split
  case isTrue => exact kept
  case isFalse allowed =>
    simp only [Bool.or_eq_true, decide_eq_true_eq, not_or, Nat.not_le] at allowed
    have newer := allowed.1.2
    have earlier := fun entry member => (kept.greatest entry member).trans_lt newer
    exact ⟨kept.behind, kept.fit, fun entry member => (earlier entry member).le,
      fun _ => ⟨rfl, fun entry member => .inl (earlier entry member), absurd rfl⟩⟩

theorem Kept.request (kept : gate.Kept) (authority : NativeWorkerAuthority) (nowNs : Nat) :
    (gate.moved authority nowNs .request).Kept := by
  have asks := request_spec gate.receiver authority nowNs
  rw [moved]
  generalize gate.receiver.request authority nowNs = asked at asks ⊢
  cases asks with
  | refused status after =>
      rcases after with after | after <;> rw [after]
      · exact kept
      · exact kept.revoke
  | ready status active outstanding pending pull after =>
      rw [after]
      obtain ⟨greatest, published, held⟩ := kept.stands active
      exact kept.goes rfl fun _ => ⟨greatest, published, held⟩

/-- What `Receive` comes to. -/
inductive Receives (receiver : NativeWorkerTransferReceiver) (nowNs : Nat)
    (reply : NativeWorkerTransferReply) (after : NativeWorkerTransferReceiver) : Prop where
  | same (after : after = receiver)
  | revoked (inactive : after.active = false)
      (greatest : after.greatestGeneration = receiver.greatestGeneration)
  | answered (active : receiver.active = true)
      (after : after = { receiver with outstandingRequestId := 0 })
  | accepted (active : receiver.active = true)
      (epoch : reply.batch.epoch = workerTransferEpoch receiver.lease)
      (count : reply.batch.count ≤ kNativeWorkerBatchCapacity)
      (fresh : receiver.lastBatchId < reply.batch.batchId)
      (slots : slotsValid receiver.lease nowNs reply.batch.count receiver.lastSequence
        reply.batch.records = true)
      (after : after = { receiver with
        outstandingRequestId := 0, pending := reply.batch, lastBatchId := reply.batch.batchId })

theorem receive_spec (receiver : NativeWorkerTransferReceiver) (authority : NativeWorkerAuthority)
    (nowNs : Nat) (reply : NativeWorkerTransferReply) :
    Receives receiver nowNs reply (receiver.receive authority nowNs reply).2 := by
  rw [NativeWorkerTransferReceiver.receive]
  split
  · exact .same rfl
  next active =>
  split
  · exact .same rfl
  next asked =>
  split
  · exact .revoked rfl rfl
  split
  · exact .revoked rfl rfl
  dsimp only
  have active : receiver.active = true := by simpa using active
  split
  · split
    · exact .revoked rfl rfl
    · exact .answered active rfl
  split
  · exact .revoked rfl rfl
  split
  · exact .revoked rfl rfl
  next head =>
  split
  · exact .revoked rfl rfl
  next slots =>
  simp only [NativeWorkerTransferReceiver.headValid, Bool.not_eq_true', Bool.not_eq_false,
    Bool.and_eq_true, decide_eq_true_eq, beq_iff_eq] at head slots
  simp only [Bool.or_eq_true, bne_iff_ne, beq_iff_eq, not_or, ne_eq, not_not] at asked
  obtain ⟨⟨⟨⟨⟨⟨-, count⟩, epoch⟩, fresh⟩, -⟩, -⟩, -⟩ := head
  exact .accepted active (epoch.trans asked.1.1) count fresh slots rfl

theorem Kept.receive (kept : gate.Kept) (authority : NativeWorkerAuthority) (nowNs : Nat)
    (reply : NativeWorkerTransferReply)
    (sized : reply.batch.records.length = kNativeWorkerBatchCapacity) :
    (gate.moved authority nowNs (.receive reply)).Kept := by
  have receives := receive_spec gate.receiver authority nowNs reply
  rw [moved]
  generalize (gate.receiver.receive authority nowNs reply).2 = receiver at receives ⊢
  cases receives with
  | same after => exact after ▸ kept
  | revoked inactive greatest =>
      exact kept.goes greatest fun active => absurd (inactive.symm.trans active) Bool.false_ne_true
  | answered active after =>
      obtain ⟨greatest, published, held⟩ := kept.stands active
      exact after ▸ kept.goes rfl fun _ => ⟨greatest, published, held⟩
  | accepted active epoch count fresh slots after =>
      obtain ⟨greatest, published, -⟩ := kept.stands active
      obtain ⟨each, ordered⟩ := slotsValid_taken slots
      refine after ▸ kept.goes rfl fun _ => ⟨greatest, fun entry member => ?_, fun _ => ?_⟩
      · refine (published entry member).imp_right ?_
        rintro ⟨same, seen, _, sequences⟩
        exact ⟨same, (seen.trans_lt fresh).le, fun _ => seen.trans_lt fresh, sequences⟩
      · exact ⟨⟨epoch, count, ⟨nowNs, fun record member => ⟨(each record member).1,
          (each record member).2.1⟩⟩, ordered⟩, sized, rfl, fun record member =>
            (each record member).2.2⟩

theorem Kept.acknowledgePublished (kept : gate.Kept) (authority : NativeWorkerAuthority)
    (nowNs : Nat) (batch : NativeWorkerBatchAck) :
    (gate.moved authority nowNs (.acknowledgePublished batch)).Kept := by
  rw [moved, NativeWorkerTransferReceiver.acknowledgePublished]
  split
  · simpa using kept.revoke
  next current =>
  split
  · simpa using kept
  next named =>
  simp only [Bool.or_eq_true, Bool.not_eq_true', not_or, Bool.not_eq_false] at current
  simp only [Bool.or_eq_true, beq_iff_eq, not_or] at named
  obtain ⟨greatest, published, held⟩ := kept.stands current.1.1
  obtain ⟨fit, sized, last, above⟩ := held named.1
  dsimp only
  rw [if_pos rfl]
  refine ⟨?_, List.forall_mem_append.2 ⟨kept.fit, ?_⟩, List.forall_mem_append.2 ⟨kept.greatest, ?_⟩,
    fun _ => ⟨greatest, List.forall_mem_append.2 ⟨fun entry member => ?_, ?_⟩, absurd rfl⟩⟩
  · refine List.pairwise_append.2 ⟨kept.behind, List.pairwise_singleton _ _, ?_⟩
    intro entry member later new
    rw [List.mem_singleton.1 new]
    refine (published entry member).imp_right ?_
    rintro ⟨same, _, below, sequences⟩
    exact ⟨same, below named.1, fun record mine record' its =>
      (sequences record mine).trans_lt (above record' its)⟩
  · simpa using fit
  · simpa using greatest.ge
  · refine (published entry member).imp_right ?_
    rintro ⟨same, seen, _, sequences⟩
    refine ⟨same, seen, absurd rfl, fun record mine => (sequences record mine).trans ?_⟩
    show gate.receiver.lastSequence ≤ NativeWorkerTransferReceiver.lastUsed _ _
    by_cases none : gate.receiver.pending.count = 0
    · rw [NativeWorkerTransferReceiver.lastUsed, none]
      exact le_rfl
    · have some : gate.receiver.pending.used ≠ [] := by
        rw [NativeWorkerBatch.used, Ne, List.take_eq_nil_iff, not_or, ← List.length_eq_zero_iff,
          sized]
        exact ⟨none, by decide⟩
      obtain ⟨first, first'⟩ := List.exists_mem_of_ne_nil _ some
      exact (above first first').le.trans (fit.sequence_le sized _ first')
  · rw [List.forall_mem_singleton]
    exact .inr ⟨rfl, last.le, absurd rfl, fun record member => fit.sequence_le sized _ member⟩

theorem Kept.moved (kept : gate.Kept) (authority : NativeWorkerAuthority) (nowNs : Nat)
    {move : GateMove} (sized : move.Sized) : (gate.moved authority nowNs move).Kept := by
  cases move with
  | configure lease => exact kept.configure authority nowNs lease
  | request => exact kept.request authority nowNs
  | receive reply => exact kept.receive authority nowNs reply sized
  | pendingForPublication =>
      rw [Gate.moved, NativeWorkerTransferReceiver.pendingForPublication]
      split
      · exact kept.revoke
      · exact kept
  | acknowledgePublished batch => exact kept.acknowledgePublished authority nowNs batch
  | revoke => exact kept.revoke

theorem run_kept {moves : List (NativeWorkerAuthority × Nat × GateMove)}
    (sized : ∀ move ∈ moves, move.2.2.Sized) : (run moves).Kept := by
  refine List.foldlRecOn moves _ (motive := Kept) ?_ fun gate kept move member =>
    kept.moved move.1 move.2.1 (sized move member)
  exact ⟨List.Pairwise.nil, by simp, by simp, fun active => absurd active Bool.false_ne_true⟩

/-- Whatever the renderer answers, each batch is published behind those before it, once, and
with valid records of its lease. -/
theorem gate_publishes_once {moves : List (NativeWorkerAuthority × Nat × GateMove)}
    (sized : ∀ move ∈ moves, move.2.2.Sized) :
    (run moves).published.Pairwise Behind ∧
      ∀ entry ∈ (run moves).published, Fit entry.1 entry.2 :=
  ⟨(run_kept sized).behind, (run_kept sized).fit⟩

/-- The answer to a request is delivered twice, and its batch acknowledged after each. -/
def twiceAnswered : List (NativeWorkerAuthority × Nat × GateMove) :=
  let epoch := workerTransferEpoch granted.current
  let reply : NativeWorkerTransferReply :=
    { status := .batch, epoch, requestId := 1
      batch := { epoch, batchId := 1, acknowledgmentDeadlineNs := 500 } }
  [(granted, 100, .configure granted.current), (granted, 100, .request),
    (granted, 101, .receive reply), (granted, 102, .acknowledgePublished ⟨epoch, 1⟩),
    (granted, 103, .receive reply), (granted, 104, .acknowledgePublished ⟨epoch, 1⟩)]

theorem gate_publishes_once_answered :
    (run twiceAnswered).published.map (·.2.batchId) = [1] ∧
      (run twiceAnswered).published.Pairwise Behind :=
  ⟨by decide +kernel, (gate_publishes_once (by decide)).1⟩

end Gate

end Reb.Worker
