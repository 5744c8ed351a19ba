/-
# Worker.TransferSenderKept -- what stays true of the sender on one lease

What was taken from the queue is what the staged batches use, in the same order, and
the batches are numbered as they were staged.  The sender's counters say where each
record went.
-/
import Reb.Worker.TransferExchange

namespace Reb.Worker

set_option autoImplicit false

variable {lease : NativeWorkerLease} {queue queue' : Queue} {view : SenderView}
  {staged : List NativeWorkerBatch}

/-- The acknowledgment of so many batches: of the last of them, or none. -/
def ackOf (lease : NativeWorkerLease) (batches : Nat) : NativeWorkerBatchAck :=
  if batches = 0 then {} else ⟨workerTransferEpoch lease, batches⟩

/-- The queue before the lease. -/
structure Unleased (queue : Queue) : Prop where
  policy : queue.guarded.policy = {}
  taken : queue.guarded.taken = []

structure Leased (lease : NativeWorkerLease) (queue : Queue) : Prop where
  policy : queue.guarded.policy = lease.policy
  authorized : validPolicy lease.policy = true
  issued : lease.issuedAtNs ≤ queue.clock
  taken : ∀ taken ∈ queue.guarded.taken, taken.policy = lease.policy

/-- Every record was made under the lease, by now. -/
def Dated (lease : NativeWorkerLease) (queue : Queue) : Prop :=
  ∀ record ∈ queue.guarded.records ++ queue.guarded.taken.map (·.record),
    lease.issuedAtNs ≤ record.monotonicTimeNs ∧ record.monotonicTimeNs ≤ queue.clock

/-- A batch that the sender staged by this time. -/
structure Staged (lease : NativeWorkerLease) (clock : Nat) (batch : NativeWorkerBatch) : Prop where
  holds : ∃ records, batch.Holds records
  version : batch.version = 1 ∧ batch.reserved = 0
  epoch : batch.epoch = workerTransferEpoch lease
  deadline : ∃ nowNs ≤ clock, nowNs < lease.policy.expiresAtMonotonicNs ∧
    batch.acknowledgmentDeadlineNs = deadline lease nowNs kNativeWorkerAckTimeoutNs
  queued : batch.captureStats.queued ≤ kNativeWorkerObservationCapacity

theorem Staged.later {clock clock' : Nat} {batch : NativeWorkerBatch} (staged : Staged lease clock batch)
    (later : clock ≤ clock') : Staged lease clock' batch :=
  { staged with deadline := staged.deadline.imp fun _ made => ⟨made.1.trans later, made.2⟩ }

structure SenderKept (lease : NativeWorkerLease) (queue : Queue) (view : SenderView)
    (staged : List NativeWorkerBatch) : Prop where
  rests : queue.Resting
  dated : Dated lease queue
  phase : (Unleased queue ∧ view.lease = {} ∧ view.active = false ∧ view.lastRequestId = 0 ∧
      staged = []) ∨ (Leased lease queue ∧ view.lease = lease)
  next : view.nextBatchId = staged.length + 1
  ids : staged.map (·.batchId) = List.range' 1 staged.length
  batches : ∀ batch ∈ staged, Staged lease queue.clock batch
  pending : view.pending = {} ∨ (view.active = true ∧ staged.getLast? = some view.pending)
  acked : view.active = true → view.pending = {} → view.lastAck = ackOf lease staged.length
  once : queue.guarded.taken.map (·.record) = staged.flatMap NativeWorkerBatch.used
  counted : view.stagedRecords =
    view.acknowledgedRecords + view.pending.count + view.retiredInflightRecords
  total : view.stagedRecords = queue.guarded.taken.length

theorem validLease {nowNs : Nat} (valid : isValidNativeWorkerLease lease nowNs = true) :
    validPolicy lease.policy = true ∧ lease.issuedAtNs ≤ nowNs ∧
      nowNs < lease.policy.expiresAtMonotonicNs := by
  simp only [isValidNativeWorkerLease, validPolicy, Bool.and_eq_true, bne_iff_ne,
    decide_eq_true_eq] at valid ⊢
  have expires : lease.policy.expiresAtMonotonicNs ≠ 0 := by omega
  tauto

theorem Leased.ongoing {nowNs : Nat} (ongoing : Ongoing nowNs queue queue')
    (leased : Leased lease queue) : Leased lease queue' :=
  ⟨ongoing.policy.trans leased.policy, leased.authorized, leased.issued.trans ongoing.clock,
    fun taken member => leased.taken taken (ongoing.taken ▸ member)⟩

namespace SenderKept

theorem start : SenderKept lease {} (NativeWorkerTransferSender.view {}) [] where
  rests := ⟨.withdrawn Guarded.sound_empty rfl rfl, rfl, rfl⟩
  dated := fun _ member => absurd member List.not_mem_nil
  phase := .inl ⟨⟨rfl, rfl⟩, rfl, rfl, rfl, rfl⟩
  next := rfl
  ids := rfl
  batches := fun _ member => absurd member List.not_mem_nil
  pending := .inl rfl
  acked := fun active => absurd active Bool.false_ne_true
  once := rfl
  counted := rfl
  total := rfl

theorem active_leased (kept : SenderKept lease queue view staged) (active : view.active = true) :
    Leased lease queue ∧ view.lease = lease := by
  rcases kept.phase with ⟨-, -, inactive, -⟩ | leased
  · rw [inactive] at active
    cases active
  · exact leased

/-- No more is taken than was ever attempted, so the counters never saturate. -/
theorem bounded (kept : SenderKept lease queue view staged) : view.stagedRecords ≤ uint64Max := by
  have counted := kept.rests.kept.sound.counted
  have attempts := kept.rests.kept.sound.attempts
  have total := kept.total
  omega

theorem batchId_getElem (kept : SenderKept lease queue view staged) {index : Nat}
    (below : index < staged.length) : staged[index].batchId = index + 1 := by
  have mapped : (staged.map (·.batchId))[index]? = (List.range' 1 staged.length)[index]? := by
    rw [kept.ids]
  rw [List.getElem?_map, List.getElem?_eq_getElem below, List.getElem?_range' below] at mapped
  have same : staged[index].batchId = 1 + 1 * index := Option.some.inj mapped
  omega

theorem batchId_last (kept : SenderKept lease queue view staged) {batch : NativeWorkerBatch}
    (last : staged.getLast? = some batch) : batch.batchId = staged.length := by
  rw [List.getLast?_eq_getElem?] at last
  obtain ⟨below, same⟩ := List.getElem?_eq_some_iff.1 last
  have id := kept.batchId_getElem below
  rw [same] at id
  omega

theorem pending_iff (kept : SenderKept lease queue view staged) :
    view.pending.batchId = 0 ↔ view.pending = {} := by
  refine ⟨fun none => ?_, fun none => none ▸ rfl⟩
  rcases kept.pending with empty | ⟨-, last⟩
  · exact empty
  · have id := kept.batchId_last last
    rw [none] at id
    rw [List.length_eq_zero_iff.1 id.symm] at last
    cases last

theorem dated_later (dated : Dated lease queue) (more : List NativeWorkerObservation)
    (phase : (Unleased queue ∧ more = []) ∨ Leased lease queue) (rests : queue'.Resting)
    (clock : queue.clock ≤ queue'.clock)
    (policy : queue'.guarded.policy = queue.guarded.policy)
    (taken : queue'.guarded.taken.map (·.record) = queue.guarded.taken.map (·.record) ++ more)
    (records : ∀ record ∈ queue'.guarded.records ++ more, record ∈ queue.guarded.records ∨
      (queue.clock ≤ record.monotonicTimeNs ∧ record.monotonicTimeNs ≤ queue'.clock)) :
    Dated lease queue' := by
  intro record member
  have now : record ∈ queue'.guarded.records ++ more ∨
      record ∈ queue.guarded.taken.map (·.record) := by
    rw [taken] at member
    simp only [List.mem_append] at member ⊢
    tauto
  rcases now with new | before
  · rcases records record new with before | within
    · have old := dated record (List.mem_append_left _ before)
      exact ⟨old.1, old.2.trans clock⟩
    · rcases phase with unleased | leased
      · obtain ⟨unleased, none⟩ := unleased
        rw [none, List.append_nil] at new
        have authorized := (rests.kept.sound.queued record new).authorized
        rw [policy, unleased.policy] at authorized
        cases authorized
      · exact ⟨leased.issued.trans within.1, within.2⟩
  · have old := dated record (List.mem_append_right _ before)
    exact ⟨old.1, old.2.trans clock⟩

/-- The workers go on. -/
theorem ongoing (kept : SenderKept lease queue view staged)
    (ongoing : Ongoing queue.clock queue queue') : SenderKept lease queue' view staged where
  rests := ongoing.rests
  dated := by
    refine dated_later kept.dated [] ?_ ongoing.rests ongoing.clock ongoing.policy
      (by rw [ongoing.taken, List.append_nil]) (by simpa using ongoing.records)
    exact kept.phase.imp (fun unleased => ⟨unleased.1, rfl⟩) And.left
  phase := by
    refine kept.phase.imp (fun unleased => ⟨⟨?_, ?_⟩, unleased.2⟩)
      (fun leased => ⟨leased.1.ongoing ongoing, leased.2⟩)
    · exact ongoing.policy.trans unleased.1.policy
    · exact ongoing.taken.trans unleased.1.taken
  next := kept.next
  ids := kept.ids
  batches := fun batch member => (kept.batches batch member).later ongoing.clock
  pending := kept.pending
  acked := kept.acked
  once := ongoing.taken ▸ kept.once
  counted := kept.counted
  total := ongoing.taken ▸ kept.total

theorem closed (kept : SenderKept lease queue view staged) (active : view.active = true) :
    SenderKept lease queue view.closed staged :=
  { kept with
    phase := .inr (kept.active_leased active)
    pending := .inl rfl
    acked := fun closed => absurd closed Bool.false_ne_true
    counted := by
      have counted := kept.counted
      have bounded := kept.bounded
      show view.stagedRecords =
        view.acknowledgedRecords + 0 + increment view.retiredInflightRecords view.pending.count
      rw [increment_exact (by omega)]
      omega }

theorem requested (kept : SenderKept lease queue view staged) (active : view.active = true)
    (requestId : Nat) : SenderKept lease queue (view.requested requestId) staged :=
  { kept with phase := .inr (kept.active_leased active) }

theorem acknowledged (kept : SenderKept lease queue view staged) (active : view.active = true)
    (pending : view.pending.batchId ≠ 0) :
    SenderKept lease queue view.acknowledged staged := by
  have last : staged.getLast? = some view.pending := by
    rcases kept.pending with empty | ⟨-, last⟩
    · exact absurd (kept.pending_iff.2 empty) pending
    · exact last
  refine { kept with
    phase := .inr (kept.active_leased active)
    pending := .inl rfl
    acked := fun _ _ => ?_
    counted := ?_ }
  · have id := kept.batchId_last last
    have nonempty : staged.length ≠ 0 := id ▸ pending
    show (⟨view.pending.epoch, view.pending.batchId⟩ : NativeWorkerBatchAck) = _
    rw [ackOf, if_neg nonempty, id, (kept.batches _ (List.mem_of_getLast? last)).epoch]
  · have counted := kept.counted
    have bounded := kept.bounded
    show view.stagedRecords =
      increment view.acknowledgedRecords view.pending.count + 0 + view.retiredInflightRecords
    rw [increment_exact (by omega)]
    omega

/-- A batch is staged while none is pending. -/
theorem staged_ {nowNs : Nat} {sent : Sent} {more : List NativeWorkerObservation}
    (kept : SenderKept lease queue view staged) (active : view.active = true)
    (now : nowNs = queue.clock) (unexpired : nowNs < lease.policy.expiresAtMonotonicNs)
    (nothing : view.pending = {}) (stages : NativeWorkerTransferSender.Stages lease nowNs queue view sent more) :
    SenderKept lease sent.queue (view.staged sent.reply.batch) (staged ++ [sent.reply.batch]) := by
  obtain ⟨leased, same⟩ := kept.active_leased active
  have mapped : sent.queue.guarded.taken.map (·.record) =
      queue.guarded.taken.map (·.record) ++ more := by
    rw [stages.taken, List.map_append, List.map_map]
    exact congrArg _ (List.map_id more)
  have length : sent.queue.guarded.taken.length = queue.guarded.taken.length + more.length := by
    rw [stages.taken, List.length_append, List.length_map]
  have sound := stages.rests.kept.sound
  subst now
  constructor
  case rests => exact stages.rests
  case dated =>
    exact dated_later kept.dated more (.inr leased) stages.rests stages.clock stages.policy mapped
      stages.records
  case phase =>
    refine .inr ⟨⟨stages.policy.trans leased.policy, leased.authorized,
      leased.issued.trans stages.clock, fun taken member => ?_⟩, same⟩
    rw [stages.taken] at member
    rcases List.mem_append.1 member with before | new
    · exact leased.taken taken before
    · obtain ⟨record, -, rfl⟩ := List.mem_map.1 new
      exact leased.policy
  case next =>
    show view.nextBatchId + 1 = _
    rw [kept.next, List.length_append, List.length_singleton]
  case ids =>
    rw [List.map_append, kept.ids, List.length_append, List.length_singleton, List.range'_concat,
      List.map_singleton, stages.batchId, kept.next]
    rw [Nat.one_mul, Nat.add_comm]
  case batches =>
    intro batch member
    rcases List.mem_append.1 member with before | new
    · exact (kept.batches batch before).later stages.clock
    · rw [List.mem_singleton.1 new]
      exact ⟨⟨more, stages.holds⟩, stages.wellFormed, stages.epoch,
        ⟨_, stages.clock, unexpired, stages.deadline⟩, stages.queued⟩
  case pending => exact .inr ⟨active, List.getLast?_concat⟩
  case acked =>
    intro _ empty
    have none : sent.reply.batch = {} := empty
    have id := stages.batchId
    rw [none, kept.next] at id
    exact absurd id.symm (Nat.succ_ne_zero _)
  case once =>
    rw [mapped, kept.once, List.flatMap_append, List.flatMap_singleton, stages.holds.used]
  case counted =>
    have counted := kept.counted
    have bound := sound.counted
    have attempts := sound.attempts
    have total := kept.total
    rw [nothing] at counted
    have counted : view.stagedRecords =
      view.acknowledgedRecords + 0 + view.retiredInflightRecords := counted
    show increment view.stagedRecords sent.reply.batch.count =
      view.acknowledgedRecords + sent.reply.batch.count + view.retiredInflightRecords
    rw [stages.holds.count, increment_exact (by omega)]
    omega
  case total =>
    have bound := sound.counted
    have attempts := sound.attempts
    have total := kept.total
    show increment view.stagedRecords sent.reply.batch.count = _
    rw [stages.holds.count, increment_exact (by omega)]
    omega

/-- The records come out of the queue in the order of their sequences. -/
theorem increasing (kept : SenderKept lease queue view staged) :
    (staged.flatMap NativeWorkerBatch.used).Pairwise (·.sequence < ·.sequence) := by
  rw [← kept.once]
  rcases kept.phase with ⟨unleased, -⟩ | ⟨leased, -⟩
  · rw [unleased.taken]
    exact .nil
  · have all : queue.guarded.takenOf lease.policy.generation =
        queue.guarded.taken.map (·.record) := by
      refine List.filter_eq_self.2 fun record member => ?_
      obtain ⟨taken, also, rfl⟩ := List.mem_map.1 member
      rw [beq_iff_eq, (rests kept).kept.sound.recorded taken also |>.1.generation,
        leased.taken taken also]
    have linked := kept.rests.kept.sound.linked lease.policy.generation
    rw [all] at linked
    have chain : (queue.guarded.taken.map (·.record)).IsChain (InvImage (· < ·) (·.sequence)) := by
      refine linked.imp fun earlier later follows => ?_
      have follows : later.sequence = earlier.sequence + 1 + later.droppedBefore := follows
      show earlier.sequence < later.sequence
      omega
    exact chain.pairwise

/-- Every record that a batch uses is one of the lease's, and was made by now. -/
theorem used_recorded (kept : SenderKept lease queue view staged) {record : NativeWorkerObservation}
    (member : record ∈ staged.flatMap NativeWorkerBatch.used) :
    Recorded lease.policy record ∧ lease.issuedAtNs ≤ record.monotonicTimeNs ∧
      record.monotonicTimeNs ≤ queue.clock := by
  rw [← kept.once] at member
  refine ⟨?_, kept.dated record (List.mem_append_right _ member)⟩
  obtain ⟨taken, also, rfl⟩ := List.mem_map.1 member
  rcases kept.phase with ⟨unleased, -⟩ | ⟨leased, -⟩
  · rw [unleased.taken] at also
    cases also
  · exact leased.taken taken also ▸ (kept.rests.kept.sound.recorded taken also).1

/-! ## The calls -/

variable {sender : NativeWorkerTransferSender} {meanwhile : Meanwhile} {nowNs : Nat}

open NativeWorkerTransferSender

/-- The batches that a call has staged: the one it replies with, if it does. -/
def stagedBy (sent : Sent) : List NativeWorkerBatch :=
  if sent.reply.status == .batch then [sent.reply.batch] else []

theorem stagedBy_other {sent : Sent} (other : sent.reply.status ≠ .batch) : stagedBy sent = [] :=
  if_neg (fun same => other (beq_iff_eq.1 same))

theorem ends {sent : Sent} (kept : SenderKept lease queue view staged)
    (ends : Ends queue.clock queue view sent) (other : sent.reply.status ≠ .batch) :
    SenderKept lease sent.queue sent.sender.view (staged ++ stagedBy sent) := by
  rw [stagedBy_other other, List.append_nil, ends.view]
  exact kept.ongoing ends.ongoing

theorem fills (kept : SenderKept lease queue view staged) {sent : Sent} (active : view.active = true)
    (unexpired : queue.clock < lease.policy.expiresAtMonotonicNs) (nothing : view.pending = {})
    (fills : Fills lease queue.clock queue view sent) :
    SenderKept lease sent.queue sent.sender.view (staged ++ stagedBy sent) := by
  cases fills with
  | exhausted status ends => exact (kept.closed active).ends ends (by rw [status]; decide)
  | idle status ends =>
      exact kept.ends ends (by rcases status with status | status <;> rw [status] <;> decide)
  | staged status more stages =>
      rw [stagedBy, if_pos (beq_iff_eq.2 status), stages.after]
      exact kept.staged_ active rfl unexpired nothing stages

/-- The lease comes into force on a queue that was never configured, before any request. -/
theorem leases {reached configured : Queue} {view' : SenderView}
    (kept : SenderKept lease reached view staged) (valid : isValidNativeWorkerLease lease nowNs = true)
    (begun : nowNs ≤ reached.clock) (rests : configured.Resting)
    (clock : configured.clock = reached.clock)
    (newer : reached.guarded.greatestGeneration < lease.policy.generation)
    (guarded : configured.guarded = reached.guarded.clearLocked.configure lease.policy)
    (seen : view' = { view with
      lease, pending := {}, lastAck := {}, nextBatchId := 1, lastRequestId := 0, active := true }) :
    SenderKept lease configured view' staged ∧ view.lastRequestId = 0 := by
  rcases kept.phase with ⟨unleased, leaseless, inactive, unrequested, unstaged⟩ | ⟨leased, -⟩
  · have none : configured.guarded.taken = [] := by
      rw [guarded]
      exact unleased.taken
    obtain ⟨authorized, issued, -⟩ := validLease valid
    have pending : view.pending = {} := by
      rcases kept.pending with empty | ⟨active, -⟩
      · exact empty
      · rw [inactive] at active
        cases active
    have records : configured.guarded.records = [] := by
      rw [guarded]
      rfl
    have policy : configured.guarded.policy = lease.policy := by
      rw [guarded]
      rfl
    subst seen unstaged
    refine ⟨?_, unrequested⟩
    constructor
    case rests => exact rests
    case dated =>
      intro record member
      rw [records, none] at member
      cases member
    case phase =>
      refine .inr ⟨⟨policy, authorized, ?_, fun taken member => ?_⟩, rfl⟩
      · rw [clock]
        exact issued.trans begun
      · rw [none] at member
        cases member
    case next => rfl
    case ids => rfl
    case batches => exact fun _ member => absurd member List.not_mem_nil
    case pending => exact .inl rfl
    case acked => exact fun _ _ => rfl
    case once =>
      rw [none]
      rfl
    case counted => exact pending ▸ kept.counted
    case total =>
      have total := kept.total
      rw [unleased.taken] at total
      rw [none]
      exact total
  · have greatest := kept.rests.kept.sound.greatest
    rw [leased.policy] at greatest
    omega

theorem configure (kept : SenderKept lease queue sender.view staged) (meanwhile : Meanwhile) :
    let configured := sender.configure meanwhile queue lease queue.clock
    SenderKept lease configured.2.2 configured.2.1.view staged ∧
      configured.2.1.lastRequestId = sender.lastRequestId ∧
      queue.clock ≤ configured.2.2.clock := by
  intro configured
  have first := Ongoing.work meanwhile kept.rests (Nat.le_refl queue.clock) 0
  have second := first.trans (.work meanwhile first.rests first.clock 1)
  have third := second.trans (.work meanwhile second.rests second.clock 2)
  rw [show configured = sender.configure meanwhile queue lease queue.clock from rfl,
    NativeWorkerTransferSender.configure]
  dsimp only
  split
  · exact ⟨kept.ongoing second, rfl, second.clock⟩
  split
  · exact ⟨kept.ongoing second, rfl, second.clock⟩
  next valid =>
  obtain ⟨rests, outcome⟩ := called_configured lease.policy queue.clock false third.rests
  generalize QueueMemory.called (meanwhile.work 2 (meanwhile.work 1 (meanwhile.work 0 queue)))
    (.configure lease.policy) queue.clock = asked at rests outcome ⊢
  rcases outcome with ⟨accepted, clock, newer, guarded⟩ | ⟨refused, onward⟩
  · rw [accepted, if_neg (by decide)]
    obtain ⟨leased, unrequested⟩ := (kept.ongoing third).leases (by simpa using valid) third.clock
      rests clock newer guarded rfl
    have fourth := Ongoing.work meanwhile leased.rests (Nat.le_refl asked.1.clock) 3
    exact ⟨leased.ongoing fourth, unrequested.symm, third.clock.trans (clock.ge.trans fourth.clock)⟩
  · rw [if_pos (bne_iff_ne.2 refused)]
    have refusal : Ongoing queue.clock queue asked.1 := by
      refine third.trans ⟨rests, onward.clock.ge, onward.policy, onward.taken, ?_⟩
      intro record queued
      refine (onward.records record queued).imp_right fun now => ⟨now.ge, ?_⟩
      rw [now, onward.clock]
      exact third.clock
    exact ⟨kept.ongoing refusal, rfl, refusal.clock⟩

end SenderKept

end Reb.Worker
