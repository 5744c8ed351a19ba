/-
# Worker.TransferSender -- what a call of the sender does

While a call runs the workers go on, so the queue moves on by itself (`Ongoing`); what
the sender takes from it goes into the batch it builds, record by record (`drain_spec`).
-/
import Reb.Worker.NativeWorkerTransfer

namespace Reb.Worker

set_option autoImplicit false

variable {queue queue' queue'' : Queue} {nowNs : Nat} {meanwhile : Meanwhile}

/-! ## The queue in the meantime -/

/-- Nothing is taken, and what is recorded is recorded from this time on. -/
structure Ongoing (nowNs : Nat) (queue queue' : Queue) : Prop where
  rests : queue'.Resting
  clock : queue.clock ≤ queue'.clock
  policy : queue'.guarded.policy = queue.guarded.policy
  taken : queue'.guarded.taken = queue.guarded.taken
  records : ∀ record ∈ queue'.guarded.records, record ∈ queue.guarded.records ∨
    (nowNs ≤ record.monotonicTimeNs ∧ record.monotonicTimeNs ≤ queue'.clock)

theorem Ongoing.refl (rests : queue.Resting) : Ongoing nowNs queue queue :=
  ⟨rests, Nat.le_refl _, rfl, rfl, fun _ => .inl⟩

theorem Ongoing.trans (first : Ongoing nowNs queue queue') (second : Ongoing nowNs queue' queue'') :
    Ongoing nowNs queue queue'' where
  rests := second.rests
  clock := first.clock.trans second.clock
  policy := second.policy.trans first.policy
  taken := second.taken.trans first.taken
  records := fun record queued => by
    rcases second.records record queued with before | now
    · exact (first.records record before).imp_right fun now => ⟨now.1, now.2.trans second.clock⟩
    · exact .inr now

theorem Resting.elapse (rests : queue.Resting) (elapsed : Nat) : (queue.elapse elapsed).Resting :=
  ⟨rests.kept.along rfl ⟨rfl, rfl, rfl⟩ rfl (.inl rfl), rests.locked, rests.controllers⟩

theorem Ongoing.elapse (rests : queue.Resting) (elapsed : Nat) :
    Ongoing nowNs queue (queue.elapse elapsed) :=
  ⟨Resting.elapse rests elapsed, Nat.le_add_right _ _, rfl, rfl, fun _ => .inl⟩

/-- A call other than `Configure` and `Take`, given a time that has come. -/
theorem Ongoing.called {call : QueueCall} {calledNs : Nat} {fails : Bool} (rests : queue.Resting)
    (other : call.apart = true) (from_ : nowNs ≤ calledNs) (past : calledNs ≤ queue.clock) :
    Ongoing nowNs queue (queue.called call calledNs fails).1 := by
  obtain ⟨rests', onward⟩ := called_onward calledNs fails rests other
  refine ⟨rests', onward.clock.ge, onward.policy, onward.taken, fun record queued => ?_⟩
  refine (onward.records record queued).imp_right fun now => ?_
  rw [now, onward.clock]
  exact ⟨from_, past⟩

theorem QueueCall.worker_apart {call : QueueCall} (worker : call.worker = true) :
    call.apart = true := by
  cases call <;> first | rfl | cases worker

theorem Ongoing.worked (rests : queue.Resting) (past : nowNs ≤ queue.clock) (worker : WorkerCall) :
    Ongoing nowNs queue (queue.worked worker) := by
  have later : Ongoing nowNs queue _ := .elapse rests worker.elapsed
  rw [QueueMemory.worked]
  split
  case isTrue works =>
    exact later.trans
      (.called later.rests (QueueCall.worker_apart works) (past.trans later.clock) (Nat.le_refl _))
  case isFalse => exact later

theorem Ongoing.work (meanwhile : Meanwhile) (rests : queue.Resting)
    (past : nowNs ≤ queue.clock) (access : Nat) :
    Ongoing nowNs queue (meanwhile.work access queue) := by
  rw [Meanwhile.work]
  induction meanwhile.before access generalizing queue with
  | nil => exact .refl rests
  | cons worker rest ih =>
      have first := Ongoing.worked rests past worker
      exact first.trans (ih first.rests (past.trans first.clock))

theorem Ongoing.disabled (rests : queue.Resting) (past : nowNs ≤ queue.clock) :
    Ongoing nowNs queue (queue.called .disable queue.clock).1 :=
  .called rests rfl past (Nat.le_refl _)

/-! ## Batches -/

/-- The batch uses its first slots for these records and leaves the others empty. -/
structure NativeWorkerBatch.Holds (batch : NativeWorkerBatch)
    (records : List NativeWorkerObservation) : Prop where
  slots : batch.records =
    records ++ List.replicate (kNativeWorkerBatchCapacity - records.length)
      ({} : NativeWorkerObservation)
  count : batch.count = records.length
  fits : records.length ≤ kNativeWorkerBatchCapacity

/-- The records that a batch uses slots for. -/
def NativeWorkerBatch.used (batch : NativeWorkerBatch) : List NativeWorkerObservation :=
  batch.records.take batch.count

namespace NativeWorkerBatch

variable {batch : NativeWorkerBatch} {records : List NativeWorkerObservation}
  {record : NativeWorkerObservation}

theorem Holds.used (holds : batch.Holds records) : batch.used = records := by
  rw [NativeWorkerBatch.used, holds.slots, holds.count, List.take_left]

theorem holds_empty (epoch : NativeWorkerTransferEpoch) : Holds { epoch } [] :=
  ⟨rfl, rfl, Nat.zero_le _⟩

theorem Holds.put (holds : batch.Holds records) (record : NativeWorkerObservation)
    (room : records.length < kNativeWorkerBatchCapacity) :
    (batch.put record).Holds (records ++ [record]) := by
  refine ⟨?_, ?_, ?_⟩
  · obtain ⟨left, more⟩ : ∃ left, kNativeWorkerBatchCapacity - records.length = left + 1 :=
      ⟨_, (Nat.sub_add_cancel (Nat.sub_pos_of_lt room)).symm⟩
    show batch.records.set batch.count record = _
    rw [holds.slots, holds.count, List.set_append_right _ _ (Nat.le_refl _), Nat.sub_self, more,
      List.replicate_succ, List.set_cons_zero, List.length_append, List.length_singleton,
      Nat.sub_add_eq, more, Nat.add_sub_cancel, List.append_cons]
  · show batch.count + 1 = _
    rw [holds.count, List.length_append, List.length_singleton]
  · rw [List.length_append]
    exact room

end NativeWorkerBatch

/-! ## Draining -/

/-- The records that are taken go into the batch, in their order. -/
structure Drains (nowNs : Nat) (queue : Queue) (batch : NativeWorkerBatch)
    (drained : Queue × NativeWorkerBatch × Bool) (more : List NativeWorkerObservation) : Prop where
  rests : drained.1.Resting
  clock : queue.clock ≤ drained.1.clock
  policy : drained.1.guarded.policy = queue.guarded.policy
  taken : drained.1.guarded.taken =
    queue.guarded.taken ++ more.map fun record => ⟨record, nowNs, queue.guarded.policy⟩
  records : ∀ record ∈ drained.1.guarded.records ++ more, record ∈ queue.guarded.records ∨
    (nowNs ≤ record.monotonicTimeNs ∧ record.monotonicTimeNs ≤ drained.1.clock)
  epoch : drained.2.1.epoch = batch.epoch
  version : drained.2.1.version = batch.version ∧ drained.2.1.reserved = batch.reserved

theorem Ongoing.drains {batch : NativeWorkerBatch} {busy : Bool} (ongoing : Ongoing nowNs queue queue') :
    Drains nowNs queue batch (queue', batch, busy) [] :=
  ⟨ongoing.rests, ongoing.clock, ongoing.policy, by simpa using ongoing.taken,
    by simpa using ongoing.records, rfl, rfl, rfl⟩

theorem Drains.after {batch : NativeWorkerBatch} {drained : Queue × NativeWorkerBatch × Bool}
    {more : List NativeWorkerObservation} (ongoing : Ongoing nowNs queue queue')
    (drains : Drains nowNs queue' batch drained more) : Drains nowNs queue batch drained more where
  rests := drains.rests
  clock := ongoing.clock.trans drains.clock
  policy := drains.policy.trans ongoing.policy
  taken := by rw [drains.taken, ongoing.taken, ongoing.policy]
  records := fun record member => by
    rcases drains.records record member with before | now
    · exact (ongoing.records record before).imp_right fun now => ⟨now.1, now.2.trans drains.clock⟩
    · exact .inr now
  epoch := drains.epoch
  version := drains.version

theorem drain_spec (meanwhile : Meanwhile) (slots : Nat) {batch : NativeWorkerBatch}
    {records : List NativeWorkerObservation} (rests : queue.Resting) (past : nowNs ≤ queue.clock)
    (holds : batch.Holds records) (room : records.length + slots ≤ kNativeWorkerBatchCapacity) :
    ∃ more, Drains nowNs queue batch
        (NativeWorkerTransferSender.drain meanwhile nowNs slots queue batch) more ∧
      (NativeWorkerTransferSender.drain meanwhile nowNs slots queue batch).2.1.Holds
        (records ++ more) := by
  induction slots generalizing queue batch records with
  | zero => exact ⟨[], (Ongoing.refl rests).drains, (List.append_nil records).symm ▸ holds⟩
  | succ slots ih =>
      rw [NativeWorkerTransferSender.drain]
      generalize 1 + kNativeWorkerBatchCapacity - slots = access
      have worked := Ongoing.work meanwhile rests past access
      generalize meanwhile.work access queue = reached at worked ⊢
      obtain ⟨rests', took⟩ :=
        called_took nowNs (meanwhile.fails access) worked.rests
      generalize reached.called .take nowNs (meanwhile.fails access) = taken at rests' took ⊢
      rcases took with ⟨accepted, unexpired, clock, rest, front, guarded⟩ | ⟨refused, onward⟩
      · rw [accepted, if_neg (by decide)]
        have reaches : queue.clock ≤ taken.1.clock := worked.clock.trans clock.ge
        have put := holds.put taken.2.record (by omega)
        obtain ⟨more, drains, full⟩ := ih rests' (past.trans reaches) put (by
          rw [List.length_append, List.length_singleton]
          omega)
        have policy : taken.1.guarded.policy = queue.guarded.policy := by
          rw [guarded]
          exact worked.policy
        refine ⟨taken.2.record :: more, ⟨drains.rests, reaches.trans drains.clock,
          drains.policy.trans policy, ?_, ?_, drains.epoch, drains.version⟩, ?_⟩
        · rw [drains.taken, policy, guarded]
          simp [Guarded.take, worked.taken, worked.policy]
        · intro record member
          have from_ : record ∈ reached.guarded.records ∨
              (nowNs ≤ record.monotonicTimeNs ∧
                record.monotonicTimeNs ≤
                  (NativeWorkerTransferSender.drain meanwhile nowNs slots taken.1
                    (batch.put taken.2.record)).1.clock) := by
            rcases List.mem_append.1 member with queued | new
            · refine (drains.records record (List.mem_append_left _ queued)).imp_left fun before => ?_
              rw [guarded] at before
              rw [front]
              exact List.mem_cons_of_mem _ before
            · rcases List.mem_cons.1 new with rfl | later
              · exact .inl (front ▸ List.mem_cons_self)
              · refine (drains.records record (List.mem_append_right _ later)).imp_left fun before => ?_
                rw [guarded] at before
                rw [front]
                exact List.mem_cons_of_mem _ before
          rcases from_ with before | now
          · refine (worked.records record before).imp_right fun now => ⟨now.1, now.2.trans ?_⟩
            exact clock.ge.trans drains.clock
          · exact .inr now
        · rw [List.append_cons]
          exact full
      · rw [if_pos (bne_iff_ne.2 refused)]
        have refusal : Ongoing nowNs reached taken.1 :=
          ⟨rests', onward.clock.ge, onward.policy, onward.taken, fun record queued =>
            (onward.records record queued).imp_right fun now => ⟨now.ge, by
              rw [now, onward.clock]
              exact past.trans worked.clock⟩⟩
        exact ⟨[], (worked.trans refusal).drains, (List.append_nil records).symm ▸ holds⟩

/-! ## The calls -/

/-- What of the sender bears on the exchange. -/
structure SenderView where
  lease : NativeWorkerLease
  pending : NativeWorkerBatch
  lastAck : NativeWorkerBatchAck
  nextBatchId : Nat
  lastRequestId : Nat
  active : Bool
  stagedRecords : Nat
  acknowledgedRecords : Nat
  retiredInflightRecords : Nat

namespace SenderView

variable (view : SenderView)

def closed : SenderView :=
  { view with
    retiredInflightRecords := increment view.retiredInflightRecords view.pending.count
    pending := {}
    active := false }

def requested (requestId : Nat) : SenderView := { view with lastRequestId := requestId }

/-- The pending batch is acknowledged. -/
def acknowledged : SenderView :=
  { view with
    lastAck := ⟨view.pending.epoch, view.pending.batchId⟩
    acknowledgedRecords := increment view.acknowledgedRecords view.pending.count
    pending := {} }

def staged (batch : NativeWorkerBatch) : SenderView :=
  { view with
    nextBatchId := view.nextBatchId + 1
    pending := batch
    stagedRecords := increment view.stagedRecords batch.count }

end SenderView

namespace NativeWorkerTransferSender

def view (sender : NativeWorkerTransferSender) : SenderView :=
  ⟨sender.lease, sender.pending, sender.lastAck, sender.nextBatchId, sender.lastRequestId,
    sender.active, sender.stats.stagedRecords, sender.stats.acknowledgedRecords,
    sender.stats.retiredInflightRecords⟩

variable {sender : NativeWorkerTransferSender} {request : NativeWorkerPull}

/-- A call that ends with the sender as seen, while the queue moves on by itself. -/
structure Ends (nowNs : Nat) (queue : Queue) (view : SenderView) (sent : Sent) : Prop where
  view : sent.sender.view = view
  ongoing : Ongoing nowNs queue sent.queue

/-- A reply answers under the lease and repeats what is pending. -/
structure Answers (sender : NativeWorkerTransferSender) (requestId : Nat) (sent : Sent) : Prop where
  epoch : sent.reply.epoch = workerTransferEpoch sender.lease
  requestId : sent.reply.requestId = requestId
  batch : sent.reply.batch = sent.sender.pending

theorem reply_answers (status : NativeWorkerTransferStatus) (requestId access : Nat) :
    Answers sender requestId (sender.reply meanwhile queue status requestId access) :=
  ⟨rfl, rfl, rfl⟩

theorem reply_ends {view : SenderView} (seen : sender.view = view) (rests : queue.Resting)
    (past : nowNs ≤ queue.clock) (status : NativeWorkerTransferStatus) (requestId access : Nat) :
    Ends nowNs queue view (sender.reply meanwhile queue status requestId access) :=
  ⟨seen, .work meanwhile rests past access⟩

theorem close_ends {view : SenderView} (seen : sender.view = view) (rests : queue.Resting)
    (past : nowNs ≤ queue.clock) (reason : NativeWorkerTransferStatus) (requestId access : Nat) :
    Ends nowNs queue view.closed (sender.close meanwhile queue reason requestId access) := by
  subst seen
  have worked := Ongoing.work meanwhile rests past access
  have disabled := worked.trans (.disabled worked.rests (past.trans worked.clock))
  exact ⟨rfl, disabled.trans (.work meanwhile disabled.rests (past.trans disabled.clock) (access + 1))⟩

/-- What `Tick` comes to. -/
inductive Ticks (sender : NativeWorkerTransferSender) (nowNs : Nat) (queue : Queue) (sent : Sent) :
    Prop where
  | idle (status : sent.reply.status = .idle) (same : sent.sender = sender)
      (active : sender.active = true) (begun : sender.lease.issuedAtNs ≤ nowNs)
      (unexpired : nowNs < sender.lease.policy.expiresAtMonotonicNs)
      (ends : Ends nowNs queue sender.view sent)
  | disabled (status : sent.reply.status = .disabled) (inactive : sender.active = false)
      (ends : Ends nowNs queue sender.view sent)
  | closed (status : sent.reply.status = .expired ∨ sent.reply.status = .timedOut)
      (active : sender.active = true) (ends : Ends nowNs queue sender.view.closed sent)

theorem tick_spec (meanwhile : Meanwhile) (sender : NativeWorkerTransferSender)
    (rests : queue.Resting) (past : nowNs ≤ queue.clock) (requestId : Nat) :
    Ticks sender nowNs queue (sender.tick meanwhile queue nowNs requestId) ∧
      Answers sender requestId (sender.tick meanwhile queue nowNs requestId) := by
  rw [tick]
  split
  case isTrue inactive =>
    exact ⟨.disabled rfl (by simpa using inactive) (reply_ends (by rfl) rests past ..), reply_answers ..⟩
  case isFalse active =>
  have active : sender.active = true := by simpa using active
  split
  · exact ⟨.closed (.inl rfl) active (close_ends rfl rests past ..), ⟨rfl, rfl, rfl⟩⟩
  next within =>
  split
  · exact ⟨.closed (.inr rfl) active (close_ends (by rfl) rests past ..), ⟨rfl, rfl, rfl⟩⟩
  · simp only [Bool.or_eq_true, decide_eq_true_eq, not_or, Nat.not_lt, Nat.not_le] at within
    exact ⟨.idle rfl rfl active within.1 within.2 (reply_ends (by rfl) rests past ..), reply_answers ..⟩

/-- `Revoke` leaves the sender alone or closes it, and says so under no request. -/
theorem revoke_spec (meanwhile : Meanwhile) (sender : NativeWorkerTransferSender)
    (rests : queue.Resting) (past : nowNs ≤ queue.clock) (epoch : NativeWorkerTransferEpoch)
    (reason : NativeWorkerTransferStatus) :
    let sent := sender.revoke meanwhile queue epoch reason
    (Ends nowNs queue sender.view sent ∨
        (sender.active = true ∧ Ends nowNs queue sender.view.closed sent)) ∧
      sent.reply.status ≠ .batch ∧ sent.reply.requestId = 0 := by
  dsimp only
  rw [revoke]
  split
  · exact ⟨.inl (reply_ends (by rfl) rests past ..), by rintro ⟨⟩, rfl⟩
  split
  · exact ⟨.inl (reply_ends (by rfl) rests past ..), by rintro ⟨⟩, rfl⟩
  next named =>
  split
  case isTrue active =>
    refine ⟨.inr ⟨active, close_ends rfl rests past ..⟩, ?_, rfl⟩
    show reason ≠ .batch
    rintro rfl
    exact named rfl
  case isFalse => exact ⟨.inl (reply_ends (by rfl) rests past ..), by rintro ⟨⟩, rfl⟩

/-- What an acknowledgment comes to. -/
inductive Acknowledges (sender : NativeWorkerTransferSender) (ack : NativeWorkerBatchAck)
    (result : Option NativeWorkerTransferStatus × NativeWorkerTransferSender) : Prop where
  | exact (accepted : result.1 = none) (pending : sender.pending.batchId ≠ 0)
      (names : ack = ⟨sender.pending.epoch, sender.pending.batchId⟩)
      (view : result.2.view = sender.view.acknowledged)
  | repeated (accepted : result.1 = none) (pending : sender.pending.batchId = 0)
      (view : result.2.view = sender.view)
  | refused (status : result.1 = some .awaitingAcknowledgment ∨
        result.1 = some .invalidAcknowledgment)
      (differs : sender.pending.batchId ≠ 0 →
        ack ≠ ⟨sender.pending.epoch, sender.pending.batchId⟩)
      (unlike : sender.pending.batchId = 0 → ack ≠ sender.lastAck)
      (view : result.2.view = sender.view)

theorem acknowledge_spec (sender : NativeWorkerTransferSender) (ack : NativeWorkerBatchAck) :
    Acknowledges sender ack (sender.acknowledge ack) := by
  rw [acknowledge]
  split
  case isTrue pending =>
    have pending : sender.pending.batchId ≠ 0 := bne_iff_ne.1 pending
    split
    case isTrue isEmpty =>
      refine .refused (.inl rfl) (fun _ same => pending ?_) (absurd · pending) rfl
      rw [beq_iff_eq.1 isEmpty] at same
      exact (congrArg NativeWorkerBatchAck.batchId same).symm
    case isFalse =>
      split
      case isTrue differs =>
        exact .refused (.inr rfl) (fun _ => bne_iff_ne.1 differs) (absurd · pending) rfl
      case isFalse names =>
        have names : ack = ⟨sender.pending.epoch, sender.pending.batchId⟩ := by simpa using names
        refine .exact rfl pending names ?_
        rw [names]
        rfl
  case isFalse none =>
    have none : sender.pending.batchId = 0 := by simpa using none
    split
    case isTrue unlike =>
      refine .refused (.inr rfl) (absurd none) (fun _ same => ?_) rfl
      rw [Bool.or_eq_true, Bool.and_eq_true, Bool.and_eq_true] at unlike
      rcases unlike with ⟨-, differs⟩ | ⟨isEmpty, was⟩
      · exact bne_iff_ne.1 differs same
      · have none := same.symm.trans (beq_iff_eq.1 isEmpty)
        exact bne_iff_ne.1 was (congrArg NativeWorkerBatchAck.batchId none)
    case isFalse => exact .repeated rfl none rfl

/-- What was staged: the records that were taken, under the next batch id. -/
structure Stages (lease : NativeWorkerLease) (nowNs : Nat) (queue : Queue)
    (view : SenderView) (sent : Sent) (more : List NativeWorkerObservation) : Prop where
  after : sent.sender.view = view.staged sent.reply.batch
  holds : sent.reply.batch.Holds more
  rests : sent.queue.Resting
  clock : queue.clock ≤ sent.queue.clock
  policy : sent.queue.guarded.policy = queue.guarded.policy
  taken : sent.queue.guarded.taken =
    queue.guarded.taken ++ more.map fun record => ⟨record, nowNs, queue.guarded.policy⟩
  records : ∀ record ∈ sent.queue.guarded.records ++ more, record ∈ queue.guarded.records ∨
    (nowNs ≤ record.monotonicTimeNs ∧ record.monotonicTimeNs ≤ sent.queue.clock)
  wellFormed : sent.reply.batch.version = 1 ∧ sent.reply.batch.reserved = 0
  epoch : sent.reply.batch.epoch = workerTransferEpoch lease
  batchId : sent.reply.batch.batchId = view.nextBatchId
  deadline : sent.reply.batch.acknowledgmentDeadlineNs =
    deadline lease nowNs kNativeWorkerAckTimeoutNs
  queued : sent.reply.batch.captureStats.queued ≤ kNativeWorkerObservationCapacity

/-- What is left of a pull once it is accepted, with nothing pending. -/
inductive Fills (lease : NativeWorkerLease) (nowNs : Nat) (queue : Queue)
    (view : SenderView) (sent : Sent) : Prop where
  | exhausted (status : sent.reply.status = .sequenceExhausted)
      (ends : Ends nowNs queue view.closed sent)
  | idle (status : sent.reply.status = .idle ∨ sent.reply.status = .busy)
      (ends : Ends nowNs queue view sent)
  | staged (status : sent.reply.status = .batch) (more : List NativeWorkerObservation)
      (stages : Stages lease nowNs queue view sent more)

/-- What `Pull` comes to. -/
inductive Pulls (sender : NativeWorkerTransferSender) (request : NativeWorkerPull) (nowNs : Nat)
    (queue : Queue) (sent : Sent) : Prop where
  | stale (status : sent.reply.status = .staleEpoch)
      (differs : request.epoch ≠ workerTransferEpoch sender.lease)
      (ends : Ends nowNs queue sender.view sent)
  | disabled (status : sent.reply.status = .disabled) (inactive : sender.active = false)
      (ends : Ends nowNs queue sender.view sent)
  | closed (status : sent.reply.status = .expired ∨ sent.reply.status = .timedOut)
      (active : sender.active = true) (ends : Ends nowNs queue sender.view.closed sent)
  | replayed (status : sent.reply.status = .invalid) (active : sender.active = true)
      (old : request.requestId = 0 ∨ request.requestId ≤ sender.lastRequestId)
      (ends : Ends nowNs queue sender.view sent)
  | refused (status : sent.reply.status = .awaitingAcknowledgment ∨
        sent.reply.status = .invalidAcknowledgment)
      (active : sender.active = true) (fresh : sender.lastRequestId < request.requestId)
      (differs : sender.pending.batchId ≠ 0 →
        request.acknowledged ≠ ⟨sender.pending.epoch, sender.pending.batchId⟩)
      (unlike : sender.pending.batchId = 0 → request.acknowledged ≠ sender.lastAck)
      (ends : Ends nowNs queue (sender.view.requested request.requestId) sent)
  | repeated (active : sender.active = true) (fresh : sender.lastRequestId < request.requestId)
      (unexpired : nowNs < sender.lease.policy.expiresAtMonotonicNs)
      (pending : sender.pending.batchId = 0)
      (fills : Fills sender.lease nowNs queue (sender.view.requested request.requestId) sent)
  | acknowledged (active : sender.active = true)
      (fresh : sender.lastRequestId < request.requestId)
      (unexpired : nowNs < sender.lease.policy.expiresAtMonotonicNs)
      (pending : sender.pending.batchId ≠ 0)
      (names : request.acknowledged = ⟨sender.pending.epoch, sender.pending.batchId⟩)
      (fills : Fills sender.lease nowNs queue (sender.view.requested request.requestId).acknowledged sent)

theorem stage_fills {drained : Queue × NativeWorkerBatch × Bool}
    {more : List NativeWorkerObservation} (past : nowNs ≤ queue.clock)
    (drains : Drains nowNs queue { epoch := workerTransferEpoch sender.lease } drained more)
    (holds : drained.2.1.Holds more) (requestId : Nat) :
    Fills sender.lease nowNs queue sender.view
      (sender.stage meanwhile drained.1 drained.2.1 drained.2.2 nowNs requestId) := by
  have reaches := past.trans drains.clock
  rw [stage]
  generalize counted : meanwhile.work 18 drained.1 = countedAt
  have first : Ongoing nowNs drained.1 countedAt := counted ▸ .work meanwhile drains.rests reaches 18
  generalize enabled : meanwhile.work 19 countedAt = enabledAt
  have second : Ongoing nowNs countedAt enabledAt :=
    enabled ▸ .work meanwhile first.rests (reaches.trans first.clock) 19
  have third : Ongoing nowNs enabledAt (meanwhile.work 20 enabledAt) :=
    .work meanwhile second.rests (reaches.trans (first.clock.trans second.clock)) 20
  have ongoing := first.trans (second.trans third)
  dsimp only
  split
  case isTrue nothing =>
    have none : more = [] := by
      rw [Bool.and_eq_true, Bool.and_eq_true, beq_iff_eq, holds.count] at nothing
      exact List.length_eq_zero_iff.1 nothing.1.1
    subst none
    refine .idle ?_ ⟨rfl, ?_⟩
    · show (if drained.2.2 then NativeWorkerTransferStatus.busy else .idle) = .idle ∨ _
      cases drained.2.2 with
      | true => exact .inr rfl
      | false => exact .inl rfl
    · have before : Ongoing nowNs queue drained.1 :=
        ⟨drains.rests, drains.clock, drains.policy, by simpa using drains.taken,
          by simpa using drains.records⟩
      exact before.trans ongoing
  case isFalse =>
    refine .staged rfl more ⟨rfl, ⟨holds.slots, holds.count, holds.fits⟩, third.rests,
      drains.clock.trans ongoing.clock, ongoing.policy.trans drains.policy,
      ongoing.taken.trans drains.taken, fun record member => ?_, drains.version, drains.epoch, rfl,
      rfl, first.rests.kept.sound.fits⟩
    rcases List.mem_append.1 member with queued | new
    · rcases ongoing.records record queued with before | now
      · exact (drains.records record (List.mem_append_left _ before)).imp_right
          fun now => ⟨now.1, now.2.trans ongoing.clock⟩
      · exact .inr now
    · exact (drains.records record (List.mem_append_right _ new)).imp_right
        fun now => ⟨now.1, now.2.trans ongoing.clock⟩

theorem Ends.after {later : Queue} {view : SenderView} {sent : Sent}
    (ongoing : Ongoing nowNs queue later) (ends : Ends nowNs later view sent) :
    Ends nowNs queue view sent :=
  ⟨ends.view, ongoing.trans ends.ongoing⟩

/-- The rest of a pull that was accepted. -/
theorem fill_spec {later : Queue} {view : SenderView} (seen : sender.view = view)
    (ongoing : Ongoing nowNs queue later) (past : nowNs ≤ queue.clock) (requestId : Nat) :
    Fills view.lease nowNs queue view
      (if sender.nextBatchId == uint64Max then
        sender.close meanwhile later .sequenceExhausted requestId 1
      else
        let drained := drain meanwhile nowNs kNativeWorkerBatchCapacity later
          { epoch := workerTransferEpoch sender.lease }
        sender.stage meanwhile drained.1 drained.2.1 drained.2.2 nowNs requestId) := by
  subst seen
  have past' := past.trans ongoing.clock
  split
  · exact .exhausted rfl ((close_ends rfl ongoing.rests past' ..).after ongoing)
  · obtain ⟨more, drains, holds⟩ := drain_spec meanwhile kNativeWorkerBatchCapacity ongoing.rests
      past' (NativeWorkerBatch.holds_empty (workerTransferEpoch sender.lease)) (by decide)
    exact stage_fills past (drains.after ongoing) holds requestId

theorem pull_spec (meanwhile : Meanwhile) (sender : NativeWorkerTransferSender)
    (request : NativeWorkerPull) (rests : queue.Resting) (past : nowNs ≤ queue.clock) :
    Pulls sender request nowNs queue (sender.pull meanwhile queue request nowNs) := by
  rw [pull]
  split
  case isTrue differs => exact .stale rfl (bne_iff_ne.1 differs) (reply_ends (by rfl) rests past ..)
  case isFalse =>
  have ticks := (tick_spec meanwhile sender rests past request.requestId).1
  generalize sender.tick meanwhile queue nowNs request.requestId = ticked at ticks ⊢
  cases ticks with
  | disabled status inactive ends =>
      rw [if_pos (by rw [status]; decide)]
      exact .disabled status inactive ends
  | closed status active ends =>
      rw [if_pos (by rcases status with status | status <;> rw [status] <;> decide)]
      exact .closed status active ends
  | idle status same active begun unexpired ends =>
      rw [if_neg (by rw [status]; decide)]
      obtain ⟨reply, ticker, later⟩ := ticked
      obtain rfl : ticker = sender := same
      have ongoing : Ongoing nowNs queue later := ends.ongoing
      have past' := past.trans ongoing.clock
      dsimp only
      split
      case isTrue old =>
        exact .replayed rfl active (by simpa using old)
          ((reply_ends (by rfl) ongoing.rests past' ..).after ongoing)
      case isFalse fresh =>
        have fresh : ticker.lastRequestId < request.requestId := by
          simp only [Bool.or_eq_true, decide_eq_true_eq, not_or, Nat.not_le] at fresh
          exact fresh.2
        have acks := acknowledge_spec { ticker with lastRequestId := request.requestId }
          request.acknowledged
        generalize acknowledge { ticker with lastRequestId := request.requestId }
          request.acknowledged = result at acks ⊢
        obtain ⟨refused, after⟩ := result
        cases acks with
        | refused status differs unlike view =>
            rcases status with rfl | rfl
            · exact .refused (.inl rfl) active fresh differs unlike
                ((reply_ends view ongoing.rests past' ..).after ongoing)
            · exact .refused (.inr rfl) active fresh differs unlike
                ((reply_ends view ongoing.rests past' ..).after ongoing)
        | repeated accepted pending view =>
            obtain rfl : refused = none := accepted
            exact .repeated active fresh unexpired pending (fill_spec view ongoing past _)
        | exact accepted pending names view =>
            obtain rfl : refused = none := accepted
            exact .acknowledged active fresh unexpired pending names (fill_spec view ongoing past _)

theorem Ticks.lease {sent : Sent} (ticks : Ticks sender nowNs queue sent) :
    sent.sender.lease = sender.lease := by
  cases ticks with
  | idle _ same => rw [same]
  | disabled _ _ ends | closed _ _ ends => exact congrArg SenderView.lease ends.view

theorem Acknowledges.lease {ack : NativeWorkerBatchAck}
    {result : Option NativeWorkerTransferStatus × NativeWorkerTransferSender}
    (acknowledges : Acknowledges sender ack result) : result.2.lease = sender.lease := by
  cases acknowledges with
  | exact _ _ _ view | repeated _ _ view | refused _ _ _ view =>
      exact congrArg SenderView.lease view

theorem stage_answers {drained : NativeWorkerBatch} {busy : Bool} (nowNs requestId : Nat) :
    Answers sender requestId (sender.stage meanwhile queue drained busy nowNs requestId) := by
  rw [stage]
  dsimp only
  split <;> exact ⟨rfl, rfl, rfl⟩

theorem Answers.under {requestId : Nat} {sent : Sent}
    {other : NativeWorkerTransferSender} (answers : Answers other requestId sent)
    (same : other.lease = sender.lease) : Answers sender requestId sent :=
  ⟨same ▸ answers.epoch, answers.requestId, answers.batch⟩

theorem pull_answers (meanwhile : Meanwhile) (sender : NativeWorkerTransferSender)
    (request : NativeWorkerPull) (rests : queue.Resting)
    (past : nowNs ≤ queue.clock) :
    Answers sender request.requestId (sender.pull meanwhile queue request nowNs) := by
  rw [pull]
  split
  case isTrue => exact ⟨rfl, rfl, rfl⟩
  case isFalse =>
  obtain ⟨ticks, answers⟩ := tick_spec meanwhile sender rests past request.requestId
  generalize sender.tick meanwhile queue nowNs request.requestId = ticked at ticks answers ⊢
  dsimp only
  split
  · exact answers
  split
  · exact Answers.under (reply_answers ..) ticks.lease
  have acks := acknowledge_spec { ticked.sender with lastRequestId := request.requestId }
    request.acknowledged
  generalize acknowledge { ticked.sender with lastRequestId := request.requestId }
    request.acknowledged = result at acks ⊢
  have same : result.2.lease = sender.lease := acks.lease.trans ticks.lease
  obtain ⟨refused, after⟩ := result
  cases refused with
  | some status => exact Answers.under (reply_answers ..) same
  | none =>
      dsimp only
      split
      · exact Answers.under ⟨rfl, rfl, rfl⟩ same
      · exact Answers.under (stage_answers ..) same

end NativeWorkerTransferSender

end Reb.Worker
