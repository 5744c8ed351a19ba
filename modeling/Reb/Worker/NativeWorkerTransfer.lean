/-
# Worker.NativeWorkerTransfer -- the renderer's end of the transfer

The sender drains the queue in batches of sixteen and keeps one batch until the
browser acknowledges it.  Its calls run on one sequence; the worker threads go on
capturing between any two accesses of the queue (`Meanwhile`).
-/
import Reb.Worker.QueueCalls

namespace Reb.Worker

set_option autoImplicit false

def kNativeWorkerBatchCapacity : Nat := 16

def kNativeWorkerAckTimeoutNs : Nat := 5000000000

def kNativeWorkerMinPollIntervalNs : Nat := 20000000

structure NativeWorkerTransferEpoch where
  connection : NativeWorkerToken := {}
  sessionId : Nat := 0
  generation : Nat := 0
  deriving DecidableEq, Repr

def workerTransferEpoch (lease : NativeWorkerLease) : NativeWorkerTransferEpoch :=
  ⟨lease.connection, lease.policy.sessionId, lease.policy.generation⟩

structure NativeWorkerBatchAck where
  epoch : NativeWorkerTransferEpoch := {}
  batchId : Nat := 0
  deriving DecidableEq, Repr

structure NativeWorkerPull where
  epoch : NativeWorkerTransferEpoch := {}
  requestId : Nat := 0
  acknowledged : NativeWorkerBatchAck := {}
  deriving DecidableEq, Repr

/-- The array of records is a list of its sixteen slots. -/
structure NativeWorkerBatch where
  version : Nat := 1
  count : Nat := 0
  reserved : Nat := 0
  epoch : NativeWorkerTransferEpoch := {}
  batchId : Nat := 0
  acknowledgmentDeadlineNs : Nat := 0
  captureStats : QueueMemory.CaptureStats := {}
  workerRetired : Bool := false
  records : List NativeWorkerObservation := List.replicate kNativeWorkerBatchCapacity {}
  deriving DecidableEq, Repr

inductive NativeWorkerTransferStatus where
  | configured | batch | idle | busy | awaitingAcknowledgment | invalid | staleEpoch
  | invalidAcknowledgment | disabled | expired | timedOut | revoked | disconnected
  | sequenceExhausted | requestReady
  | other (value : UInt16)
  deriving DecidableEq, Repr

structure NativeWorkerTransferStats where
  batches : Nat := 0
  stagedRecords : Nat := 0
  acknowledgedBatches : Nat := 0
  acknowledgedRecords : Nat := 0
  retiredInflightRecords : Nat := 0
  invalidControls : Nat := 0
  timeouts : Nat := 0
  deriving DecidableEq, Repr

structure NativeWorkerTransferReply where
  status : NativeWorkerTransferStatus := .disabled
  epoch : NativeWorkerTransferEpoch := {}
  requestId : Nat := 0
  batch : NativeWorkerBatch := {}
  captureStats : QueueMemory.CaptureStats := {}
  transferStats : NativeWorkerTransferStats := {}
  deriving DecidableEq, Repr

def deadline (lease : NativeWorkerLease) (nowNs interval : Nat) : Nat :=
  nowNs + min interval (lease.policy.expiresAtMonotonicNs - nowNs)

/-! ## What the workers do meanwhile -/

/-- A call of a worker thread: `Begin`, `Capture` or `Retire`. -/
structure WorkerCall where
  call : QueueCall
  elapsed : Nat
  fails : Bool

def QueueCall.worker : QueueCall → Bool
  | .beginCapture _ _ _ _ | .capture _ _ | .retire _ => true
  | _ => false

/-- The worker reads the clock and makes its call; other calls are not the workers'. -/
def QueueMemory.worked (queue : Queue) (worker : WorkerCall) : Queue :=
  let later := queue.elapse worker.elapsed
  if worker.call.worker then (later.called worker.call later.clock worker.fails).1 else later

/-- What the workers do before each access of a call, and whether its try-lock fails. -/
structure Meanwhile where
  before : Nat → List WorkerCall := fun _ => []
  fails : Nat → Bool := fun _ => false

def Meanwhile.work (meanwhile : Meanwhile) (access : Nat) (queue : Queue) : Queue :=
  (meanwhile.before access).foldl QueueMemory.worked queue

/-! ## The sender -/

structure NativeWorkerTransferSender where
  lease : NativeWorkerLease := {}
  pending : NativeWorkerBatch := {}
  lastAck : NativeWorkerBatchAck := {}
  lastReported : QueueMemory.CaptureStats := {}
  stats : NativeWorkerTransferStats := {}
  nextBatchId : Nat := 1
  lastRequestId : Nat := 0
  active : Bool := false
  terminalReported : Bool := false
  deriving DecidableEq, Repr

/-- What a call returns, and what it leaves. -/
structure Sent where
  reply : NativeWorkerTransferReply
  sender : NativeWorkerTransferSender
  queue : Queue

/-- `batch.records[batch.count++] = record`. -/
def NativeWorkerBatch.put (batch : NativeWorkerBatch) (record : NativeWorkerObservation) :
    NativeWorkerBatch :=
  { batch with records := batch.records.set batch.count record, count := batch.count + 1 }

namespace NativeWorkerTransferSender

variable (sender : NativeWorkerTransferSender) (meanwhile : Meanwhile) (queue : Queue)

/-- `Reply`: the queue's counters are read as it is built. -/
def reply (status : NativeWorkerTransferStatus) (requestId access : Nat) : Sent :=
  let queue := meanwhile.work access queue
  ⟨⟨status, workerTransferEpoch sender.lease, requestId, sender.pending, queue.stats, sender.stats⟩,
    sender, queue⟩

def countInvalid : NativeWorkerTransferSender :=
  { sender with
    stats := { sender.stats with invalidControls := increment sender.stats.invalidControls } }

def close (reason : NativeWorkerTransferStatus) (requestId access : Nat) : Sent :=
  let worked := meanwhile.work access queue
  let disabled := (worked.called .disable worked.clock).1
  reply
    { sender with
      stats := { sender.stats with
        retiredInflightRecords :=
          increment sender.stats.retiredInflightRecords sender.pending.count }
      pending := {}
      active := false }
    meanwhile disabled reason requestId (access + 1)

def configure (lease : NativeWorkerLease) (nowNs : Nat) :
    NativeWorkerTransferStatus × NativeWorkerTransferSender × Queue :=
  let enabledAt := meanwhile.work 0 queue
  let countedAt := meanwhile.work 1 enabledAt
  if sender.active || enabledAt.isEnabled || countedAt.stats.queued != 0 then
    (.busy, sender, countedAt)
  else if !isValidNativeWorkerLease lease nowNs then (.invalid, sender.countInvalid, countedAt)
  else
    let configured := (meanwhile.work 2 countedAt).called (.configure lease.policy) nowNs
    if configured.2.status != .accepted then (.invalid, sender.countInvalid, configured.1)
    else
      let reportedAt := meanwhile.work 3 configured.1
      (.configured,
        { sender with
          lease, pending := {}, lastAck := {}, lastReported := reportedAt.stats, nextBatchId := 1
          lastRequestId := 0, terminalReported := false, active := true },
        reportedAt)

def revoke (epoch : NativeWorkerTransferEpoch) (reason : NativeWorkerTransferStatus) : Sent :=
  if epoch != workerTransferEpoch sender.lease then
    sender.countInvalid.reply meanwhile queue .staleEpoch 0 0
  else if reason != .revoked && reason != .disconnected then
    sender.countInvalid.reply meanwhile queue .invalid 0 0
  else if sender.active then sender.close meanwhile queue reason 0 0
  else sender.reply meanwhile queue .disabled 0 0

/-- `Tick`; a pull passes on its reply under the pull's own request id. -/
def tick (nowNs requestId : Nat) : Sent :=
  if !sender.active then sender.reply meanwhile queue .disabled requestId 0
  else if nowNs < sender.lease.issuedAtNs || sender.lease.policy.expiresAtMonotonicNs ≤ nowNs then
    sender.close meanwhile queue .expired requestId 0
  else if sender.pending.batchId != 0 && sender.pending.acknowledgmentDeadlineNs ≤ nowNs then
    close { sender with stats := { sender.stats with timeouts := increment sender.stats.timeouts } }
      meanwhile queue .timedOut requestId 0
  else sender.reply meanwhile queue .idle requestId 0

/-- The acknowledgment of a pull: the status that refuses it, or none, and the sender after. -/
def acknowledge (acknowledged : NativeWorkerBatchAck) :
    Option NativeWorkerTransferStatus × NativeWorkerTransferSender :=
  let emptyAck := acknowledged == {}
  if sender.pending.batchId != 0 then
    if emptyAck then (some .awaitingAcknowledgment, sender)
    else if acknowledged != ⟨sender.pending.epoch, sender.pending.batchId⟩ then
      (some .invalidAcknowledgment, sender.countInvalid)
    else
      (none, { sender with
        lastAck := acknowledged
        stats := { sender.stats with
          acknowledgedBatches := increment sender.stats.acknowledgedBatches
          acknowledgedRecords := increment sender.stats.acknowledgedRecords sender.pending.count }
        pending := {} })
  else if (!emptyAck && acknowledged != sender.lastAck) ||
      (emptyAck && sender.lastAck.batchId != 0) then
    (some .invalidAcknowledgment, sender.countInvalid)
  else (none, sender)

/-- The loop of a pull: so many slots are left to fill.  The flag says that a `Take` was busy. -/
def drain (nowNs : Nat) : Nat → Queue → NativeWorkerBatch → Queue × NativeWorkerBatch × Bool
  | 0, queue, batch => (queue, batch, false)
  | slots + 1, queue, batch =>
      let access := 1 + kNativeWorkerBatchCapacity - slots
      let taken := (meanwhile.work access queue).called .take nowNs (meanwhile.fails access)
      if taken.2.status != .accepted then (taken.1, batch, taken.2.status == .busy)
      else drain nowNs slots taken.1 (batch.put taken.2.record)

/-- What a pull does with what it drained: a batch is staged, or there is nothing to report. -/
def stage (drained : NativeWorkerBatch) (busy : Bool) (nowNs requestId : Nat) : Sent :=
  let countedAt := meanwhile.work 18 queue
  let enabledAt := meanwhile.work 19 countedAt
  let workerRetired := !enabledAt.isEnabled
  if drained.count == 0 && countedAt.stats == sender.lastReported &&
      (!workerRetired || sender.terminalReported) then
    sender.reply meanwhile enabledAt (if busy then .busy else .idle) requestId 20
  else
    let batch : NativeWorkerBatch := { drained with
      captureStats := countedAt.stats
      workerRetired
      batchId := sender.nextBatchId
      acknowledgmentDeadlineNs := deadline sender.lease nowNs kNativeWorkerAckTimeoutNs }
    reply
      { sender with
        nextBatchId := sender.nextBatchId + 1
        lastReported := batch.captureStats
        terminalReported := workerRetired && batch.captureStats.queued == 0
        pending := batch
        stats := { sender.stats with
          batches := increment sender.stats.batches
          stagedRecords := increment sender.stats.stagedRecords batch.count } }
      meanwhile enabledAt .batch requestId 20

def pull (request : NativeWorkerPull) (nowNs : Nat) : Sent :=
  if request.epoch != workerTransferEpoch sender.lease then
    sender.countInvalid.reply meanwhile queue .staleEpoch request.requestId 0
  else
    let ticked := sender.tick meanwhile queue nowNs request.requestId
    if ticked.reply.status != .idle then ticked
    else if request.requestId == 0 || request.requestId ≤ ticked.sender.lastRequestId then
      ticked.sender.countInvalid.reply meanwhile ticked.queue .invalid request.requestId 1
    else
      let requested := { ticked.sender with lastRequestId := request.requestId }
      match requested.acknowledge request.acknowledged with
      | (some refused, sender) => sender.reply meanwhile ticked.queue refused request.requestId 1
      | (none, sender) =>
          if sender.nextBatchId == uint64Max then
            sender.close meanwhile ticked.queue .sequenceExhausted request.requestId 1
          else
            let drained := drain meanwhile nowNs kNativeWorkerBatchCapacity ticked.queue
              { epoch := workerTransferEpoch sender.lease }
            sender.stage meanwhile drained.1 drained.2.1 drained.2.2 nowNs request.requestId

end NativeWorkerTransferSender

end Reb.Worker
