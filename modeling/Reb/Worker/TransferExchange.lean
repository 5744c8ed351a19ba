/-
# Worker.TransferExchange -- both ends of the transfer and the wire between them

At the browser's end one request is outstanding at most and one batch is staged at most.
Every call that looks at the authority is given the authority as it then is.

What was ever put on the wire stays there: a message may be delivered late, in another
order, more than once or never.  One clock runs for everybody, the authority is
whatever it is at each call, and both ends are configured for one lease.

Recorded beside the state: the requests that reached the sender, the batches it staged
and those the receiver acknowledged as published.
-/
import Reb.Worker.NativeWorkerAuthority
import Reb.Worker.NativeWorkerTransfer
import Reb.Worker.TransferSender

namespace Reb.Worker

set_option autoImplicit false

structure NativeWorkerTransferReceiver where
  lease : NativeWorkerLease := {}
  pending : NativeWorkerBatch := {}
  lastAck : NativeWorkerBatchAck := {}
  greatestGeneration : Nat := 0
  nextRequestId : Nat := 1
  outstandingRequestId : Nat := 0
  requestDeadlineNs : Nat := 0
  nextRequestNotBeforeNs : Nat := 0
  lastBatchId : Nat := 0
  lastSequence : Nat := 0
  retiredRecords : Nat := 0
  abandonedRequests : Nat := 0
  active : Bool := false
  deriving DecidableEq, Repr

/-- The loop over the slots of a batch: `used` of them are records in order, the rest empty. -/
def slotsValid (lease : NativeWorkerLease) (nowNs : Nat) :
    Nat → Nat → List NativeWorkerObservation → Bool
  | _, _, [] => true
  | 0, sequence, record :: rest => record == {} && slotsValid lease nowNs 0 sequence rest
  | used + 1, sequence, record :: rest =>
      isValidNativeWorkerObservation record lease.policy nowNs && sequence < record.sequence &&
        lease.issuedAtNs ≤ record.monotonicTimeNs &&
        slotsValid lease nowNs used record.sequence rest

namespace NativeWorkerTransferReceiver

variable (receiver : NativeWorkerTransferReceiver) (authority : NativeWorkerAuthority) (nowNs : Nat)

def configure (lease : NativeWorkerLease) : Bool × NativeWorkerTransferReceiver :=
  if receiver.active || lease.policy.generation ≤ receiver.greatestGeneration ||
      !authority.isCurrent lease nowNs then (false, receiver)
  else
    (true, { receiver with
      greatestGeneration := lease.policy.generation, lease, pending := {}, lastAck := {}
      nextRequestId := 1, outstandingRequestId := 0, nextRequestNotBeforeNs := nowNs
      lastBatchId := 0, lastSequence := 0, active := true })

def revoke : NativeWorkerTransferReceiver :=
  { receiver with
    retiredRecords := increment receiver.retiredRecords receiver.pending.count
    abandonedRequests :=
      if receiver.outstandingRequestId != 0 then increment receiver.abandonedRequests
      else receiver.abandonedRequests
    pending := {}
    outstandingRequestId := 0
    active := false }

/-- What a lease that is not current any more is answered with. -/
def lapsed : NativeWorkerTransferStatus :=
  if isValidNativeWorkerLease receiver.lease nowNs then .revoked else .expired

def pendingForPublication : Option NativeWorkerBatch × NativeWorkerTransferReceiver :=
  if !receiver.active || !authority.isCurrent receiver.lease nowNs ||
      (receiver.pending.batchId != 0 && receiver.pending.acknowledgmentDeadlineNs ≤ nowNs) then
    (none, receiver.revoke)
  else (if receiver.pending.batchId == 0 then none else some receiver.pending, receiver)

def request : NativeWorkerTransferStatus × NativeWorkerPull × NativeWorkerTransferReceiver :=
  if !receiver.active then (.disabled, {}, receiver)
  else if !authority.isCurrent receiver.lease nowNs then
    (receiver.lapsed nowNs, {}, receiver.revoke)
  else if (receiver.outstandingRequestId != 0 && receiver.requestDeadlineNs ≤ nowNs) ||
      (receiver.pending.batchId != 0 && receiver.pending.acknowledgmentDeadlineNs ≤ nowNs) then
    (.timedOut, {}, receiver.revoke)
  else if receiver.outstandingRequestId != 0 || receiver.pending.batchId != 0 ||
      nowNs < receiver.nextRequestNotBeforeNs then (.busy, {}, receiver)
  else if receiver.nextRequestId == uint64Max then (.sequenceExhausted, {}, receiver.revoke)
  else
    (.requestReady, ⟨workerTransferEpoch receiver.lease, receiver.nextRequestId, receiver.lastAck⟩,
      { receiver with
        nextRequestId := receiver.nextRequestId + 1
        outstandingRequestId := receiver.nextRequestId
        requestDeadlineNs := deadline receiver.lease nowNs kNativeWorkerAckTimeoutNs
        nextRequestNotBeforeNs := deadline receiver.lease nowNs kNativeWorkerMinPollIntervalNs })

/-- The batch of a reply, up to its records. -/
def headValid (reply : NativeWorkerTransferReply) : Bool :=
  let batch := reply.batch
  batch.version == 1 && batch.reserved == 0 && batch.count ≤ kNativeWorkerBatchCapacity &&
    batch.epoch == reply.epoch && receiver.lastBatchId < batch.batchId &&
    nowNs < batch.acknowledgmentDeadlineNs &&
    batch.acknowledgmentDeadlineNs ≤ deadline receiver.lease nowNs kNativeWorkerAckTimeoutNs &&
    batch.captureStats.queued ≤ kNativeWorkerObservationCapacity

/-- The answer to a reply that carries no batch. -/
def closing : NativeWorkerTransferStatus → NativeWorkerTransferStatus
  | .disabled => .disabled
  | .expired => .expired
  | .timedOut => .timedOut
  | .revoked => .revoked
  | .disconnected => .disconnected
  | .sequenceExhausted => .sequenceExhausted
  | .invalid => .invalid
  | .staleEpoch => .staleEpoch
  | .invalidAcknowledgment => .invalidAcknowledgment
  | _ => .invalid

def receive (reply : NativeWorkerTransferReply) :
    NativeWorkerTransferStatus × NativeWorkerTransferReceiver :=
  if !receiver.active then (.disabled, receiver)
  else if reply.epoch != workerTransferEpoch receiver.lease ||
      receiver.outstandingRequestId == 0 || reply.requestId != receiver.outstandingRequestId then
    (.staleEpoch, receiver)
  else if !authority.isCurrent receiver.lease nowNs then (receiver.lapsed nowNs, receiver.revoke)
  else if receiver.requestDeadlineNs ≤ nowNs then (.timedOut, receiver.revoke)
  else
    let answered := { receiver with outstandingRequestId := 0 }
    if reply.status == .idle || reply.status == .busy then
      if reply.batch != {} then (.invalid, answered.revoke) else (reply.status, answered)
    else if reply.status != .batch && reply.status != .awaitingAcknowledgment then
      (closing reply.status, answered.revoke)
    else if !answered.headValid nowNs reply then (.invalid, answered.revoke)
    else if !slotsValid receiver.lease nowNs reply.batch.count receiver.lastSequence
        reply.batch.records then (.invalid, answered.revoke)
    else (.batch, { answered with pending := reply.batch, lastBatchId := reply.batch.batchId })

/-- The last record that a batch uses, if it uses any. -/
def lastUsed (batch : NativeWorkerBatch) (sequence : Nat) : Nat :=
  if batch.count != 0 then (batch.records.getD (batch.count - 1) {}).sequence else sequence

def acknowledgePublished (batch : NativeWorkerBatchAck) : Bool × NativeWorkerTransferReceiver :=
  if !receiver.active || !authority.isCurrent receiver.lease nowNs ||
      (receiver.pending.batchId != 0 && receiver.pending.acknowledgmentDeadlineNs ≤ nowNs) then
    (false, receiver.revoke)
  else if receiver.pending.batchId == 0 ||
      batch != ⟨receiver.pending.epoch, receiver.pending.batchId⟩ then (false, receiver)
  else
    (true, { receiver with
      lastSequence := lastUsed receiver.pending receiver.lastSequence
      lastAck := batch
      pending := {} })

end NativeWorkerTransferReceiver

end Reb.Worker

namespace Reb.Worker

/-! # The exchange -/

/-- A reply on the wire, and whether its request had reached the sender before. -/
structure Answered where
  reply : NativeWorkerTransferReply
  again : Bool
  deriving DecidableEq

structure Exchange where
  queue : Queue := {}
  sender : NativeWorkerTransferSender := {}
  receiver : NativeWorkerTransferReceiver := {}
  requests : List NativeWorkerPull := []
  answers : List Answered := []
  pulled : List Nat := []
  staged : List NativeWorkerBatch := []
  published : List NativeWorkerBatch := []

/-- What happens next.  A message is named by its place on the wire. -/
inductive TransferMove where
  | work (worker : WorkerCall)
  | configureSender (meanwhile : Meanwhile)
  | pull (place : Nat) (meanwhile : Meanwhile)
  | tick (meanwhile : Meanwhile)
  | revokeSender (epoch : NativeWorkerTransferEpoch) (reason : NativeWorkerTransferStatus)
      (meanwhile : Meanwhile)
  | configureReceiver (authority : NativeWorkerAuthority)
  | request (authority : NativeWorkerAuthority)
  | receive (place : Nat) (authority : NativeWorkerAuthority)
  | pendingForPublication (authority : NativeWorkerAuthority)
  | acknowledgePublished (authority : NativeWorkerAuthority) (batch : NativeWorkerBatchAck)
  | revokeReceiver

namespace Exchange

variable (exchange : Exchange)

/-- The sender has made a call; its reply goes on the wire. -/
def sent (sent : Sent) (again : Bool) : Exchange :=
  { exchange with
    queue := sent.queue
    sender := sent.sender
    answers := exchange.answers ++ [⟨sent.reply, again⟩]
    staged := exchange.staged ++ if sent.reply.status == .batch then [sent.reply.batch] else [] }

def pulls (request : NativeWorkerPull) (meanwhile : Meanwhile) : Exchange :=
  { exchange.sent (exchange.sender.pull meanwhile exchange.queue request exchange.queue.clock)
      (exchange.pulled.contains request.requestId) with
    pulled := exchange.pulled ++ [request.requestId] }

def requested (authority : NativeWorkerAuthority) : Exchange :=
  let asked := exchange.receiver.request authority exchange.queue.clock
  { exchange with
    receiver := asked.2.2
    requests := exchange.requests ++ if asked.1 == .requestReady then [asked.2.1] else [] }

def acknowledges (authority : NativeWorkerAuthority) (batch : NativeWorkerBatchAck) : Exchange :=
  let answer := exchange.receiver.acknowledgePublished authority exchange.queue.clock batch
  { exchange with
    receiver := answer.2
    published := exchange.published ++ if answer.1 then [exchange.receiver.pending] else [] }

def moved (lease : NativeWorkerLease) : TransferMove → Exchange
  | .work worker => { exchange with queue := exchange.queue.worked worker }
  | .configureSender meanwhile =>
      let configured :=
        exchange.sender.configure meanwhile exchange.queue lease exchange.queue.clock
      { exchange with sender := configured.2.1, queue := configured.2.2 }
  | .pull place meanwhile =>
      match exchange.requests[place]? with
      | some request => exchange.pulls request meanwhile
      | none => exchange
  | .tick meanwhile =>
      exchange.sent (exchange.sender.tick meanwhile exchange.queue exchange.queue.clock 0) false
  | .revokeSender epoch reason meanwhile =>
      exchange.sent (exchange.sender.revoke meanwhile exchange.queue epoch reason) false
  | .configureReceiver authority =>
      { exchange with
        receiver := (exchange.receiver.configure authority exchange.queue.clock lease).2 }
  | .request authority => exchange.requested authority
  | .receive place authority =>
      match exchange.answers[place]? with
      | some answer =>
          { exchange with
            receiver :=
              (exchange.receiver.receive authority exchange.queue.clock answer.reply).2 }
      | none => exchange
  | .pendingForPublication authority =>
      { exchange with
        receiver := (exchange.receiver.pendingForPublication authority exchange.queue.clock).2 }
  | .acknowledgePublished authority batch => exchange.acknowledges authority batch
  | .revokeReceiver => { exchange with receiver := exchange.receiver.revoke }

/-- Some time passes, then the move is made. -/
def step (lease : NativeWorkerLease) (move : Nat × TransferMove) : Exchange :=
  ({ exchange with queue := exchange.queue.elapse move.1 } : Exchange).moved lease move.2

def run (lease : NativeWorkerLease) (moves : List (Nat × TransferMove)) : Exchange :=
  moves.foldl (fun exchange move => exchange.step lease move) {}

end Exchange

end Reb.Worker
