/-
# Worker.TransferReceiverKept -- whose turn it is, on one lease

While the receiver is active the two ends take turns (`Position`).  It has published
all there is, or it holds the one batch more; or its request is out, and either the
sender has not taken it up or every answer on the wire is one the receiver can take.
-/
import Reb.Worker.TransferSenderKept

namespace Reb.Worker

set_option autoImplicit false

variable {lease : NativeWorkerLease} {exchange exchange' : Exchange}

/-- The last sequence that was published, or 0. -/
def lastPublished (published : List NativeWorkerBatch) : Nat :=
  ((published.flatMap NativeWorkerBatch.used).getLast?.map (·.sequence)).getD 0

/-- An end of the sender, told to the receiver. -/
def Closing (status : NativeWorkerTransferStatus) : Prop :=
  status = .disabled ∨ status = .expired ∨ status = .timedOut ∨ status = .sequenceExhausted

namespace Exchange

variable (exchange : Exchange)

/-- The answer is to the request that is out. -/
structure Matches (lease : NativeWorkerLease) (answer : Answered) : Prop where
  requestId : answer.reply.requestId = exchange.receiver.outstandingRequestId
  epoch : answer.reply.epoch = workerTransferEpoch lease

/-- An answer to the request that is out which the receiver can take, or a refusal of
another delivery of it. -/
inductive Takes (answer : Answered) : Prop where
  | closing (status : Closing answer.reply.status)
  | quiet (status : answer.reply.status = .idle ∨ answer.reply.status = .busy)
      (batch : answer.reply.batch = {}) (staged : exchange.staged = exchange.published)
  | batch (status : answer.reply.status = .batch)
      (staged : exchange.staged = exchange.published ++ [answer.reply.batch])
      (deadline : exchange.receiver.requestDeadlineNs ≤ answer.reply.batch.acknowledgmentDeadlineNs)
  | replayed (status : answer.reply.status = .invalid) (again : answer.again = true)

/-- A request is out. -/
structure Asked (lease : NativeWorkerLease) : Prop where
  next : exchange.receiver.outstandingRequestId + 1 = exchange.receiver.nextRequestId
  nonzero : exchange.receiver.outstandingRequestId ≠ 0
  pending : exchange.receiver.pending = {}
  lastBatchId : exchange.receiver.lastBatchId = exchange.published.length
  deadline : ∃ nowNs ≤ exchange.queue.clock, exchange.receiver.requestDeadlineNs =
    deadline lease nowNs kNativeWorkerAckTimeoutNs

inductive Position (lease : NativeWorkerLease) : Prop where
  | resting (outstanding : exchange.receiver.outstandingRequestId = 0)
      (pending : exchange.receiver.pending = {})
      (lastBatchId : exchange.receiver.lastBatchId = exchange.published.length)
      (staged : exchange.staged = exchange.published)
      (next : exchange.sender.lastRequestId + 1 = exchange.receiver.nextRequestId)
  | holding (outstanding : exchange.receiver.outstandingRequestId = 0)
      (lastBatchId : exchange.receiver.lastBatchId = exchange.published.length + 1)
      (staged : exchange.staged = exchange.published ++ [exchange.receiver.pending])
      (next : exchange.sender.lastRequestId + 1 = exchange.receiver.nextRequestId)
  | asking (asked : exchange.Asked lease) (staged : exchange.staged = exchange.published)
      (fresh : exchange.sender.lastRequestId + 1 = exchange.receiver.outstandingRequestId)
      (acknowledged : ∀ request ∈ exchange.requests,
        request.requestId = exchange.receiver.outstandingRequestId →
          request.acknowledged = ackOf lease exchange.published.length)
      (answers : ∀ answer ∈ exchange.answers, exchange.Matches lease answer →
        Closing answer.reply.status)
  | answering (asked : exchange.Asked lease)
      (accepted : exchange.sender.lastRequestId = exchange.receiver.outstandingRequestId)
      (answers : ∀ answer ∈ exchange.answers, exchange.Matches lease answer →
        exchange.Takes answer)

/-- The receiver is active. -/
structure Turn (lease : NativeWorkerLease) : Prop where
  leased : exchange.receiver.lease = lease
  authorized : validPolicy lease.policy = true
  lastAck : exchange.receiver.lastAck = ackOf lease exchange.published.length
  lastSequence : exchange.receiver.lastSequence = lastPublished exchange.published
  position : exchange.Position lease

/-- Before the receiver is configured nothing was asked for. -/
structure Untouched : Prop where
  requests : exchange.requests = []
  published : exchange.published = []
  staged : exchange.staged = []
  lastRequestId : exchange.sender.lastRequestId = 0
  inactive : exchange.receiver.active = false
  next : exchange.receiver.nextRequestId = 1

structure Kept (lease : NativeWorkerLease) : Prop where
  sender : SenderKept lease exchange.queue exchange.sender.view exchange.staged
  phase : exchange.Untouched ∨ exchange.receiver.greatestGeneration = lease.policy.generation
  requests : ∀ request ∈ exchange.requests, request.epoch = workerTransferEpoch lease ∧
    request.requestId < exchange.receiver.nextRequestId
  answers : ∀ answer ∈ exchange.answers,
    answer.reply.requestId < exchange.receiver.nextRequestId
  last : exchange.sender.lastRequestId < exchange.receiver.nextRequestId
  pulled : exchange.sender.lastRequestId ≠ 0 → exchange.sender.lastRequestId ∈ exchange.pulled
  published : exchange.published <+: exchange.staged
  turn : exchange.receiver.active = true → exchange.Turn lease

end Exchange

open Exchange

theorem Exchange.Kept.start : Kept ({} : Exchange) lease where
  sender := .start
  phase := .inl ⟨rfl, rfl, rfl, rfl, rfl, rfl⟩
  requests := fun _ member => absurd member List.not_mem_nil
  answers := fun _ member => absurd member List.not_mem_nil
  last := Nat.one_pos
  pulled := absurd rfl
  published := List.nil_prefix
  turn := fun active => absurd active Bool.false_ne_true

/-! ## Time passes, and a call of the sender that takes up no request -/

/-- What a step of the sender does to the exchange when it takes up no request. -/
structure Idles (exchange exchange' : Exchange) (more : List Answered) : Prop where
  receiver : exchange'.receiver = exchange.receiver
  requests : exchange'.requests = exchange.requests
  published : exchange'.published = exchange.published
  staged : exchange'.staged = exchange.staged
  lastRequestId : exchange'.sender.lastRequestId = exchange.sender.lastRequestId
  clock : exchange.queue.clock ≤ exchange'.queue.clock
  answers : exchange'.answers = exchange.answers ++ more
  pulled : exchange.pulled ⊆ exchange'.pulled

/-- An answer that may come while no request is taken up: to another delivery of one that
was, or that the sender has closed. -/
def Turns (exchange : Exchange) (answer : Answered) : Prop :=
  Closing answer.reply.status ∨
    (answer.reply.status = .invalid ∧ answer.reply.requestId ≤ exchange.sender.lastRequestId ∧
      answer.again = exchange.pulled.contains answer.reply.requestId)

theorem Exchange.Matches.of_receiver {answer : Answered} (same : exchange'.receiver = exchange.receiver)
    (found : exchange'.Matches lease answer) : exchange.Matches lease answer :=
  ⟨same ▸ found.requestId, found.epoch⟩

theorem Exchange.Asked.later (asked : exchange.Asked lease)
    (receiver : exchange'.receiver = exchange.receiver)
    (published : exchange'.published = exchange.published)
    (clock : exchange.queue.clock ≤ exchange'.queue.clock) : exchange'.Asked lease where
  next := receiver ▸ asked.next
  nonzero := receiver ▸ asked.nonzero
  pending := receiver ▸ asked.pending
  lastBatchId := by rw [receiver, published, asked.lastBatchId]
  deadline := by
    rw [receiver]
    exact asked.deadline.imp fun _ made => ⟨made.1.trans clock, made.2⟩

theorem Exchange.Takes.idles {more : List Answered} {answer : Answered}
    (idles : Idles exchange exchange' more) (takes : exchange.Takes answer) :
    exchange'.Takes answer := by
  cases takes with
  | closing status => exact .closing status
  | quiet status batch staged =>
      exact .quiet status batch (by rw [idles.staged, idles.published, staged])
  | batch status staged deadline =>
      exact .batch status (by rw [idles.staged, idles.published, staged]) (idles.receiver ▸ deadline)
  | replayed status again => exact .replayed status again

theorem Exchange.Position.idles {more : List Answered} (position : exchange.Position lease)
    (pulled : exchange.sender.lastRequestId ≠ 0 →
      exchange.sender.lastRequestId ∈ exchange.pulled)
    (idles : Idles exchange exchange' more)
    (turns : ∀ answer ∈ more, answer.reply.requestId ≠ 0 →
      answer.reply.epoch = workerTransferEpoch lease → Turns exchange answer) :
    exchange'.Position lease := by
  have idles' := idles
  obtain ⟨receiver, requests, published, staged, lastRequestId, clock, answers, -⟩ := idles'
  cases position with
  | resting outstanding pending lastBatchId same next =>
      exact .resting (receiver ▸ outstanding) (receiver ▸ pending)
        (by rw [receiver, published, lastBatchId]) (by rw [staged, published, same])
        (by rw [receiver, lastRequestId, next])
  | holding outstanding lastBatchId same next =>
      exact .holding (receiver ▸ outstanding) (by rw [receiver, published, lastBatchId])
        (by rw [staged, published, receiver, same]) (by rw [receiver, lastRequestId, next])
  | asking asked same fresh acknowledged before =>
      refine .asking (asked.later receiver published clock) (by rw [staged, published, same])
        (by rw [receiver, lastRequestId, fresh]) ?_ fun answer member found => ?_
      · rw [requests, receiver, published]
        exact acknowledged
      · have found := found.of_receiver receiver
        rw [answers] at member
        rcases List.mem_append.1 member with old | new
        · exact before answer old found
        · rcases turns answer new (found.requestId ▸ asked.nonzero) found.epoch with
            closing | ⟨-, taken, -⟩
          · exact closing
          · have id := found.requestId
            omega
  | answering asked accepted before =>
      refine .answering (asked.later receiver published clock)
        (by rw [receiver, lastRequestId, accepted]) fun answer member found => ?_
      have found := found.of_receiver receiver
      rw [answers] at member
      rcases List.mem_append.1 member with old | new
      · exact (before answer old found).idles idles
      · rcases turns answer new (found.requestId ▸ asked.nonzero) found.epoch with
          closing | ⟨status, -, again⟩
        · exact .closing closing
        · refine .replayed status (again.trans (List.contains_iff_mem.2 ?_))
          rw [found.requestId, ← accepted]
          exact pulled (accepted ▸ asked.nonzero)

theorem Exchange.Kept.idles {more : List Answered} (kept : exchange.Kept lease)
    (idles : Idles exchange exchange' more)
    (sender : SenderKept lease exchange'.queue exchange'.sender.view exchange'.staged)
    (numbered : ∀ answer ∈ more, answer.reply.requestId < exchange.receiver.nextRequestId)
    (turns : validPolicy lease.policy = true → ∀ answer ∈ more, answer.reply.requestId ≠ 0 →
      answer.reply.epoch = workerTransferEpoch lease → Turns exchange answer) :
    exchange'.Kept lease where
  sender := sender
  phase := by
    rw [idles.receiver]
    refine kept.phase.imp_left fun untouched => ⟨?_, ?_, ?_, ?_, ?_, ?_⟩
    · exact idles.requests.trans untouched.requests
    · exact idles.published.trans untouched.published
    · exact idles.staged.trans untouched.staged
    · exact idles.lastRequestId.trans untouched.lastRequestId
    · exact idles.receiver ▸ untouched.inactive
    · exact idles.receiver ▸ untouched.next
  requests := by
    rw [idles.requests, idles.receiver]
    exact kept.requests
  answers := by
    rw [idles.answers, idles.receiver]
    exact List.forall_mem_append.2 ⟨kept.answers, numbered⟩
  last := by
    rw [idles.lastRequestId, idles.receiver]
    exact kept.last
  pulled := by
    rw [idles.lastRequestId]
    exact fun taken => idles.pulled (kept.pulled taken)
  published := by
    rw [idles.published, idles.staged]
    exact kept.published
  turn := by
    intro active
    obtain ⟨leased, authorized, lastAck, lastSequence, position⟩ := kept.turn (idles.receiver ▸ active)
    refine ⟨?_, authorized, ?_, ?_, position.idles kept.pulled idles (turns authorized)⟩
    · exact idles.receiver ▸ leased
    · rw [idles.receiver, idles.published, lastAck]
    · rw [idles.receiver, idles.published, lastSequence]

/-- Time passes, or the workers go on. -/
theorem Exchange.Kept.ongoing {queue : Queue} (kept : exchange.Kept lease)
    (ongoing : Ongoing exchange.queue.clock exchange.queue queue) :
    Kept { exchange with queue := queue } lease :=
  kept.idles ⟨rfl, rfl, rfl, rfl, rfl, ongoing.clock, (List.append_nil _).symm, List.Subset.refl _⟩
    (kept.sender.ongoing ongoing) (fun _ member => absurd member List.not_mem_nil)
    fun _ _ member => absurd member List.not_mem_nil

end Reb.Worker
