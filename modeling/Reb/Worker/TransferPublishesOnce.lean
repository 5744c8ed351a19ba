/-
# Worker.TransferPublishesOnce -- what the exchange publishes, and what it refuses

In every run on one lease each record that is taken is staged once, what is published
is what was staged first, in that order, and an honest reply is refused only if its
request had reached the sender before.

Pole: a second delivery of the request that is out, refused by the sender, revokes a
receiver whose lease is current.
-/
import Reb.Worker.TransferMoves

namespace Reb.Worker

set_option autoImplicit false

open Exchange NativeWorkerTransferSender

variable {lease : NativeWorkerLease} {exchange : Exchange}

/-- What a pending batch gives way to: a pull with its exact acknowledgment, or a close. -/
def GivesWay (lease : NativeWorkerLease) (exchange : Exchange) (move : Nat × TransferMove) : Prop :=
  (∃ place meanwhile request, move.2 = .pull place meanwhile ∧
      exchange.requests[place]? = some request ∧
      request.acknowledged = ⟨exchange.sender.pending.epoch, exchange.sender.pending.batchId⟩) ∨
    (exchange.sender.active = true ∧ (exchange.step lease move).sender.active = false)

/-- What holds of the exchange. -/
structure PublishesOnce (lease : NativeWorkerLease) (exchange : Exchange) : Prop where
  once : exchange.queue.guarded.taken.map (·.record) =
    exchange.staged.flatMap NativeWorkerBatch.used
  pending : exchange.sender.pending = {} ∨ exchange.staged.getLast? = some exchange.sender.pending
  published : exchange.published <+: exchange.staged
  batchIds : (exchange.published.map (·.batchId)).Pairwise (· < ·)
  sequences : (exchange.published.flatMap NativeWorkerBatch.used).Pairwise (·.sequence < ·.sequence)
  counted : exchange.sender.stats.stagedRecords =
    exchange.sender.stats.acknowledgedRecords + exchange.sender.pending.count +
      exchange.sender.stats.retiredInflightRecords
  discards : ∀ move, exchange.sender.pending.batchId ≠ 0 →
    (exchange.step lease move).sender.pending ≠ exchange.sender.pending →
      GivesWay lease exchange move
  accepted : ∀ answer ∈ exchange.answers, ∀ authority elapsed,
    Refusal (exchange.receiver.receive authority (exchange.queue.clock + elapsed) answer.reply).1 →
      answer.reply.status = .invalid ∧ answer.again = true

/-- What a call of the sender leaves of a pending batch. -/
theorem NativeWorkerTransferSender.Ends.keeps {queue : Queue} {nowNs : Nat} {view : SenderView} {sent : Sent}
    (ends : Ends nowNs queue view sent) : sent.sender.pending = view.pending :=
  congrArg SenderView.pending ends.view

theorem NativeWorkerTransferSender.Ends.inactive {queue : Queue} {nowNs : Nat} {view : SenderView} {sent : Sent}
    (ends : Ends nowNs queue view.closed sent) : sent.sender.active = false :=
  congrArg SenderView.active ends.view

theorem pull_discards (kept : exchange.Kept lease) (request : NativeWorkerPull)
    (meanwhile : Meanwhile) (pending : exchange.sender.pending.batchId ≠ 0)
    (changed : (exchange.pulls request meanwhile).sender.pending ≠ exchange.sender.pending) :
    request.acknowledged = ⟨exchange.sender.pending.epoch, exchange.sender.pending.batchId⟩ ∨
      (exchange.sender.active = true ∧
        (exchange.pulls request meanwhile).sender.active = false) := by
  have pulls := pull_spec meanwhile exchange.sender request
    kept.sender.rests (Nat.le_refl _)
  rw [Exchange.pulls] at changed ⊢
  generalize exchange.sender.pull meanwhile exchange.queue request exchange.queue.clock = sent
    at pulls changed ⊢
  cases pulls with
  | stale _ _ ends | disabled _ _ ends | replayed _ _ _ ends | refused _ _ _ _ _ ends =>
      exact absurd ends.keeps changed
  | closed _ active ends => exact .inr ⟨active, ends.inactive⟩
  | repeated _ _ _ none => exact absurd none pending
  | acknowledged _ _ _ _ names => exact .inl names

theorem moved_discards (kept : exchange.Kept lease) (move : TransferMove)
    (pending : exchange.sender.pending.batchId ≠ 0)
    (changed : (exchange.moved lease move).sender.pending ≠ exchange.sender.pending) :
    (∃ place meanwhile request, move = .pull place meanwhile ∧
        exchange.requests[place]? = some request ∧
        request.acknowledged = ⟨exchange.sender.pending.epoch, exchange.sender.pending.batchId⟩) ∨
      (exchange.sender.active = true ∧ (exchange.moved lease move).sender.active = false) := by
  cases move with
  | work | configureReceiver | request | pendingForPublication | acknowledgePublished |
    revokeReceiver => exact absurd rfl changed
  | receive place authority =>
      rw [Exchange.moved] at changed
      cases answered : exchange.answers[place]? with
      | none =>
          rw [answered] at changed
          exact absurd rfl changed
      | some answer =>
          rw [answered] at changed
          exact absurd rfl changed
  | configureSender meanwhile =>
      -- A pending batch is the pending batch of an active sender, which is busy.
      have active : exchange.sender.active = true := by
        rcases kept.sender.pending with empty | ⟨active, -⟩
        · exact absurd (kept.sender.pending_iff.2 empty) pending
        · exact active
      refine absurd ?_ changed
      show (exchange.sender.configure meanwhile exchange.queue lease exchange.queue.clock).2.1.pending = _
      rw [NativeWorkerTransferSender.configure, active]
      rfl
  | pull place meanwhile =>
      rw [Exchange.moved] at changed ⊢
      cases asked : exchange.requests[place]? with
      | none =>
          rw [asked] at changed
          exact absurd rfl changed
      | some request =>
          rw [asked] at changed
          exact (pull_discards kept request meanwhile pending changed).imp_left
            fun names => ⟨place, meanwhile, request, rfl, asked, names⟩
  | tick meanwhile =>
      have ticks := (tick_spec meanwhile exchange.sender kept.sender.rests (Nat.le_refl _) 0).1
      rw [Exchange.moved] at changed ⊢
      generalize exchange.sender.tick meanwhile exchange.queue exchange.queue.clock 0 = sent
        at ticks changed ⊢
      cases ticks with
      | idle _ _ _ _ _ ends | disabled _ _ ends => exact absurd ends.keeps changed
      | closed _ active ends => exact .inr ⟨active, ends.inactive⟩
  | revokeSender epoch reason meanwhile =>
      have revokes := (revoke_spec meanwhile exchange.sender kept.sender.rests (Nat.le_refl _) epoch
        reason).1
      rw [Exchange.moved] at changed ⊢
      generalize exchange.sender.revoke meanwhile exchange.queue epoch reason = sent
        at revokes changed ⊢
      rcases revokes with ends | ⟨active, ends⟩
      · exact absurd ends.keeps changed
      · exact .inr ⟨active, ends.inactive⟩

theorem publishes_once (lease : NativeWorkerLease) (moves : List (Nat × TransferMove)) :
    PublishesOnce lease (Exchange.run lease moves) := by
  have kept := Exchange.Kept.run lease moves
  generalize Exchange.run lease moves = exchange at kept
  constructor
  case once => exact kept.sender.once
  case pending => exact kept.sender.pending.imp_right And.right
  case published => exact kept.published
  case batchIds =>
    have numbered : (exchange.staged.map (·.batchId)).Pairwise (· < ·) := by
      rw [kept.sender.ids]
      exact List.pairwise_lt_range'
    exact numbered.sublist (kept.published.sublist.map _)
  case sequences =>
    exact kept.sender.increasing.sublist (kept.published.sublist.flatMap _)
  case counted => exact kept.sender.counted
  case discards =>
    intro move pending changed
    refine (moved_discards (kept.elapsed move.1) move.2 pending changed).imp_left ?_
    rintro ⟨place, meanwhile, request, pulled, asked, names⟩
    exact ⟨place, meanwhile, request, pulled, asked, names⟩
  case accepted =>
    intro answer member authority elapsed
    exact ((kept.elapsed elapsed).receives member authority).2

/-- A worker that a document created, with its lease. -/
def granted : NativeWorkerAuthority :=
  .run {} [.reset ⟨1, 71, 1, 1000, ⟨1, 2⟩, ⟨3, 4⟩, ⟨5, 6⟩, ⟨7, 8⟩⟩ 100,
    .created 1 ⟨⟨9, 10⟩, ⟨11, 12⟩, ⟨5, 6⟩, .document, ⟨7, 8⟩, 1⟩ 100, .issue ⟨9, 10⟩ ⟨30, 31⟩ 100]

/-- The request is delivered twice. -/
def twicePulled : Exchange :=
  .run granted.current [(100, .configureSender {}), (0, .configureReceiver granted),
    (0, .request granted), (0, .pull 0 {}), (0, .pull 0 {})]

theorem replay_refused :
    ∃ answer ∈ twicePulled.answers, ∃ elapsed,
      granted.isCurrent twicePulled.receiver.lease (twicePulled.queue.clock + elapsed) = true ∧
        answer.reply.requestId = twicePulled.receiver.outstandingRequestId ∧
        (twicePulled.receiver.receive granted (twicePulled.queue.clock + elapsed) answer.reply).1 =
          .invalid := by
  refine ⟨twicePulled.answers.getD 1 ⟨{}, false⟩, ?_, 1, ?_⟩ <;> decide +kernel

end Reb.Worker
