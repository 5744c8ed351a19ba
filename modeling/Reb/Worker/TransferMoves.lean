/-
# Worker.TransferMoves -- every move keeps both ends in step

A call of the sender takes up a request only where the receiver has just put it out;
then its answer is one the receiver can take.  A call of the receiver hands the turn
on, or revokes.
-/
import Reb.Worker.TransferReceiverKept

namespace Reb.Worker

set_option autoImplicit false

open Exchange NativeWorkerTransferSender

variable {lease : NativeWorkerLease} {exchange : Exchange} {sent : Sent} {again : Bool}
  {pulled : List Nat}

/-! ## The sender -/

/-- The exchange after a call of the sender, with what has been pulled. -/
abbrev Exchange.after (exchange : Exchange) (sent : Sent) (again : Bool) (pulled : List Nat) :
    Exchange :=
  { exchange.sent sent again with pulled := pulled }

theorem Closing.other {status : NativeWorkerTransferStatus} (closing : Closing status) :
    status ≠ .batch := by
  rcases closing with rfl | rfl | rfl | rfl <;> decide

/-- A call that ends without a batch and takes up no request. -/
theorem Exchange.Kept.unasked {view : SenderView} (kept : exchange.Kept lease)
    (viewed : SenderKept lease exchange.queue view exchange.staged)
    (ends : Ends exchange.queue.clock exchange.queue view sent)
    (other : sent.reply.status ≠ .batch)
    (same : view.lastRequestId = exchange.sender.lastRequestId)
    (numbered : sent.reply.requestId < exchange.receiver.nextRequestId)
    (more : exchange.pulled ⊆ pulled)
    (turns : validPolicy lease.policy = true → sent.reply.requestId ≠ 0 →
      sent.reply.epoch = workerTransferEpoch lease → Turns exchange ⟨sent.reply, again⟩) :
    (exchange.after sent again pulled).Kept lease := by
  have unstaged : exchange.staged ++ SenderKept.stagedBy sent = exchange.staged := by
    rw [SenderKept.stagedBy_other other, List.append_nil]
  have seen : sent.sender.lastRequestId = view.lastRequestId :=
    congrArg SenderView.lastRequestId ends.view
  have idles : Idles exchange (exchange.after sent again pulled) [⟨sent.reply, again⟩] :=
    ⟨rfl, rfl, rfl, unstaged, seen.trans same, ends.ongoing.clock, rfl, more⟩
  refine kept.idles idles (viewed.ends ends other) ?_ ?_
  · intro answer member
    rw [List.mem_singleton.1 member]
    exact numbered
  · intro authorized answer member
    rw [List.mem_singleton.1 member]
    exact turns authorized

theorem Exchange.Kept.next_pos (kept : exchange.Kept lease) :
    0 < exchange.receiver.nextRequestId :=
  (Nat.zero_le _).trans_lt kept.last

theorem Exchange.Kept.tick (kept : exchange.Kept lease) (meanwhile : Meanwhile) :
    Kept (exchange.sent (exchange.sender.tick meanwhile exchange.queue exchange.queue.clock 0) false)
      lease := by
  obtain ⟨ticks, answers⟩ :=
    tick_spec meanwhile exchange.sender kept.sender.rests (Nat.le_refl _) 0
  generalize exchange.sender.tick meanwhile exchange.queue exchange.queue.clock 0 = sent
    at ticks answers ⊢
  have numbered : sent.reply.requestId < exchange.receiver.nextRequestId :=
    answers.requestId ▸ kept.next_pos
  have silent : validPolicy lease.policy = true → sent.reply.requestId ≠ 0 →
      sent.reply.epoch = workerTransferEpoch lease → Turns exchange ⟨sent.reply, false⟩ :=
    fun _ asked => absurd answers.requestId asked
  cases ticks with
  | idle status same active begun unexpired ends =>
      exact kept.unasked kept.sender ends (by rw [status]; decide) rfl numbered
        (List.Subset.refl _) silent
  | disabled status inactive ends =>
      exact kept.unasked kept.sender ends (by rw [status]; decide) rfl numbered
        (List.Subset.refl _) silent
  | closed status active ends =>
      exact kept.unasked (kept.sender.closed active) ends
        (by rcases status with status | status <;> rw [status] <;> decide) rfl numbered
        (List.Subset.refl _) silent

theorem Exchange.Kept.revokeSender (kept : exchange.Kept lease)
    (epoch : NativeWorkerTransferEpoch) (reason : NativeWorkerTransferStatus)
    (meanwhile : Meanwhile) :
    Kept (exchange.sent (exchange.sender.revoke meanwhile exchange.queue epoch reason) false)
      lease := by
  obtain ⟨ended, other, unnumbered⟩ :=
    revoke_spec meanwhile exchange.sender kept.sender.rests (Nat.le_refl _) epoch reason
  generalize exchange.sender.revoke meanwhile exchange.queue epoch reason = sent
    at ended other unnumbered ⊢
  have numbered : sent.reply.requestId < exchange.receiver.nextRequestId :=
    unnumbered ▸ kept.next_pos
  rcases ended with ends | ⟨active, ends⟩
  · exact kept.unasked kept.sender ends other rfl numbered (List.Subset.refl _)
      fun _ asked => absurd unnumbered asked
  · exact kept.unasked (kept.sender.closed active) ends other rfl numbered
      (List.Subset.refl _) fun _ asked => absurd unnumbered asked

/-- A request that the sender has not seen is the one that is out, and acknowledges all
that is published. -/
theorem Exchange.Turn.asks (turn : exchange.Turn lease) {request : NativeWorkerPull}
    (asked : request ∈ exchange.requests) (below : request.requestId < exchange.receiver.nextRequestId)
    (fresh : exchange.sender.lastRequestId < request.requestId) :
    exchange.Asked lease ∧ request.requestId = exchange.receiver.outstandingRequestId ∧
      exchange.staged = exchange.published ∧
      request.acknowledged = ackOf lease exchange.published.length ∧
      (∀ answer ∈ exchange.answers, exchange.Matches lease answer →
        Closing answer.reply.status) := by
  cases turn.position with
  | resting outstanding pending lastBatchId staged next => omega
  | holding outstanding lastBatchId staged next => omega
  | asking out staged last acknowledged answers =>
      have next := out.next
      have same : request.requestId = exchange.receiver.outstandingRequestId := by omega
      exact ⟨out, same, staged, acknowledged request asked same, answers⟩
  | answering out accepted answers =>
      have next := out.next
      omega

/-- A call that takes up a request. -/
theorem Exchange.Kept.taken (kept : exchange.Kept lease) {request : NativeWorkerPull}
    (asked : request ∈ exchange.requests)
    (fresh : exchange.sender.lastRequestId < request.requestId)
    (sender : SenderKept lease sent.queue sent.sender.view
      (exchange.staged ++ SenderKept.stagedBy sent))
    (last : sent.sender.lastRequestId = request.requestId)
    (clock : exchange.queue.clock ≤ sent.queue.clock)
    (numbered : sent.reply.requestId = request.requestId)
    (takes : exchange.Turn lease → exchange.Asked lease → exchange.staged = exchange.published →
      request.acknowledged = ackOf lease exchange.published.length →
        (exchange.after sent again (exchange.pulled ++ [request.requestId])).Takes
          ⟨sent.reply, again⟩) :
    (exchange.after sent again (exchange.pulled ++ [request.requestId])).Kept lease where
  sender := sender
  phase := by
    rcases kept.phase with untouched | configured
    · rw [untouched.requests] at asked
      cases asked
    · exact .inr configured
  requests := kept.requests
  answers := by
    refine List.forall_mem_append.2 ⟨kept.answers, fun answer member => ?_⟩
    rw [List.mem_singleton.1 member]
    exact numbered ▸ (kept.requests request asked).2
  last := last ▸ (kept.requests request asked).2
  pulled := fun _ => last ▸ List.mem_append_right _ List.mem_cons_self
  published := kept.published.trans (List.prefix_append _ _)
  turn := by
    intro active
    have turn := kept.turn active
    obtain ⟨out, same, staged, acknowledged, before⟩ :=
      turn.asks asked (kept.requests request asked).2 fresh
    refine ⟨turn.leased, turn.authorized, turn.lastAck, turn.lastSequence, .answering ?_ ?_ ?_⟩
    · exact out.later rfl rfl clock
    · exact last.trans same
    · intro answer member found
      rcases List.mem_append.1 member with old | new
      · exact .closing (before answer old ⟨found.requestId, found.epoch⟩)
      · rw [List.mem_singleton.1 new]
        exact takes turn out staged acknowledged

/-- Whoever acknowledges all that is published is not refused. -/
theorem SenderKept.refuses_other {queue : Queue} {view : SenderView}
    {staged : List NativeWorkerBatch} (kept : SenderKept lease queue view staged)
    (active : view.active = true)
    (differs : view.pending.batchId ≠ 0 →
      ackOf lease staged.length ≠ ⟨view.pending.epoch, view.pending.batchId⟩)
    (unlike : view.pending.batchId = 0 → ackOf lease staged.length ≠ view.lastAck) : False := by
  by_cases none : view.pending.batchId = 0
  · exact unlike none (kept.acked active (kept.pending_iff.1 none)).symm
  · rcases kept.pending with empty | ⟨-, last⟩
    · exact none (kept.pending_iff.2 empty)
    · have id := kept.batchId_last last
      refine differs none ?_
      rw [ackOf, if_neg (id ▸ none), (kept.batches _ (List.mem_of_getLast? last)).epoch, id]

theorem deadline_mono {nowNs laterNs : Nat} (later : nowNs ≤ laterNs)
    (unexpired : laterNs < lease.policy.expiresAtMonotonicNs) (interval : Nat) :
    deadline lease nowNs interval ≤ deadline lease laterNs interval := by
  rw [deadline, deadline]
  omega

theorem Exchange.Kept.fills {view : SenderView} (kept : exchange.Kept lease)
    {request : NativeWorkerPull} (asked : request ∈ exchange.requests)
    (fresh : exchange.sender.lastRequestId < request.requestId)
    (viewed : SenderKept lease exchange.queue view exchange.staged) (active : view.active = true)
    (last : view.lastRequestId = request.requestId) (nothing : view.pending = {})
    (unexpired : exchange.queue.clock < lease.policy.expiresAtMonotonicNs)
    (numbered : sent.reply.requestId = request.requestId)
    (repeats : sent.reply.batch = sent.sender.pending)
    (fills : Fills lease exchange.queue.clock exchange.queue view sent) :
    (exchange.after sent again (exchange.pulled ++ [request.requestId])).Kept lease := by
  have sender := viewed.fills active unexpired nothing fills
  cases fills with
  | exhausted status ends =>
      refine kept.taken asked fresh sender ?_ ends.ongoing.clock numbered fun _ _ _ _ => ?_
      · exact (congrArg SenderView.lastRequestId ends.view).trans last
      · exact .closing (.inr (.inr (.inr status)))
  | idle status ends =>
      refine kept.taken asked fresh sender ?_ ends.ongoing.clock numbered fun _ _ staged _ => ?_
      · exact (congrArg SenderView.lastRequestId ends.view).trans last
      · refine .quiet status ?_ ?_
        · exact repeats.trans ((congrArg SenderView.pending ends.view).trans nothing)
        · show exchange.staged ++ SenderKept.stagedBy sent = exchange.published
          rw [SenderKept.stagedBy_other (by rcases status with status | status <;> rw [status] <;> decide),
            List.append_nil, staged]
  | staged status more stages =>
      refine kept.taken asked fresh sender ?_ stages.clock numbered fun turn out staged _ => ?_
      · exact (congrArg SenderView.lastRequestId stages.after).trans last
      · refine .batch status ?_ ?_
        · show exchange.staged ++ SenderKept.stagedBy sent = exchange.published ++ [sent.reply.batch]
          rw [SenderKept.stagedBy, if_pos (beq_iff_eq.2 status), staged]
        · obtain ⟨nowNs, past, made⟩ := out.deadline
          show exchange.receiver.requestDeadlineNs ≤ sent.reply.batch.acknowledgmentDeadlineNs
          rw [made, stages.deadline]
          exact deadline_mono past unexpired _

theorem Exchange.Kept.pull (kept : exchange.Kept lease) {request : NativeWorkerPull}
    (asked : request ∈ exchange.requests) (meanwhile : Meanwhile) :
    (exchange.pulls request meanwhile).Kept lease := by
  have pulls := pull_spec meanwhile exchange.sender request
    kept.sender.rests (Nat.le_refl _)
  have answers := pull_answers meanwhile exchange.sender request
    kept.sender.rests (Nat.le_refl _)
  obtain ⟨named, below⟩ := kept.requests request asked
  rw [Exchange.pulls]
  generalize exchange.sender.pull meanwhile exchange.queue request exchange.queue.clock = sent
    at pulls answers ⊢
  have numbered : sent.reply.requestId < exchange.receiver.nextRequestId := answers.requestId ▸ below
  have more : exchange.pulled ⊆ exchange.pulled ++ [request.requestId] :=
    List.subset_append_left _ _
  cases pulls with
  | stale status differs ends =>
      refine kept.unasked kept.sender ends (by rw [status]; decide) rfl numbered more ?_
      intro authorized _ epoch
      refine absurd ?_ differs
      rw [named, ← epoch, answers.epoch]
  | disabled status inactive ends =>
      exact kept.unasked kept.sender ends (by rw [status]; decide) rfl numbered more
        fun _ _ _ => .inl (.inl status)
  | closed status active ends =>
      have closing : Closing sent.reply.status :=
        .inr (status.imp_right .inl)
      exact kept.unasked (kept.sender.closed active) ends closing.other rfl numbered more
        fun _ _ _ => .inl closing
  | replayed status active old ends =>
      refine kept.unasked kept.sender ends (by rw [status]; decide) rfl numbered more
        fun _ nonzero _ => .inr ⟨status, ?_, ?_⟩
      · show sent.reply.requestId ≤ _
        rw [answers.requestId] at nonzero ⊢
        exact old.resolve_left nonzero
      · exact congrArg exchange.pulled.contains answers.requestId.symm
  | refused status active fresh differs unlike ends =>
      have viewed := kept.sender.requested active request.requestId
      have sender := viewed.ends ends
        (by rcases status with status | status <;> rw [status] <;> decide)
      refine kept.taken asked fresh sender ?_ ends.ongoing.clock answers.requestId
        fun _ _ staged acknowledged => ?_
      · exact congrArg SenderView.lastRequestId ends.view
      · rw [acknowledged, ← staged] at differs unlike
        exact (kept.sender.refuses_other active differs unlike).elim
  | repeated active fresh unexpired pending fills =>
      obtain ⟨-, same⟩ := kept.sender.active_leased active
      have same : exchange.sender.lease = lease := same
      rw [same] at unexpired fills
      exact kept.fills asked fresh (kept.sender.requested active request.requestId) active rfl
        (kept.sender.pending_iff.1 pending) unexpired answers.requestId answers.batch fills
  | acknowledged active fresh unexpired pending names fills =>
      obtain ⟨-, same⟩ := kept.sender.active_leased active
      have same : exchange.sender.lease = lease := same
      rw [same] at unexpired fills
      exact kept.fills asked fresh
        ((kept.sender.requested active request.requestId).acknowledged active pending) active rfl
        rfl unexpired answers.requestId answers.batch fills

theorem Exchange.Kept.configureSender (kept : exchange.Kept lease) (meanwhile : Meanwhile) :
    Kept (exchange.moved lease (.configureSender meanwhile)) lease := by
  obtain ⟨sender, last, clock⟩ := kept.sender.configure meanwhile
  exact kept.idles ⟨rfl, rfl, rfl, rfl, last, clock, (List.append_nil _).symm, List.Subset.refl _⟩
    sender (fun _ member => absurd member List.not_mem_nil)
    fun _ _ member => absurd member List.not_mem_nil

/-! ## The receiver -/

open NativeWorkerTransferReceiver

variable {receiver : NativeWorkerTransferReceiver}

/-- The receiver is not active any more. -/
theorem Exchange.Kept.withdrawn (kept : exchange.Kept lease) (inactive : receiver.active = false)
    (greatest : receiver.greatestGeneration = exchange.receiver.greatestGeneration)
    (next : receiver.nextRequestId = exchange.receiver.nextRequestId) :
    Kept { exchange with receiver := receiver } lease :=
  { kept with
    phase := kept.phase.imp
      (fun untouched => { untouched with inactive := inactive, next := next.trans untouched.next })
      fun configured => greatest.trans configured
    requests := fun request asked => next.symm ▸ kept.requests request asked
    answers := fun answer member => next.symm ▸ kept.answers answer member
    last := next.symm ▸ kept.last
    turn := fun active => absurd (inactive.symm.trans active) Bool.false_ne_true }

theorem Exchange.Kept.configured (kept : exchange.Kept lease) (active : exchange.receiver.active = true) :
    exchange.receiver.greatestGeneration = lease.policy.generation := by
  rcases kept.phase with untouched | configured
  · rw [untouched.inactive] at active
    cases active
  · exact configured

/-- The receiver hands the turn on. -/
theorem Exchange.Kept.turned (kept : exchange.Kept lease)
    (active : exchange.receiver.active = true)
    (greatest : receiver.greatestGeneration = exchange.receiver.greatestGeneration)
    (next : receiver.nextRequestId = exchange.receiver.nextRequestId)
    (turn : Turn { exchange with receiver := receiver } lease) :
    Kept { exchange with receiver := receiver } lease :=
  { kept with
    phase := .inr (greatest.trans (kept.configured active))
    requests := fun request asked => next.symm ▸ kept.requests request asked
    answers := fun answer member => next.symm ▸ kept.answers answer member
    last := next.symm ▸ kept.last
    turn := fun _ => turn }

theorem Exchange.Kept.revoked (kept : exchange.Kept lease) :
    Kept { exchange with receiver := exchange.receiver.revoke } lease :=
  kept.withdrawn rfl rfl rfl

theorem isCurrent_valid {authority : NativeWorkerAuthority} {nowNs : Nat}
    (current : authority.isCurrent lease nowNs = true) :
    isValidNativeWorkerLease lease nowNs = true := by
  rw [NativeWorkerAuthority.isCurrent, Bool.and_eq_true, Bool.and_eq_true] at current
  exact current.1.2

theorem Exchange.Kept.configureReceiver (kept : exchange.Kept lease)
    (authority : NativeWorkerAuthority) :
    Kept { exchange with
      receiver := (exchange.receiver.configure authority exchange.queue.clock lease).2 } lease := by
  rw [NativeWorkerTransferReceiver.configure]
  split
  case isTrue => exact kept
  case isFalse allowed =>
  simp only [Bool.or_eq_true, decide_eq_true_eq, not_or, Nat.not_le, Bool.not_eq_true',
    Bool.not_eq_false] at allowed
  obtain ⟨⟨-, newer⟩, current⟩ := allowed
  obtain ⟨authorized, -⟩ := validLease (isCurrent_valid current)
  rcases kept.phase with untouched | configured
  · obtain ⟨requests, published, staged, lastRequestId, -, next⟩ := untouched
    have first : exchange.sender.lastRequestId < 1 := lastRequestId ▸ Nat.one_pos
    refine { kept with
      phase := .inr rfl
      requests := fun request asked => absurd (requests ▸ asked) List.not_mem_nil
      answers := fun answer member => next ▸ kept.answers answer member
      last := first
      turn := fun _ => ⟨rfl, authorized, ?_, ?_, ?_⟩ }
    · show {} = ackOf lease exchange.published.length
      rw [published]
      rfl
    · show 0 = lastPublished exchange.published
      rw [published]
      rfl
    · refine .resting rfl rfl ?_ ?_ ?_
      · show 0 = exchange.published.length
        rw [published]
        rfl
      · exact staged.trans published.symm
      · show exchange.sender.lastRequestId + 1 = 1
        rw [lastRequestId]
  · omega

/-- A batch that was staged last is numbered by how many were staged. -/
theorem Exchange.Kept.held (kept : exchange.Kept lease)
    (staged : exchange.staged = exchange.published ++ [exchange.receiver.pending]) :
    exchange.receiver.pending.batchId = exchange.published.length + 1 ∧
      Staged lease exchange.queue.clock exchange.receiver.pending := by
  have last : exchange.staged.getLast? = some exchange.receiver.pending := by
    rw [staged, List.getLast?_concat]
  refine ⟨?_, kept.sender.batches _ (List.mem_of_getLast? last)⟩
  rw [kept.sender.batchId_last last, staged, List.length_append, List.length_singleton]

/-- What `Request` comes to. -/
inductive Requests (receiver : NativeWorkerTransferReceiver) (nowNs : Nat)
    (asked : NativeWorkerTransferStatus × NativeWorkerPull × NativeWorkerTransferReceiver) :
    Prop where
  | refused (status : asked.1 ≠ .requestReady)
      (after : asked.2.2 = receiver ∨ asked.2.2 = receiver.revoke)
  | ready (status : asked.1 = .requestReady) (active : receiver.active = true)
      (outstanding : receiver.outstandingRequestId = 0) (pending : receiver.pending.batchId = 0)
      (pull : asked.2.1 =
        ⟨workerTransferEpoch receiver.lease, receiver.nextRequestId, receiver.lastAck⟩)
      (after : asked.2.2 = { receiver with
        nextRequestId := receiver.nextRequestId + 1
        outstandingRequestId := receiver.nextRequestId
        requestDeadlineNs := deadline receiver.lease nowNs kNativeWorkerAckTimeoutNs
        nextRequestNotBeforeNs := deadline receiver.lease nowNs kNativeWorkerMinPollIntervalNs })

theorem request_spec (receiver : NativeWorkerTransferReceiver) (authority : NativeWorkerAuthority)
    (nowNs : Nat) : Requests receiver nowNs (receiver.request authority nowNs) := by
  rw [NativeWorkerTransferReceiver.request]
  split
  · exact .refused (by rintro ⟨⟩) (.inl rfl)
  next active =>
  split
  · refine .refused ?_ (.inr rfl)
    show lapsed receiver nowNs ≠ .requestReady
    rw [lapsed]
    split <;> rintro ⟨⟩
  split
  · exact .refused (by rintro ⟨⟩) (.inr rfl)
  split
  · exact .refused (by rintro ⟨⟩) (.inl rfl)
  next free =>
  split
  · exact .refused (by rintro ⟨⟩) (.inr rfl)
  · simp only [Bool.or_eq_true, bne_iff_ne, not_or, ne_eq, not_not] at free
    exact .ready rfl (by simpa using active) free.1.1 free.1.2 rfl rfl

theorem Exchange.Kept.request (kept : exchange.Kept lease) (authority : NativeWorkerAuthority) :
    (exchange.requested authority).Kept lease := by
  have requests := request_spec exchange.receiver authority exchange.queue.clock
  rw [Exchange.requested]
  generalize exchange.receiver.request authority exchange.queue.clock = asked at requests ⊢
  obtain ⟨status, pull, receiver⟩ := asked
  cases requests with
  | refused refusal after =>
      have refusal : status ≠ .requestReady := refusal
      dsimp only
      rw [if_neg (fun same => refusal (beq_iff_eq.1 same)), List.append_nil]
      rcases after with rfl | rfl
      · exact kept
      · exact kept.revoked
  | ready ready active outstanding pending asks after =>
      obtain rfl : status = .requestReady := ready
      obtain ⟨leased, authorized, lastAck, lastSequence, position⟩ := kept.turn active
      obtain rfl : pull = ⟨workerTransferEpoch exchange.receiver.lease,
        exchange.receiver.nextRequestId, exchange.receiver.lastAck⟩ := asks
      have fewer : ∀ {requestId}, requestId < exchange.receiver.nextRequestId →
        requestId < exchange.receiver.nextRequestId + 1 := Nat.lt_succ_of_lt
      obtain rfl := after
      obtain ⟨nothing, lastBatchId, staged, next⟩ : exchange.receiver.pending = {} ∧
          exchange.receiver.lastBatchId = exchange.published.length ∧
          exchange.staged = exchange.published ∧
          exchange.sender.lastRequestId + 1 = exchange.receiver.nextRequestId := by
        cases position with
        | resting _ nothing lastBatchId staged next => exact ⟨nothing, lastBatchId, staged, next⟩
        | holding _ _ staged _ =>
            have id := (kept.held staged).1
            omega
        | asking asked | answering asked => exact absurd outstanding asked.nonzero
      refine { kept with
        phase := .inr (kept.configured active)
        requests := ?_
        answers := fun answer member => fewer (kept.answers answer member)
        last := fewer kept.last
        turn := fun _ => ⟨leased, authorized, lastAck, lastSequence, .asking ?_ staged next ?_ ?_⟩ }
      · refine List.forall_mem_append.2 ⟨fun request before => ?_, fun request new => ?_⟩
        · exact ⟨(kept.requests request before).1, fewer (kept.requests request before).2⟩
        · rw [List.mem_singleton.1 new]
          exact ⟨congrArg workerTransferEpoch leased, Nat.lt_succ_self _⟩
      · refine ⟨rfl, Nat.ne_of_gt kept.next_pos, nothing, lastBatchId, _, Nat.le_refl _, ?_⟩
        show deadline exchange.receiver.lease _ _ = _
        rw [leased]
      · refine List.forall_mem_append.2 ⟨fun request before named => ?_, fun request new _ => ?_⟩
        · exact absurd named (Nat.ne_of_lt (kept.requests request before).2)
        · rw [List.mem_singleton.1 new]
          exact lastAck
      · intro answer member found
        exact absurd found.requestId (Nat.ne_of_lt (kept.answers answer member))

/-! ## What is received and published -/

theorem slotsValid_empty (lease : NativeWorkerLease) (nowNs sequence slots : Nat) :
    slotsValid lease nowNs 0 sequence (List.replicate slots ({} : NativeWorkerObservation)) = true := by
  induction slots with
  | zero => rfl
  | succ slots ih =>
      rw [List.replicate_succ, slotsValid, ih, beq_self_eq_true, Bool.and_self]

theorem slotsValid_used {nowNs slots : Nat} (records : List NativeWorkerObservation) {sequence : Nat}
    (valid : ∀ record ∈ records, isValidNativeWorkerObservation record lease.policy nowNs = true ∧
      lease.issuedAtNs ≤ record.monotonicTimeNs)
    (ordered : records.Pairwise (·.sequence < ·.sequence))
    (after : ∀ record ∈ records, sequence < record.sequence) :
    slotsValid lease nowNs records.length sequence
      (records ++ List.replicate slots ({} : NativeWorkerObservation)) = true := by
  induction records generalizing sequence with
  | nil => exact slotsValid_empty lease nowNs sequence slots
  | cons record rest ih =>
      obtain ⟨first, others⟩ := List.forall_mem_cons.1 valid
      obtain ⟨follows, ordered⟩ := List.pairwise_cons.1 ordered
      have sooner : sequence < record.sequence := after record List.mem_cons_self
      simp only [List.length_cons, List.cons_append, slotsValid, first.1, sooner, first.2,
        ih others ordered follows, decide_true, Bool.and_self]

/-- A record of sequence 0 is not valid. -/
theorem isValid_sequence {record : NativeWorkerObservation} {policy : NativeWorkerObservationPolicy}
    {nowNs : Nat} (valid : isValidNativeWorkerObservation record policy nowNs = true) :
    0 < record.sequence := by
  rw [isValidNativeWorkerObservation] at valid
  split at valid
  · cases valid
  next sound =>
  simp only [Bool.or_eq_true, not_or, beq_iff_eq] at sound
  exact Nat.pos_of_ne_zero (by tauto)

/-- The records of the batch that was staged last, at a time the lease has not reached its end. -/
theorem Exchange.Kept.slots (kept : exchange.Kept lease) {batch : NativeWorkerBatch}
    (staged : exchange.staged = exchange.published ++ [batch])
    (unexpired : exchange.queue.clock < lease.policy.expiresAtMonotonicNs) :
    slotsValid lease exchange.queue.clock batch.count (lastPublished exchange.published)
      batch.records = true := by
  have member : batch ∈ exchange.staged := staged ▸ List.mem_append_right _ List.mem_cons_self
  obtain ⟨records, holds⟩ := (kept.sender.batches batch member).holds
  have used : ∀ record ∈ records, record ∈ exchange.staged.flatMap NativeWorkerBatch.used :=
    fun record mine => List.mem_flatMap.2 ⟨batch, member, holds.used.symm ▸ mine⟩
  have valid : ∀ record ∈ records,
      isValidNativeWorkerObservation record lease.policy exchange.queue.clock = true ∧
        lease.issuedAtNs ≤ record.monotonicTimeNs := by
    intro record mine
    obtain ⟨recorded, issued, past⟩ := kept.sender.used_recorded (used record mine)
    exact ⟨recorded.valid _ past unexpired, issued⟩
  have increasing := kept.sender.increasing
  rw [staged, List.flatMap_append, List.flatMap_singleton, holds.used] at increasing
  obtain ⟨-, ordered, across⟩ := List.pairwise_append.1 increasing
  rw [holds.slots, holds.count]
  refine slotsValid_used records valid ordered fun record mine => ?_
  rw [lastPublished]
  cases last : (exchange.published.flatMap NativeWorkerBatch.used).getLast? with
  | none => exact isValid_sequence (valid record mine).1
  | some earlier => exact across earlier (List.mem_of_getLast? last) record mine

theorem lastUsed_published {published : List NativeWorkerBatch} {batch : NativeWorkerBatch}
    {records : List NativeWorkerObservation} (holds : batch.Holds records) :
    lastUsed batch (lastPublished published) = lastPublished (published ++ [batch]) := by
  rw [lastPublished, lastPublished, lastUsed, List.flatMap_append, List.flatMap_singleton, holds.used,
    holds.count, holds.slots, List.getLast?_append]
  cases last : records.getLast? with
  | none =>
      rw [List.getLast?_eq_none_iff.1 last]
      rfl
  | some record =>
      rw [List.getLast?_eq_getElem?] at last
      obtain ⟨below, same⟩ := List.getElem?_eq_some_iff.1 last
      rw [if_pos (bne_iff_ne.2 (by omega)), List.getD_append _ _ _ _ below, List.getD_eq_getElem _ _ below,
        same]
      rfl

/-- A reply is refused by the receiver. -/
def Refusal (status : NativeWorkerTransferStatus) : Prop :=
  status = .invalid ∨ status = .invalidAcknowledgment

theorem lapsed_sound (receiver : NativeWorkerTransferReceiver) (nowNs : Nat) :
    ¬ Refusal (receiver.lapsed nowNs) := by
  rw [lapsed]
  split <;> rintro (⟨⟨⟩⟩ | ⟨⟨⟩⟩)

/-- While a request is out, an answer to it is one to take; if the sender is not closed, the
sender has taken the request up. -/
theorem Exchange.Turn.takes (turn : exchange.Turn lease) {answer : Answered}
    (member : answer ∈ exchange.answers) (found : exchange.Matches lease answer)
    (outstanding : exchange.receiver.outstandingRequestId ≠ 0) :
    exchange.Asked lease ∧ (Closing answer.reply.status ∨ (exchange.Takes answer ∧
      exchange.sender.lastRequestId = exchange.receiver.outstandingRequestId)) := by
  cases turn.position with
  | resting none => exact absurd none outstanding
  | holding none => exact absurd none outstanding
  | asking asked _ _ _ answers => exact ⟨asked, .inl (answers answer member found)⟩
  | answering asked accepted answers => exact ⟨asked, .inr ⟨answers answer member found, accepted⟩⟩

theorem Exchange.Kept.headValid (kept : exchange.Kept lease) (turn : exchange.Turn lease)
    (asked : exchange.Asked lease) {reply : NativeWorkerTransferReply}
    (epoch : reply.epoch = workerTransferEpoch lease)
    (staged : exchange.staged = exchange.published ++ [reply.batch])
    (timely : exchange.queue.clock < exchange.receiver.requestDeadlineNs)
    (deadline : exchange.receiver.requestDeadlineNs ≤ reply.batch.acknowledgmentDeadlineNs)
    (unexpired : exchange.queue.clock < lease.policy.expiresAtMonotonicNs) :
    exchange.receiver.headValid exchange.queue.clock reply = true := by
  have last : exchange.staged.getLast? = some reply.batch := by
    rw [staged, List.getLast?_concat]
  obtain ⟨⟨records, holds⟩, version, named, ⟨nowNs, past, -, made⟩, queued⟩ :=
    kept.sender.batches _ (List.mem_of_getLast? last)
  have id : reply.batch.batchId = exchange.published.length + 1 := by
    rw [kept.sender.batchId_last last, staged, List.length_append, List.length_singleton]
  have fits : reply.batch.count ≤ kNativeWorkerBatchCapacity := holds.count ▸ holds.fits
  have newer : exchange.receiver.lastBatchId < reply.batch.batchId := by
    rw [asked.lastBatchId, id]
    exact Nat.lt_succ_self _
  have later : reply.batch.acknowledgmentDeadlineNs ≤
      Worker.deadline exchange.receiver.lease exchange.queue.clock kNativeWorkerAckTimeoutNs := by
    rw [turn.leased, made]
    exact deadline_mono past unexpired _
  have before : exchange.queue.clock < reply.batch.acknowledgmentDeadlineNs := timely.trans_le deadline
  simp only [NativeWorkerTransferReceiver.headValid, version, named, epoch, fits, newer, later, before,
    queued, beq_self_eq_true, decide_true, Bool.and_self]

theorem Closing.unquiet {status : NativeWorkerTransferStatus} (closing : Closing status) :
    ¬ (status == .idle || status == .busy) = true := by
  rcases closing with rfl | rfl | rfl | rfl <;> decide

theorem Closing.unbatched {status : NativeWorkerTransferStatus} (closing : Closing status) :
    (status != .batch && status != .awaitingAcknowledgment) = true := by
  rcases closing with rfl | rfl | rfl | rfl <;> decide

theorem Closing.accepted {status : NativeWorkerTransferStatus} (closing : Closing status) :
    ¬ Refusal (NativeWorkerTransferReceiver.closing status) := by
  rcases closing with rfl | rfl | rfl | rfl <;> rintro (⟨⟨⟩⟩ | ⟨⟨⟩⟩)

theorem Exchange.Kept.receives (kept : exchange.Kept lease) {answer : Answered}
    (member : answer ∈ exchange.answers) (authority : NativeWorkerAuthority) :
    let received := exchange.receiver.receive authority exchange.queue.clock answer.reply
    Kept { exchange with receiver := received.2 } lease ∧
      (Refusal received.1 → answer.reply.status = .invalid ∧ answer.again = true) := by
  dsimp only
  rw [NativeWorkerTransferReceiver.receive]
  split
  · exact ⟨kept, by rintro (⟨⟨⟩⟩ | ⟨⟨⟩⟩)⟩
  next active =>
  split
  · exact ⟨kept, by rintro (⟨⟨⟩⟩ | ⟨⟨⟩⟩)⟩
  next addressed =>
  split
  · exact ⟨kept.revoked, fun refusal => absurd refusal (lapsed_sound _ _)⟩
  next current =>
  split
  · exact ⟨kept.revoked, by rintro (⟨⟨⟩⟩ | ⟨⟨⟩⟩)⟩
  next timely =>
  have active : exchange.receiver.active = true := by simpa using active
  have turn := kept.turn active
  simp only [Bool.or_eq_true, bne_iff_ne, beq_iff_eq, not_or, ne_eq, not_not] at addressed
  obtain ⟨⟨epoch, outstanding⟩, requestId⟩ := addressed
  have found : exchange.Matches lease answer := ⟨requestId, turn.leased ▸ epoch⟩
  have unexpired : exchange.queue.clock < lease.policy.expiresAtMonotonicNs := by
    have current : authority.isCurrent exchange.receiver.lease exchange.queue.clock = true := by
      simpa using current
    exact turn.leased ▸ (validLease (isCurrent_valid current)).2.2
  obtain ⟨asked, closing | ⟨takes, accepted⟩⟩ := turn.takes member found outstanding
  · rw [if_neg closing.unquiet, if_pos closing.unbatched]
    exact ⟨kept.withdrawn rfl rfl rfl, fun refusal => absurd refusal closing.accepted⟩
  cases takes with
  | closing closing =>
      rw [if_neg closing.unquiet, if_pos closing.unbatched]
      exact ⟨kept.withdrawn rfl rfl rfl, fun refusal => absurd refusal closing.accepted⟩
  | replayed status again =>
      rw [if_neg (by rw [status]; decide), if_pos (by rw [status]; decide)]
      exact ⟨kept.withdrawn rfl rfl rfl, fun _ => ⟨status, again⟩⟩
  | quiet status nothing staged =>
      have quiet : (answer.reply.status == .idle || answer.reply.status == .busy) = true := by
        rcases status with status | status <;> rw [status] <;> decide
      rw [if_pos quiet, if_neg (bne_iff_ne.not.2 (not_not.2 nothing))]
      refine ⟨kept.turned active rfl rfl ⟨turn.leased, turn.authorized, turn.lastAck,
        turn.lastSequence, .resting rfl asked.pending asked.lastBatchId staged ?_⟩, ?_⟩
      · show exchange.sender.lastRequestId + 1 = exchange.receiver.nextRequestId
        rw [accepted, asked.next]
      · intro refusal
        rcases status with status | status <;> rcases refusal with refusal | refusal <;>
          exact absurd (status.symm.trans refusal) (by decide)
  | batch status staged deadline =>
      have head : NativeWorkerTransferReceiver.headValid
          { exchange.receiver with outstandingRequestId := 0 } exchange.queue.clock answer.reply = true :=
        kept.headValid turn asked found.epoch staged (by simpa using timely) deadline unexpired
      have slots : slotsValid exchange.receiver.lease exchange.queue.clock answer.reply.batch.count
          exchange.receiver.lastSequence answer.reply.batch.records = true := by
        rw [turn.leased, turn.lastSequence]
        exact kept.slots staged unexpired
      rw [if_neg (by rw [status]; decide), if_neg (by rw [status]; decide), head, slots]
      have last : exchange.staged.getLast? = some answer.reply.batch := by
        rw [staged, List.getLast?_concat]
      refine ⟨kept.turned active rfl rfl ⟨turn.leased, turn.authorized, turn.lastAck,
        turn.lastSequence, .holding rfl ?_ staged ?_⟩, by rintro (⟨⟨⟩⟩ | ⟨⟨⟩⟩)⟩
      · show answer.reply.batch.batchId = exchange.published.length + 1
        rw [kept.sender.batchId_last last, staged, List.length_append, List.length_singleton]
      · show exchange.sender.lastRequestId + 1 = exchange.receiver.nextRequestId
        rw [accepted, asked.next]

theorem Exchange.Kept.pendingForPublication (kept : exchange.Kept lease)
    (authority : NativeWorkerAuthority) :
    Kept { exchange with
      receiver := (exchange.receiver.pendingForPublication authority exchange.queue.clock).2 }
      lease := by
  rw [NativeWorkerTransferReceiver.pendingForPublication]
  split
  · exact kept.revoked
  · exact kept

theorem Exchange.Kept.acknowledgePublished (kept : exchange.Kept lease)
    (authority : NativeWorkerAuthority) (batch : NativeWorkerBatchAck) :
    (exchange.acknowledges authority batch).Kept lease := by
  have unpublished : exchange.published ++ [] = exchange.published := List.append_nil _
  rw [Exchange.acknowledges, NativeWorkerTransferReceiver.acknowledgePublished]
  split
  case isTrue =>
    dsimp only
    rw [if_neg Bool.false_ne_true, unpublished]
    exact kept.revoked
  case isFalse allowed =>
  split
  case isTrue =>
    dsimp only
    rw [if_neg Bool.false_ne_true, unpublished]
    exact kept
  case isFalse named =>
  simp only [Bool.or_eq_true, Bool.not_eq_true', not_or, Bool.not_eq_false] at allowed
  simp only [Bool.or_eq_true, beq_iff_eq, bne_iff_ne, not_or, ne_eq, not_not] at named
  obtain ⟨pending, rfl⟩ := named
  have active := allowed.1.1
  have turn := kept.turn active
  obtain ⟨outstanding, lastBatchId, staged, next⟩ :
      exchange.receiver.outstandingRequestId = 0 ∧
        exchange.receiver.lastBatchId = exchange.published.length + 1 ∧
        exchange.staged = exchange.published ++ [exchange.receiver.pending] ∧
        exchange.sender.lastRequestId + 1 = exchange.receiver.nextRequestId := by
    cases turn.position with
    | holding outstanding lastBatchId staged next => exact ⟨outstanding, lastBatchId, staged, next⟩
    | resting _ nothing => exact absurd (congrArg NativeWorkerBatch.batchId nothing) pending
    | asking asked | answering asked =>
        exact absurd (congrArg NativeWorkerBatch.batchId asked.pending) pending
  obtain ⟨id, held⟩ := kept.held staged
  obtain ⟨records, holds⟩ := held.holds
  have longer : (exchange.published ++ [exchange.receiver.pending]).length =
      exchange.published.length + 1 := List.length_append
  dsimp only
  rw [if_pos rfl]
  refine { kept with
    phase := .inr (kept.configured active)
    published := staged ▸ List.prefix_refl _
    turn := fun _ => ⟨turn.leased, turn.authorized, ?_, ?_,
      .resting outstanding rfl (lastBatchId.trans longer.symm) staged next⟩ }
  · show (⟨exchange.receiver.pending.epoch, exchange.receiver.pending.batchId⟩ : NativeWorkerBatchAck) =
      ackOf lease (exchange.published ++ [exchange.receiver.pending]).length
    rw [ackOf, longer, if_neg (Nat.succ_ne_zero _), held.epoch, id]
  · show lastUsed exchange.receiver.pending exchange.receiver.lastSequence = _
    rw [turn.lastSequence, lastUsed_published holds]

/-! ## Runs -/

theorem Exchange.Kept.moved (kept : exchange.Kept lease) (move : TransferMove) :
    (exchange.moved lease move).Kept lease := by
  cases move with
  | work worker => exact kept.ongoing (.worked kept.sender.rests (Nat.le_refl _) worker)
  | configureSender meanwhile => exact kept.configureSender meanwhile
  | pull place meanwhile =>
      rw [Exchange.moved]
      cases asked : exchange.requests[place]? with
      | none => exact kept
      | some request => exact kept.pull (List.mem_of_getElem? asked) meanwhile
  | tick meanwhile => exact kept.tick meanwhile
  | revokeSender epoch reason meanwhile => exact kept.revokeSender epoch reason meanwhile
  | configureReceiver authority => exact kept.configureReceiver authority
  | request authority => exact kept.request authority
  | receive place authority =>
      rw [Exchange.moved]
      cases answered : exchange.answers[place]? with
      | none => exact kept
      | some answer => exact (kept.receives (List.mem_of_getElem? answered) authority).1
  | pendingForPublication authority => exact kept.pendingForPublication authority
  | acknowledgePublished authority batch => exact kept.acknowledgePublished authority batch
  | revokeReceiver => exact kept.revoked

theorem Exchange.Kept.elapsed (kept : exchange.Kept lease) (elapsed : Nat) :
    Kept { exchange with queue := exchange.queue.elapse elapsed } lease :=
  kept.ongoing (.elapse kept.sender.rests elapsed)

theorem Exchange.Kept.run (lease : NativeWorkerLease) (moves : List (Nat × TransferMove)) :
    (Exchange.run lease moves).Kept lease := by
  have steps : ∀ {exchange : Exchange}, exchange.Kept lease →
      (moves.foldl (fun exchange move => exchange.step lease move) exchange).Kept lease := by
    induction moves with
    | nil => exact id
    | cons move rest ih => exact fun kept => ih ((kept.elapsed move.1).moved move.2)
  exact steps .start

end Reb.Worker
