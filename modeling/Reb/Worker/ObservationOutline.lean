/-
# Worker.ObservationOutline -- what every thread of the queue may rely on

What is queued, taken and retired adds up to what was accepted, every record is one
of its policy, and the records of one generation are linked: each tells how many
attempts lie between it and the record before it.  The link to the next record is
open only while the generation is readable (`Readable`) and is carried by the pending
gap only while it is active (`Carried`).

The proof outline of the queue's programs: a thread in a section finds the accounts
as it left them, and a thread in `Configure` or `Disable` finds the generations it has
withdrawn still withdrawn; everything else another thread may change under it.
-/
import Reb.Worker.ObservationQueue

namespace Reb.Worker

set_option autoImplicit false

/-- Nothing lies between the two but what the later one reports as dropped. -/
def Follows (earlier later : NativeWorkerObservation) : Prop :=
  later.sequence = earlier.sequence + 1 + later.droppedBefore

def Linked (records : List NativeWorkerObservation) : Prop := records.IsChain Follows

/-- A record of this policy, valid from its own time to the expiry. -/
structure Recorded (policy : NativeWorkerObservationPolicy) (record : NativeWorkerObservation) :
    Prop where
  authorized : validPolicy policy = true
  generation : record.generation = policy.generation
  unexpired : record.monotonicTimeNs < policy.expiresAtMonotonicNs
  bounded : record.sequence ≤ uint64Max
  valid : ∀ nowNs, record.monotonicTimeNs ≤ nowNs → nowNs < policy.expiresAtMonotonicNs →
    isValidNativeWorkerObservation record policy nowNs = true

theorem validPolicy_generation {policy : NativeWorkerObservationPolicy}
    (valid : validPolicy policy = true) : policy.generation ≠ 0 := by
  simp only [validPolicy, Bool.and_eq_true, bne_iff_ne] at valid
  tauto

theorem increment_exact {value count : Nat} (room : value + count ≤ uint64Max) :
    increment value count = value + count := by
  rw [increment]
  omega

namespace Guarded

variable (guarded : Guarded)

/-- The records of one generation that were taken, in order. -/
def takenOf (generation : Nat) : List NativeWorkerObservation :=
  (guarded.taken.map (·.record)).filter (·.generation == generation)

/-- The records of the generation in force: those taken, then those queued. -/
def current : List NativeWorkerObservation :=
  guarded.takenOf guarded.policy.generation ++ guarded.records

def Readable : Prop := Linked guarded.current

/-- The pending gap reaches from the last record to the attempts made so far. -/
def Carried : Prop :=
  ∀ last ∈ guarded.current.getLast?, last.sequence + guarded.pendingGap = guarded.attempted

structure Sound : Prop where
  configured : guarded.policy = {} ∨ validPolicy guarded.policy = true
  greatest : guarded.policy.generation = guarded.greatestGeneration
  counted : guarded.accepted =
    guarded.records.length + guarded.taken.length + guarded.retired
  attempts : guarded.accepted ≤ guarded.attempted ∧ guarded.attempted ≤ uint64Max
  fits : guarded.records.length ≤ kNativeWorkerObservationCapacity
  queued : ∀ record ∈ guarded.records, Recorded guarded.policy record
  recorded : ∀ taken ∈ guarded.taken, Recorded taken.policy taken.record ∧
    taken.nowNs < taken.policy.expiresAtMonotonicNs
  superseded : ∀ taken ∈ guarded.taken, taken.record.generation ≤ guarded.greatestGeneration
  inForce : ∀ taken ∈ guarded.taken, taken.policy.generation = guarded.policy.generation →
    taken.policy = guarded.policy
  agreed : ∀ taken ∈ guarded.taken, ∀ other ∈ guarded.taken,
    taken.policy.generation = other.policy.generation → taken.policy = other.policy
  linked : ∀ generation, Linked (guarded.takenOf generation)

variable {guarded}

theorem sound_empty : Sound {} where
  configured := .inl rfl
  greatest := rfl
  counted := rfl
  attempts := ⟨Nat.le_refl 0, Nat.zero_le _⟩
  fits := Nat.zero_le _
  queued := fun _ queued => absurd queued List.not_mem_nil
  recorded := fun _ taken => absurd taken List.not_mem_nil
  superseded := fun _ taken => absurd taken List.not_mem_nil
  inForce := fun _ taken => absurd taken List.not_mem_nil
  agreed := fun _ taken => absurd taken List.not_mem_nil
  linked := fun _ => List.isChain_nil

/-- A policy that has not expired at some time is one that was configured. -/
theorem Sound.unexpired (sound : guarded.Sound) {nowNs : Nat}
    (unexpired : nowNs < guarded.policy.expiresAtMonotonicNs) :
    validPolicy guarded.policy = true := by
  rcases sound.configured with empty | valid
  · rw [empty] at unexpired
    exact absurd unexpired (Nat.not_lt_zero _)
  · exact valid

/-! ## Clearing, dropping and counting -/

theorem Sound.clearLocked (sound : guarded.Sound) : guarded.clearLocked.Sound := by
  have exact : increment guarded.retired guarded.records.length =
      guarded.retired + guarded.records.length := by
    refine increment_exact ?_
    have := sound.counted
    have := sound.attempts
    omega
  refine { sound with
    counted := ?_, fits := Nat.zero_le _, queued := fun _ queued => absurd queued List.not_mem_nil }
  show guarded.accepted = 0 + guarded.taken.length + increment guarded.retired guarded.records.length
  rw [exact]
  have := sound.counted
  omega

theorem Sound.countStale (sound : guarded.Sound) : guarded.countStale.Sound := { sound with }

theorem Sound.dropLocked (sound : guarded.Sound) : guarded.dropLocked.Sound := { sound with }

theorem Sound.attempt (sound : guarded.Sound) (room : guarded.attempted ≠ uint64Max) :
    guarded.attempt.Sound := by
  refine { sound with attempts := ?_ }
  show guarded.accepted ≤ guarded.attempted + 1 ∧ guarded.attempted + 1 ≤ uint64Max
  have := sound.attempts
  omega

/-- What an attempt that is dropped adds to the attempts it adds to the gap. -/
theorem Carried.attempt_dropLocked (carried : guarded.Carried)
    (room : guarded.attempted ≠ uint64Max) (bounded : guarded.attempted ≤ uint64Max) :
    guarded.attempt.dropLocked.Carried := by
  intro last isLast
  have reaches := carried last isLast
  show last.sequence + increment guarded.pendingGap = guarded.attempted + 1
  rw [increment_exact (by omega)]
  omega

/-! ## Configuring -/

/-- Just configured: nothing of the generation was recorded. -/
structure Fresh (guarded : Guarded) (policy : NativeWorkerObservationPolicy) : Prop where
  inForce : guarded.policy = policy
  queued : guarded.records = []
  taken : guarded.takenOf policy.generation = []

theorem Fresh.current {policy : NativeWorkerObservationPolicy} (fresh : guarded.Fresh policy) :
    guarded.current = [] := by
  rw [Guarded.current, fresh.inForce, fresh.taken, fresh.queued]
  rfl

theorem Fresh.readable {policy : NativeWorkerObservationPolicy} (fresh : guarded.Fresh policy) :
    guarded.Readable := by
  rw [Guarded.Readable, fresh.current]
  exact List.isChain_nil

theorem Fresh.carried {policy : NativeWorkerObservationPolicy} (fresh : guarded.Fresh policy) :
    guarded.Carried := by
  intro last isLast
  rw [fresh.current] at isLast
  cases isLast

theorem Sound.fresh (sound : guarded.Sound) {policy : NativeWorkerObservationPolicy}
    (newer : guarded.greatestGeneration < policy.generation) :
    (guarded.clearLocked.configure policy).Fresh policy := by
  refine ⟨rfl, rfl, List.filter_eq_nil_iff.2 fun record taken => ?_⟩
  obtain ⟨entry, member, rfl⟩ := List.mem_map.1 taken
  have older := sound.superseded entry member
  simp only [beq_iff_eq]
  omega

theorem Sound.configure (sound : guarded.Sound) {policy : NativeWorkerObservationPolicy}
    (valid : validPolicy policy = true) (newer : guarded.greatestGeneration < policy.generation) :
    (guarded.clearLocked.configure policy).Sound :=
  { sound.clearLocked with
    configured := .inr valid
    greatest := rfl
    fits := Nat.zero_le _
    queued := fun _ queued => absurd queued List.not_mem_nil
    superseded := fun taken member => (sound.superseded taken member).trans newer.le
    inForce := fun taken member same => by
      have older := sound.superseded taken member
      have mine := (sound.recorded taken member).1.generation
      have same : taken.policy.generation = policy.generation := same
      omega }

/-! ## Capturing -/

/-- The ticket names the policy in force. -/
structure Names (policy : NativeWorkerObservationPolicy) (ticket : NativeWorkerCaptureTicket) :
    Prop where
  generation : policy.generation = ticket.generation
  sessionId : policy.sessionId = ticket.sessionId
  worker : policy.worker = ticket.worker

/-- What a capture has checked before its last look at `active_generation_`. -/
structure Admits (guarded : Guarded) (ticket : NativeWorkerCaptureTicket)
    (input : NativeWorkerObservationInput) (nowNs : Nat) : Prop where
  names : Names guarded.policy ticket
  unexpired : nowNs < guarded.policy.expiresAtMonotonicNs
  room : guarded.attempted ≠ uint64Max
  accepts : guarded.attempt.refuses ticket input = false
  space : guarded.records.length ≠ kNativeWorkerObservationCapacity

variable {ticket : NativeWorkerCaptureTicket} {input : NativeWorkerObservationInput} {nowNs : Nat}

/-- The input that the record stands for is valid when the one it was made from is. -/
theorem record_input_valid (nowNs : Nat) (accepts : guarded.refuses ticket input = false) :
    validInput (guarded.record ticket input nowNs).input = true := by
  have valid : validInput input = true := by
    rw [refuses, Bool.or_eq_false_iff, Bool.not_eq_false'] at accepts
    exact accepts.1
  obtain ⟨operation, direction, trace, script, source, tag⟩ := input
  cases operation <;>
    simp_all [validInput, NativeWorkerObservation.input, record, isMessage,
      NativeWorkerMessageTag.empty, NativeWorkerOperation.named]

/-- A tag that is accepted names an attempt before this one, or none. -/
theorem record_tag_earlier (accepts : guarded.refuses ticket input = false)
    (attempted : guarded.attempted ≠ 0) (message : isMessage input.operation = true)
    (received : input.operation ≠ .messageSent) :
    input.messageTag.sendSequence < guarded.attempted := by
  simp only [refuses, message, bne_iff_ne.2 received, Bool.true_and, Bool.or_eq_false_iff,
    Bool.and_eq_false_iff, Bool.not_eq_false'] at accepts
  rcases accepts.2 with empty | checked
  · simp only [NativeWorkerMessageTag.empty, Bool.and_eq_true, beq_iff_eq] at empty
    omega
  · have earlier := checked.2
    simp only [decide_eq_false_iff_not] at earlier
    omega

/-- A record made under the policy in force is one of its records. -/
theorem recorded_record (valid : validPolicy guarded.policy = true)
    (names : Names guarded.policy ticket) (unexpired : nowNs < guarded.policy.expiresAtMonotonicNs)
    (bounded : guarded.attempted ≤ uint64Max) (attempted : guarded.attempted ≠ 0)
    (accepts : guarded.refuses ticket input = false) :
    Recorded guarded.policy (guarded.record ticket input nowNs) := by
  refine ⟨valid, names.generation.symm, unexpired, bounded, fun later past unexpiredLater => ?_⟩
  have inputValid := record_input_valid nowNs accepts
  have unreserved : (Vector.replicate 18 (0 : UInt8)).any (· != 0) = false := by simp
  have past : nowNs ≤ later := past
  rw [isValidNativeWorkerObservation, if_neg]
  · exact decide_eq_true unexpiredLater
  · rw [inputValid]
    simp only [record, valid, names.generation, attempted, past.not_gt, unexpired.not_ge, unreserved,
      Bool.not_true, bne_self_eq_false, Bool.false_or, Bool.or_false, Bool.or_eq_true,
      Bool.and_eq_true, beq_iff_eq, bne_iff_ne, decide_eq_true_eq, not_or, not_and, decide_false,
      not_false_eq_true, true_and, Nat.not_le]
    refine ⟨fun sent differs => differs (if_pos sent), fun received => ?_⟩
    rw [if_neg received.2]
    exact record_tag_earlier accepts attempted received.1 received.2

theorem Sound.accept (sound : guarded.Sound) (admits : guarded.Admits ticket input nowNs) :
    (guarded.attempt.accept (guarded.attempt.record ticket input nowNs)).Sound := by
  have attempted := sound.attempt admits.room
  have recorded : Recorded guarded.attempt.policy (guarded.attempt.record ticket input nowNs) :=
    recorded_record (sound.unexpired admits.unexpired) admits.names
      admits.unexpired attempted.attempts.2 (Nat.succ_ne_zero _) admits.accepts
  refine { sound with counted := ?_, attempts := ?_, fits := ?_, queued := ?_ }
  · show guarded.accepted + 1 = (guarded.records ++ [_]).length + guarded.taken.length + guarded.retired
    rw [List.length_append, List.length_singleton]
    have := sound.counted
    omega
  · refine ⟨?_, attempted.attempts.2⟩
    show guarded.accepted + 1 ≤ guarded.attempted + 1
    exact Nat.succ_le_succ sound.attempts.1
  · show (guarded.records ++ [_]).length ≤ kNativeWorkerObservationCapacity
    rw [List.length_append]
    exact Nat.lt_of_le_of_ne sound.fits admits.space
  · intro record queued
    rcases List.mem_append.1 queued with before | new
    · exact sound.queued record before
    · rw [List.mem_singleton.1 new]
      exact recorded

theorem current_accept (record : NativeWorkerObservation) :
    (guarded.attempt.accept record).current = guarded.current ++ [record] :=
  (List.append_assoc ..).symm

/-- The new record reports the gap that the last one left. -/
theorem Readable.accept (readable : guarded.Readable) (carried : guarded.Carried) :
    (guarded.attempt.accept (guarded.attempt.record ticket input nowNs)).Readable := by
  rw [Readable, current_accept]
  refine readable.append (List.isChain_singleton _) fun last isLast next isNext => ?_
  obtain rfl : _ = next := Option.some.inj isNext
  have reaches := carried last isLast
  show guarded.attempted + 1 = last.sequence + 1 + guarded.pendingGap
  omega

theorem carried_accept :
    (guarded.attempt.accept (guarded.attempt.record ticket input nowNs)).Carried := by
  intro last isLast
  rw [current_accept, List.getLast?_append, List.getLast?_singleton] at isLast
  obtain rfl : _ = last := Option.some.inj isLast
  rfl

/-! ## Taking -/

variable {record : NativeWorkerObservation} {rest : List NativeWorkerObservation}

theorem takenOf_take (generation : Nat) :
    (guarded.take record rest nowNs).takenOf generation =
      guarded.takenOf generation ++ if record.generation = generation then [record] else [] := by
  simp only [takenOf, take, List.map_append, List.filter_append, List.map_cons, List.map_nil,
    List.filter_singleton, beq_iff_eq, Bool.cond_eq_ite]

theorem current_take (nowNs : Nat) (sound : guarded.Sound)
    (front : guarded.records = record :: rest) :
    (guarded.take record rest nowNs).current = guarded.current := by
  have mine : record.generation = guarded.policy.generation :=
    (sound.queued record (by simp [front])).generation
  show (guarded.take record rest nowNs).takenOf guarded.policy.generation ++ rest = _
  rw [takenOf_take, if_pos mine, current, front, List.append_assoc]
  rfl

theorem Sound.take (sound : guarded.Sound) (readable : guarded.Readable)
    (front : guarded.records = record :: rest)
    (unexpired : nowNs < guarded.policy.expiresAtMonotonicNs) :
    (guarded.take record rest nowNs).Sound := by
  have queued : record ∈ guarded.records := by simp [front]
  have mine := sound.queued record queued
  refine { sound with
    counted := ?_, fits := ?_, queued := ?_, recorded := ?_, superseded := ?_, inForce := ?_, agreed := ?_,
    linked := ?_ }
  · show guarded.accepted = rest.length + (guarded.taken ++ [_]).length + guarded.retired
    have := sound.counted
    rw [front, List.length_cons] at this
    rw [List.length_append, List.length_singleton]
    omega
  · have := sound.fits
    rw [front] at this
    exact (Nat.le_succ _).trans this
  · intro later member
    exact sound.queued later (front ▸ List.mem_cons_of_mem _ member)
  · intro taken member
    rcases List.mem_append.1 member with before | new
    · exact sound.recorded taken before
    · rw [List.mem_singleton.1 new]
      exact ⟨mine, unexpired⟩
  · intro taken member
    rcases List.mem_append.1 member with before | new
    · exact sound.superseded taken before
    · rw [List.mem_singleton.1 new]
      exact mine.generation.trans_le sound.greatest.le
  · intro taken member same
    rcases List.mem_append.1 member with before | new
    · exact sound.inForce taken before same
    · rw [List.mem_singleton.1 new]
      rfl
  · intro taken member other also same
    rcases List.mem_append.1 member with before | new <;>
      rcases List.mem_append.1 also with before' | new'
    · exact sound.agreed taken before other before' same
    · rw [List.mem_singleton.1 new'] at same ⊢
      exact sound.inForce taken before same
    · rw [List.mem_singleton.1 new] at same ⊢
      exact (sound.inForce other before' same.symm).symm
    · rw [List.mem_singleton.1 new, List.mem_singleton.1 new']
  · intro generation
    rw [takenOf_take]
    split
    case isTrue same =>
      have chain : Linked (guarded.current) := readable
      rw [current, front, ← mine.generation, same, List.append_cons] at chain
      exact chain.left_of_append
    case isFalse =>
      rw [List.append_nil]
      exact sound.linked generation

theorem Sound.discard (sound : guarded.Sound) (front : guarded.records = record :: rest) :
    (guarded.discard rest).Sound := by
  have counted := sound.counted
  have attempts := sound.attempts
  have fits := sound.fits
  rw [front, List.length_cons] at counted fits
  refine { sound with counted := ?_, fits := (Nat.le_succ _).trans fits, queued := ?_ }
  · show guarded.accepted = rest.length + guarded.taken.length + increment guarded.retired
    rw [increment_exact (by omega)]
    omega
  · intro later member
    exact sound.queued later (front ▸ List.mem_cons_of_mem _ member)

end Guarded

end Reb.Worker

namespace Reb.Worker

/-! # The outline -/

open Theory.Interleaving

variable {ι : Type}

/-! ## What holds of the memory -/

/-- The words that `Retire` compares belong to the policy in force. -/
structure QueueMemory.Published (memory : QueueMemory ι) : Prop where
  sessionId : memory.sessionId = memory.guarded.policy.sessionId
  workerHigh : memory.workerHigh = memory.guarded.policy.worker.high
  workerLow : memory.workerLow = memory.guarded.policy.worker.low

/-- An active generation is the one in force, readable and published. -/
structure QueueMemory.Active (memory : QueueMemory ι) : Prop where
  generation : memory.activeGeneration = memory.guarded.policy.generation
  readable : memory.readableGeneration = memory.activeGeneration
  published : memory.Published
  carried : memory.guarded.Carried

structure QueueMemory.Kept (memory : QueueMemory ι) : Prop where
  sound : memory.guarded.Sound
  active : memory.activeGeneration ≠ 0 → memory.Active
  readable : memory.readableGeneration ≠ 0 →
    memory.readableGeneration = memory.guarded.policy.generation ∧ memory.guarded.Readable

/-! ## What a thread knows -/

namespace QueuePc

/-- The thread holds the mutex. -/
def inSection : QueuePc → Prop
  | .configureSession _ | .configureWorkerHigh _ | .configureWorkerLow _ | .publishReadable _
  | .publishActive _ | .unlockControl _ | .beginCheck _ _ _ _ _ | .captureCheck _ _ _
  | .captureExhausted | .captureCommit _ _ _ | .takeCheck _ | .takeCommit _ | .expireActive
  | .expireReadable | .unlock _ => True
  | _ => False

/-- The thread has begun `Configure` or `Disable`. -/
def inControl : QueuePc → Prop
  | .configureReadable _ _ | .configureLock _ _ | .configureSession _ | .configureWorkerHigh _
  | .configureWorkerLow _ | .publishReadable _ | .publishActive _ | .disableReadable
  | .disableLock | .unlockControl _ => True
  | _ => False

end QueuePc

/-- The generation of the ticket was in force; while it is, the words are its own. -/
structure QueueMemory.Seen (memory : QueueMemory ι) (ticket : NativeWorkerCaptureTicket) : Prop where
  past : ticket.generation ≤ memory.guarded.greatestGeneration
  published : memory.guarded.policy.generation = ticket.generation → memory.Published

/-- `Configure` has withdrawn both generations and put the policy in force. -/
structure QueueMemory.Configuring (memory : QueueMemory ι)
    (policy : NativeWorkerObservationPolicy) : Prop where
  inactive : memory.activeGeneration = 0
  fresh : memory.guarded.Fresh policy

/-- What the thread knows beside who holds the mutex and who is in control. -/
def QueueMemory.Knows (memory : QueueMemory ι) : QueuePc → Prop
  | .configureReadable _ _ | .disableReadable => memory.activeGeneration = 0
  | .configureLock _ _ | .disableLock =>
      memory.activeGeneration = 0 ∧ memory.readableGeneration = 0
  | .configureSession policy => memory.Configuring policy ∧ memory.readableGeneration = 0
  | .configureWorkerHigh policy =>
      memory.Configuring policy ∧ memory.readableGeneration = 0 ∧
        memory.sessionId = policy.sessionId
  | .configureWorkerLow policy =>
      memory.Configuring policy ∧ memory.readableGeneration = 0 ∧
        memory.sessionId = policy.sessionId ∧ memory.workerHigh = policy.worker.high
  | .publishReadable policy =>
      memory.Configuring policy ∧ memory.readableGeneration = 0 ∧ memory.Published
  | .publishActive policy =>
      memory.Configuring policy ∧ memory.readableGeneration = policy.generation ∧ memory.Published
  | .retireSession ticket => memory.Seen ticket
  | .retireWorkerHigh ticket =>
      memory.Seen ticket ∧
        (memory.guarded.policy.generation = ticket.generation →
          memory.guarded.policy.sessionId = ticket.sessionId)
  | .retireWorkerLow ticket =>
      memory.Seen ticket ∧
        (memory.guarded.policy.generation = ticket.generation →
          memory.guarded.policy.sessionId = ticket.sessionId ∧
            memory.guarded.policy.worker.high = ticket.worker.high)
  | .retireExchange ticket =>
      memory.Seen ticket ∧
        (memory.guarded.policy.generation = ticket.generation →
          Guarded.Names memory.guarded.policy ticket)
  | .captureCommit ticket input nowNs => memory.guarded.Admits ticket input nowNs
  | .takeCommit nowNs => nowNs < memory.guarded.policy.expiresAtMonotonicNs
  | .expireReadable => memory.activeGeneration = 0
  | .unlock result =>
      result.record = {} ∨ result.record.generation = memory.guarded.greatestGeneration
  | _ => True

structure Asserts (i : ι) (memory : QueueMemory ι) (pc : QueuePc) : Prop where
  mutex : pc.inSection ↔ memory.locked = some i
  control : pc.inControl → memory.controllers = [i]
  idle : ¬ pc.inControl → i ∉ memory.controllers
  knows : memory.Knows pc

variable {i j : ι} {memory memory' : QueueMemory ι} {pc pc' : QueuePc}

theorem Asserts.locked (asserts : Asserts i memory pc) (inside : pc.inSection) :
    memory.locked = some i :=
  asserts.mutex.1 inside

/-- A step that neither takes nor gives back anything. -/
theorem Asserts.along (asserts : Asserts i memory pc) (locked : memory'.locked = memory.locked)
    (controllers : memory'.controllers = memory.controllers)
    (inside : pc'.inSection ↔ pc.inSection) (control : pc'.inControl ↔ pc.inControl)
    (knows : memory'.Knows pc') : Asserts i memory' pc' where
  mutex := inside.trans (locked ▸ asserts.mutex)
  control now := controllers.trans (asserts.control (control.1 now))
  idle out := controllers ▸ asserts.idle (fun was => out (control.2 was))
  knows := knows

/-! ## What a thread touches -/

/-- What a step of a thread may change, by what the thread holds. -/
structure Touches (i : ι) (memory memory' : QueueMemory ι) : Prop where
  locked : memory'.locked = memory.locked ∨
    (memory.locked = none ∧ memory'.locked = some i) ∨
    (memory.locked = some i ∧ memory'.locked = none) := by exact .inl rfl
  guarded : memory'.guarded = memory.guarded ∨ memory'.locked = some i := by exact .inl rfl
  controllers : memory'.controllers = memory.controllers ∨
    (memory.controllers = [] ∧ memory'.controllers = [i]) ∨
    (memory.controllers = [i] ∧ memory'.controllers = []) := by exact .inl rfl
  active : memory'.activeGeneration = memory.activeGeneration ∨ memory'.activeGeneration = 0 ∨
    (memory.locked = some i ∧ memory.controllers = [i]) := by exact .inl rfl
  readable : memory'.readableGeneration = memory.readableGeneration ∨
    (memory'.readableGeneration = 0 ∧ (memory.locked = some i ∨ memory.controllers = [i])) ∨
    (memory.locked = some i ∧ memory.controllers = [i]) := by exact .inl rfl
  words : (memory'.sessionId = memory.sessionId ∧ memory'.workerHigh = memory.workerHigh ∧
      memory'.workerLow = memory.workerLow) ∨
    memory.controllers = [i] := by exact .inl ⟨rfl, rfl, rfl⟩
  policy : memory'.guarded.policy = memory.guarded.policy ∨
    memory.guarded.greatestGeneration < memory'.guarded.policy.generation := by exact .inl rfl
  greatest : memory.guarded.greatestGeneration ≤ memory'.guarded.greatestGeneration := by
    exact Nat.le_refl _
  published : memory'.guarded.policy = memory.guarded.policy → memory.Published →
    memory'.Published := by exact fun _ published => ⟨published.1, published.2, published.3⟩

theorem QueueMemory.Seen.touched {ticket : NativeWorkerCaptureTicket}
    (touches : Touches i memory memory') (seen : memory.Seen ticket) : memory'.Seen ticket := by
  refine ⟨seen.past.trans touches.greatest, fun now => ?_⟩
  rcases touches.policy with same | newer
  · exact touches.published same (seen.published (same ▸ now))
  · have := seen.past
    omega

/-- What is known of the generation of a ticket stays known. -/
theorem Touches.named {ticket : NativeWorkerCaptureTicket} (touches : Touches i memory memory')
    (seen : memory.Seen ticket) (P : NativeWorkerObservationPolicy → Prop)
    (knows : memory.guarded.policy.generation = ticket.generation → P memory.guarded.policy)
    (now : memory'.guarded.policy.generation = ticket.generation) : P memory'.guarded.policy := by
  rcases touches.policy with same | newer
  · rw [same] at now ⊢
    exact knows now
  · have := seen.past
    omega

/-- What another thread's step leaves of the memory that this thread relies on. -/
structure Beside (j : ι) (memory memory' : QueueMemory ι) : Prop where
  mutex : memory'.locked = some j ↔ memory.locked = some j
  guarded : memory.locked = some j → memory'.guarded = memory.guarded
  control : memory.controllers = [j] → memory'.controllers = [j]
  idle : j ∉ memory.controllers → j ∉ memory'.controllers
  active : memory.locked = some j ∨ memory.controllers = [j] → memory.activeGeneration = 0 →
    memory'.activeGeneration = 0
  unreadable : memory.controllers = [j] → memory.readableGeneration = 0 →
    memory'.readableGeneration = 0
  readable : memory.locked = some j → memory.controllers = [j] →
    memory'.readableGeneration = memory.readableGeneration
  words : memory.controllers = [j] → memory'.sessionId = memory.sessionId ∧
    memory'.workerHigh = memory.workerHigh ∧ memory'.workerLow = memory.workerLow

theorem Touches.beside (touches : Touches i memory memory') (other : j ≠ i) :
    Beside j memory memory' := by
  have notSome : ¬ (some i = some j) := fun same => other (Option.some.inj same).symm
  have notList : ¬ ([i] = [j]) := fun same => other (List.cons.inj same).1.symm
  have mutex : memory'.locked = some j ↔ memory.locked = some j := by
    rcases touches.locked with same | ⟨before, after⟩ | ⟨before, after⟩
    · rw [same]
    · simp [before, after, notSome]
    · simp [before, after, notSome]
  have mine : memory.locked = some j → ¬ memory.locked = some i :=
    fun held also => notSome (also.symm.trans held)
  have ours : memory.controllers = [j] → ¬ memory.controllers = [i] :=
    fun held also => notList (also.symm.trans held)
  constructor
  case mutex => exact mutex
  case guarded =>
    intro held
    refine touches.guarded.resolve_right fun also => ?_
    exact notSome (also.symm.trans (mutex.2 held))
  case control =>
    intro held
    rcases touches.controllers with same | ⟨before, -⟩ | ⟨before, -⟩
    · exact same.trans held
    · exact absurd (before.symm.trans held) (List.cons_ne_nil _ _).symm
    · exact absurd before (ours held)
  case idle =>
    intro out
    rcases touches.controllers with same | ⟨-, after⟩ | ⟨-, after⟩
    · rw [same]
      exact out
    · rw [after, List.mem_singleton]
      exact other
    · rw [after]
      exact List.not_mem_nil
  case active =>
    intro held inactive
    rcases touches.active with same | zero | ⟨locked, control⟩
    · exact same.trans inactive
    · exact zero
    · rcases held with held | held
      · exact absurd locked (mine held)
      · exact absurd control (ours held)
  case unreadable =>
    intro held unreadable
    rcases touches.readable with same | ⟨zero, -⟩ | ⟨-, control⟩
    · exact same.trans unreadable
    · exact zero
    · exact absurd control (ours held)
  case readable =>
    intro held control
    rcases touches.readable with same | ⟨-, locked | also⟩ | ⟨-, also⟩
    · exact same
    · exact absurd locked (mine held)
    · exact absurd also (ours control)
    · exact absurd also (ours control)
  case words =>
    intro held
    exact touches.words.resolve_right (ours held)

theorem Beside.published (beside : Beside j memory memory') (held : memory.locked = some j)
    (control : memory.controllers = [j]) (published : memory.Published) : memory'.Published := by
  obtain ⟨sessionId, high, low⟩ := beside.words control
  obtain same := beside.guarded held
  constructor
  · rw [sessionId, same, published.sessionId]
  · rw [high, same, published.workerHigh]
  · rw [low, same, published.workerLow]

theorem Beside.configuring {policy : NativeWorkerObservationPolicy}
    (beside : Beside j memory memory') (held : memory.locked = some j)
    (configuring : memory.Configuring policy) : memory'.Configuring policy :=
  ⟨beside.active (.inl held) configuring.inactive, (beside.guarded held).symm ▸ configuring.fresh⟩

/-- What a thread knows no other thread takes away. -/
theorem Asserts.stable (touches : Touches i memory memory') (other : j ≠ i)
    (asserts : Asserts j memory pc) : Asserts j memory' pc := by
  have beside := touches.beside other
  obtain ⟨mutex, control, idle, knows⟩ := asserts
  refine ⟨mutex.trans beside.mutex.symm, fun now => beside.control (control now),
    fun out => beside.idle (idle out), ?_⟩
  cases pc with
  | configureReadable | disableReadable => exact beside.active (.inr (control trivial)) knows
  | configureLock | disableLock =>
      exact ⟨beside.active (.inr (control trivial)) knows.1,
        beside.unreadable (control trivial) knows.2⟩
  | configureSession policy =>
      exact ⟨beside.configuring (mutex.1 trivial) knows.1,
        beside.unreadable (control trivial) knows.2⟩
  | configureWorkerHigh policy =>
      exact ⟨beside.configuring (mutex.1 trivial) knows.1,
        beside.unreadable (control trivial) knows.2.1,
        (beside.words (control trivial)).1.trans knows.2.2⟩
  | configureWorkerLow policy =>
      exact ⟨beside.configuring (mutex.1 trivial) knows.1,
        beside.unreadable (control trivial) knows.2.1,
        (beside.words (control trivial)).1.trans knows.2.2.1,
        (beside.words (control trivial)).2.1.trans knows.2.2.2⟩
  | publishReadable policy =>
      exact ⟨beside.configuring (mutex.1 trivial) knows.1,
        beside.unreadable (control trivial) knows.2.1,
        beside.published (mutex.1 trivial) (control trivial) knows.2.2⟩
  | publishActive policy =>
      exact ⟨beside.configuring (mutex.1 trivial) knows.1,
        (beside.readable (mutex.1 trivial) (control trivial)).trans knows.2.1,
        beside.published (mutex.1 trivial) (control trivial) knows.2.2⟩
  | retireSession ticket => exact knows.touched touches
  | retireWorkerHigh ticket =>
      exact ⟨knows.1.touched touches,
        touches.named knows.1 (fun policy => policy.sessionId = ticket.sessionId) knows.2⟩
  | retireWorkerLow ticket =>
      exact ⟨knows.1.touched touches, touches.named knows.1
        (fun policy => policy.sessionId = ticket.sessionId ∧ policy.worker.high = ticket.worker.high)
        knows.2⟩
  | retireExchange ticket =>
      exact ⟨knows.1.touched touches,
        touches.named knows.1 (fun policy => Guarded.Names policy ticket) knows.2⟩
  | captureCommit | takeCommit | unlock =>
      rw [QueueMemory.Knows, beside.guarded (mutex.1 trivial)]
      exact knows
  | expireReadable => exact beside.active (.inl (mutex.1 trivial)) knows
  | _ => trivial

end Reb.Worker
