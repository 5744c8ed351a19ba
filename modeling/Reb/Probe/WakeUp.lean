/-
# Probe.WakeUp -- producers that announce and a host that is woken

Producers announce what they published by exchanging the notification flag, and the
one that finds it clear sends a wake-up; every delivered wake-up runs Drain once.

Below the announcements the queue is the linear queue of its producers and its
consumer: `waking_outline` carries that outline over.
-/
import Reb.Probe.HostDrain
import Reb.Probe.ProbeQueueLinear

namespace Reb.Probe

set_option autoImplicit false

open Theory.Interleaving

/-! ## The threads -/

/-- A producer in `EmitEvent`: in `TryPush`, where `returned true` stands before the
exchange of the flag, or about to send the wake-up it owes. -/
inductive Announcing where
  | push (pc : TryPush NativeProbeEvent)
  | signal

structure WakingMemory (ι : Type) where
  host : HostMemory ι
  undelivered : Nat

namespace WakingMemory

variable {ι : Type} (memory : WakingMemory ι)

def ring : ProbeQueueRun ι NativeProbeEvent := memory.host.ring

def pending : Bool := memory.host.notificationPending

end WakingMemory

variable {ι : Type}

def announce (producer : ι) (call : NativeProbeEvent) (spurious : Bool) (memory : WakingMemory ι) :
    Announcing → WakingMemory ι × Announcing
  | .push (.returned true) =>
      ({ memory with host := { memory.host with notificationPending := true } },
        if memory.pending then .push .idle else .signal)
  | .push pc =>
      let moved := emitEvent producer call spurious memory.host pc
      ({ memory with host := moved.1 }, .push moved.2)
  | .signal => ({ memory with undelivered := memory.undelivered + 1 }, .push .idle)

/-- The host runs Drain once for every wake-up that is delivered to it. -/
def drain (frameTabs : UInt64 → Option UInt32) (memory : WakingMemory ι) :
    Host → WakingMemory ι × Host
  | .idle =>
      if memory.undelivered = 0 then (memory, .idle)
      else ({ memory with undelivered := memory.undelivered - 1 },
        (Host.access false frameTabs memory.host .idle).2)
  | host =>
      let moved := Host.access false frameTabs memory.host host
      ({ memory with host := moved.1 }, moved.2)

abbrev WakingThread.Local (ι : Type) : HostThread ι → Type
  | .producer _ => Announcing
  | .host => Host

abbrev WakingConfig (ι : Type) : Type := Config (WakingThread.Local ι) (WakingMemory ι)

def wakingMachine : Machine (WakingThread.Local ι) (WakingMemory ι) HostChoice
  | .producer i, choice, memory, pc => announce i choice.event choice.spurious memory pc
  | .host, choice, memory, pc => drain choice.frameTabs memory pc

/-- After `Configure`: a fresh queue, nothing announced, nobody in a call. -/
def quietStart (ι : Type) : WakingConfig ι where
  memory := { host := (configured ι).memory, undelivered := 0 }
  locals
    | .producer _ => Announcing.push .idle
    | .host => Host.idle

/-! ## What a step does -/

variable {memory memory' : WakingMemory ι} {i : ι}

/-- A step of a producer. -/
inductive AnnounceStep (i : ι) (memory : WakingMemory ι) :
    Announcing → WakingMemory ι → Announcing → Prop
  | first (clear : memory.pending = false) : AnnounceStep i memory (.push (.returned true))
      { memory with host := { memory.host with notificationPending := true } } .signal
  | later (set : memory.pending = true) : AnnounceStep i memory (.push (.returned true))
      { memory with host := { memory.host with notificationPending := true } } (.push .idle)
  | signal : AnnounceStep i memory .signal
      { memory with undelivered := memory.undelivered + 1 } (.push .idle)
  | refused : AnnounceStep i memory (.push (.returned false)) memory (.push .idle)
  | push (call : NativeProbeEvent × UInt64) (spurious : Bool) {pc pc' : TryPush NativeProbeEvent}
      {ring : ProbeQueueRun ι NativeProbeEvent} (inside : ∀ accepted, pc ≠ .returned accepted)
      (moves : TryPush.access i call spurious memory.ring pc = (ring, pc')) :
      AnnounceStep i memory (.push pc) { memory with host := { memory.host with ring } } (.push pc')

theorem announce_step (call : NativeProbeEvent) (spurious : Bool) (pc : Announcing) :
    AnnounceStep i memory pc (announce i call spurious memory pc).1
      (announce i call spurious memory pc).2 := by
  cases pc with
  | signal => exact .signal
  | push pc =>
      cases pc with
      | returned accepted =>
          cases accepted with
          | false => exact .refused
          | true =>
              rw [announce]
              cases set : memory.pending with
              | false => exact .first set
              | true => exact .later set
      | _ => exact .push (call, nativeProbeDropWeight call) spurious (by simp) rfl

/-- A step of the host. -/
inductive DrainStep (memory : WakingMemory ι) : Host → WakingMemory ι → Host → Prop
  | stays : DrainStep memory .idle memory .idle
  | starts (turn : DrainTurn) (delivered : memory.undelivered ≠ 0) : DrainStep memory .idle
      { memory with undelivered := memory.undelivered - 1 } (.tryPop turn .loadPosition)
  | pop {pc pc' : TryPop NativeProbeEvent} {turn turn' : DrainTurn} {host : HostMemory ι}
      (moves : TryPop.access memory.ring pc = (host.ring, pc'))
      (flag : host.notificationPending = memory.pending) :
      DrainStep memory (.tryPop turn pc) { memory with host } (.tryPop turn' pc')
  | popped (turn : DrainTurn) : DrainStep memory (.tryPop turn (.returned none)) memory
      (.droppedCount turn)
  | counted {turn turn' : DrainTurn} {host : HostMemory ι} (ring : host.ring = memory.ring)
      (flag : host.notificationPending = memory.pending) :
      DrainStep memory (.droppedCount turn) { memory with host } (.clearNotification turn')
  | clear (turn : DrainTurn) : DrainStep memory (.clearNotification turn)
      { memory with host := { memory.host with notificationPending := false } }
      (.emptyPosition turn)
  | position (turn : DrainTurn) : DrainStep memory (.emptyPosition turn) memory
      (.emptySequence turn memory.ring.queue.dequeuePosition)
  | empty (turn : DrainTurn) {position : UInt64}
      (unpublished : (memory.ring.slot position).sequence ≠ position + 1) :
      DrainStep memory (.emptySequence turn position) memory (Host.leave turn)
  | nonempty (turn : DrainTurn) {position : UInt64}
      (published : (memory.ring.slot position).sequence = position + 1) :
      DrainStep memory (.emptySequence turn position) memory (.markNotification turn)
  | continues (turn : DrainTurn) (clear : memory.pending = false) :
      DrainStep memory (.markNotification turn)
        { memory with host := { memory.host with notificationPending := true } }
        (.tryPop turn.again .loadPosition)
  | leaves (turn : DrainTurn) (set : memory.pending = true) :
      DrainStep memory (.markNotification turn)
        { memory with host := { memory.host with notificationPending := true } } (Host.leave turn)
  | disabled (turn : DrainTurn) : DrainStep memory (.disabled turn) memory (.disabled turn)

theorem drain_step (frameTabs : UInt64 → Option UInt32) (host : Host) :
    DrainStep memory host (drain frameTabs memory host).1 (drain frameTabs memory host).2 := by
  cases host with
  | idle =>
      rw [drain]
      split
      · exact .stays
      · next delivered => exact .starts _ delivered
  | tryPop turn pc =>
      cases pc with
      | returned result =>
          cases result with
          | none => exact .popped turn
          | some event => exact .pop rfl rfl
      | _ => exact .pop rfl rfl
  | droppedCount turn =>
      refine .counted ?_ ?_
      · show (Host.report memory.host turn).ring = memory.host.ring
        rw [Host.report]
        split <;> rfl
      · show (Host.report memory.host turn).notificationPending = memory.host.notificationPending
        rw [Host.report]
        split <;> rfl
  | clearNotification turn => exact .clear turn
  | emptyPosition turn => exact .position turn
  | emptySequence turn position =>
      simp only [drain, Host.access]
      split
      · next unpublished => exact .empty turn (bne_iff_ne.1 unpublished)
      · next published =>
          rw [Bool.not_eq_true, bne_eq_false_iff_eq] at published
          exact .nonempty turn published
  | markNotification turn =>
      simp only [drain, Host.access]
      cases set : memory.host.notificationPending with
      | false => exact .continues turn set
      | true => exact .leaves turn set
  | disabled turn => exact .disabled turn

/-! ## The queue below -/

def Announcing.Asserts (i : ι) (memory : WakingMemory ι) : Announcing → Prop
  | .push pc => TryPush.Asserts i memory.ring pc
  | .signal => True

/-- The host in Drain is the queue's consumer; outside TryPop it is between two pops. -/
def Host.Asserts (memory : WakingMemory ι) : Host → Prop
  | .tryPop _ pc => TryPop.Asserts memory.ring pc
  | .emptySequence _ position =>
      TryPop.Settled memory.ring ∧ position = memory.ring.queue.dequeuePosition
  | _ => TryPop.Settled memory.ring

def WakingThread.Asserts :
    (t : HostThread ι) → WakingMemory ι → WakingThread.Local ι t → Prop
  | .producer i, memory, pc => Announcing.Asserts i memory pc
  | .host, memory, pc => Host.Asserts memory pc

theorem wakingMachine_producer {pc pc' : Announcing}
    (moves : wakingMachine.access (.producer i) memory pc memory' pc') :
    AnnounceStep i memory pc memory' pc' := by
  obtain ⟨choice, moves⟩ := moves
  have step := @announce_step _ memory i choice.event choice.spurious pc
  rw [show announce i choice.event choice.spurious memory pc = (memory', pc') from moves] at step
  exact step

theorem wakingMachine_host {host host' : Host}
    (moves : (wakingMachine (ι := ι)).access .host memory host memory' host') :
    DrainStep memory host memory' host' := by
  obtain ⟨choice, moves⟩ := moves
  have step := @drain_step _ memory choice.frameTabs host
  rw [show drain choice.frameTabs memory host = (memory', host') from moves] at step
  exact step

theorem AnnounceStep.ring {pc pc' : Announcing} (step : AnnounceStep i memory pc memory' pc') :
    memory'.ring = memory.ring ∨ ∃ call spurious before after, pc = .push before ∧ pc' = .push after ∧
      TryPush.access i call spurious memory.ring before = (memory'.ring, after) := by
  cases step with
  | push call spurious inside moves => exact .inr ⟨call, spurious, _, _, rfl, rfl, moves⟩
  | first | later | signal | refused => exact .inl rfl

theorem DrainStep.ring {host host' : Host} (step : DrainStep memory host memory' host') :
    memory'.ring = memory.ring ∨ ∃ turn turn' before after, host = .tryPop turn before ∧
      host' = .tryPop turn' after ∧ TryPop.access memory.ring before = (memory'.ring, after) := by
  cases step with
  | pop moves flag => exact .inr ⟨_, _, _, _, rfl, rfl, moves⟩
  | counted same flag => exact .inl same
  | _ => exact .inl rfl

theorem AnnounceStep.reaches {pc pc' : Announcing} (step : AnnounceStep i memory pc memory' pc')
    (consistent : memory.ring.Consistent) (asserts : Announcing.Asserts i memory pc) :
    Announcing.Asserts i memory' pc' := by
  cases step with
  | push call spurious inside moves => exact TryPush.access_asserts moves consistent asserts
  | first | later | signal | refused => trivial

theorem leave_asserts {turn : DrainTurn} (settled : TryPop.Settled memory.ring) :
    Host.Asserts memory (Host.leave turn) := by
  rw [Host.leave]
  split <;> exact settled

theorem DrainStep.reaches {host host' : Host} (step : DrainStep memory host memory' host')
    (few : FewPushes memory.ring) (consistent : memory.ring.Consistent)
    (asserts : Host.Asserts memory host) : Host.Asserts memory' host' := by
  cases step with
  | pop moves flag => exact TryPop.access_asserts moves few consistent asserts
  | counted same flag =>
      show TryPop.Settled _
      rw [WakingMemory.ring, same]
      exact asserts
  | position turn => exact ⟨asserts, rfl⟩
  | empty turn => exact leave_asserts asserts.1
  | nonempty turn => exact asserts.1
  | leaves turn => exact leave_asserts asserts
  | _ => exact asserts

theorem waking_won {t : HostThread ι} {pc pc' : WakingThread.Local ι t}
    (moves : wakingMachine.access t memory pc memory' pc') :
    memory.ring.won.length ≤ memory'.ring.won.length := by
  cases t with
  | producer i =>
      rcases (wakingMachine_producer moves).ring with same | ⟨_, _, _, _, _, _, moved⟩
      · rw [same]
      · exact TryPush.access_won moved
  | host =>
      rcases (wakingMachine_host moves).ring with same | ⟨_, _, _, _, _, _, moved⟩
      · rw [same]
      · rw [TryPop.access_won moved]

/-- Another thread's step on the ring leaves a producer's assertion true. -/
theorem Announcing.Asserts.stable {pc : Announcing} {j : ι} (asserts : Announcing.Asserts j memory pc)
    (undisturbed : Undisturbed j memory.ring memory'.ring) : Announcing.Asserts j memory' pc := by
  cases pc with
  | push pc => exact undisturbed.asserts asserts
  | signal => trivial

theorem Host.Asserts.stable {host : Host} (asserts : Host.Asserts memory host)
    (released : memory'.ring.released = memory.ring.released)
    (popped : memory'.ring.popped = memory.ring.popped)
    (dequeue : memory'.ring.queue.dequeuePosition = memory.ring.queue.dequeuePosition)
    (published : ∀ position ∈ memory.ring.published, position ∈ memory'.ring.published) :
    Host.Asserts memory' host := by
  have settled : TryPop.Settled memory.ring → TryPop.Settled memory'.ring := by
    rw [TryPop.Settled, TryPop.Settled, released, popped, dequeue]
    exact id
  cases host with
  | tryPop turn pc => exact TryPop.Asserts.stable asserts released popped dequeue published
  | emptySequence turn position => exact ⟨settled asserts.1, asserts.2.trans dequeue.symm⟩
  | _ => exact settled asserts

theorem waking_outline : Outline (@wakingMachine ι).access (fun memory => FewPushes memory.ring)
    (fun memory => memory.ring.Consistent) WakingThread.Asserts where
  earlier moves few := (waking_won moves).trans_lt few
  keeps {t memory _ memory' _} moves few consistent asserts := by
    have before : FewPushes memory.ring := (waking_won moves).trans_lt few
    cases t with
    | producer i =>
        rcases (wakingMachine_producer moves).ring with same | ⟨_, _, _, _, rfl, _, moved⟩
        · exact same ▸ consistent
        · exact TryPush.access_consistent moved few consistent asserts
    | host =>
        rcases (wakingMachine_host moves).ring with same | ⟨_, _, _, _, rfl, _, moved⟩
        · exact same ▸ consistent
        · exact TryPop.access_consistent moved before consistent asserts
  reaches {t memory _ memory' _} moves few consistent asserts := by
    have before : FewPushes memory.ring := (waking_won moves).trans_lt few
    cases t with
    | producer i => exact (wakingMachine_producer moves).reaches consistent asserts
    | host => exact (wakingMachine_host moves).reaches before consistent asserts
  stable {t memory _ memory' _ u k} moves _ consistent asserts other others := by
    cases t with
    | producer i =>
        rcases (wakingMachine_producer moves).ring with same | ⟨_, _, _, _, rfl, _, moved⟩
        · cases u with
          | producer j => exact others.stable (same ▸ .refl j _)
          | host => exact others.stable (by rw [same]) (by rw [same]) (by rw [same]) (by simp [same])
        · cases u with
          | producer j =>
              have apart : j ≠ i := fun same => other (congrArg HostThread.producer same)
              exact others.stable (TryPush.access_undisturbed moved consistent asserts apart)
          | host =>
              obtain ⟨released, popped, dequeue, published⟩ := TryPush.access_consumer moved
              exact others.stable released popped dequeue published
    | host =>
        cases u with
        | host => exact absurd rfl other
        | producer j =>
            rcases (wakingMachine_host moves).ring with same | ⟨_, _, _, _, _, _, moved⟩
            · exact others.stable (same ▸ .refl j _)
            · exact others.stable (TryPop.access_undisturbed moved)

end Reb.Probe
