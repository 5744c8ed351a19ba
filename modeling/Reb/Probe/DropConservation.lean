/-
# Probe.DropConservation -- which drops the host reports

The gap records always weigh what the host says it has reported, and what it has
reported is a count it read.  The final Drain reads the counter once more but reports
the difference only in a turn that popped an event: drops counted after the last event
was popped stay unreported (`drops_lost_after_last_pop`).
-/
import Reb.Probe.HostDrain
import Reb.Probe.ProbeQueueLinear

namespace Reb.Probe

set_option autoImplicit false

open Theory.Interleaving Reb.Capture

variable {ι : Type}

/-! ## The counter -/

/-- A drop never takes the counter back. -/
theorem le_nextDropped (droppedWeight dropped : UInt64) :
    dropped ≤ nextDropped droppedWeight dropped := by
  have most : (UInt64.ofNat (UInt64.size - 1)).toNat = 2 ^ 64 - 1 := rfl
  have below := dropped.toNat_lt
  have remaining : (UInt64.ofNat (UInt64.size - 1) - dropped).toNat = 2 ^ 64 - 1 - dropped.toNat := by
    rw [UInt64.toNat_sub_of_le _ _ (UInt64.le_iff_toNat_le.2 (by omega)), most]
  rw [UInt64.le_iff_toNat_le, nextDropped]
  generalize (if droppedWeight = 0 then 1 else droppedWeight) = weight
  split
  · rw [toNat_add_of_small (by omega)]
    exact Nat.le_add_right _ _
  · next fits =>
    rw [gt_iff_lt, UInt64.not_lt, UInt64.le_iff_toNat_le] at fits
    rw [toNat_add_of_small (by omega)]
    exact Nat.le_add_right _ _

theorem TryPush.access_dropped {Event : Type} {i : ι} {call : Event × UInt64} {spurious : Bool}
    {run run' : ProbeQueueRun ι Event} {pc pc' : TryPush Event}
    (moves : TryPush.access i call spurious run pc = (run', pc')) :
    run.queue.dropped ≤ run'.queue.dropped := by
  have moved : (TryPush.access i call spurious run pc).1 = run' := congrArg Prod.fst moves
  cases pc with
  | loadSequence event droppedWeight position =>
    simp only [TryPush.access] at moved
    split at moved
    · exact moved ▸ UInt64.le_refl _
    · split at moved <;> exact moved ▸ UInt64.le_refl _
  | exchangePosition event droppedWeight position =>
    simp only [TryPush.access] at moved
    split at moved <;> exact moved ▸ UInt64.le_refl _
  | exchangeDropped droppedWeight dropped =>
    simp only [TryPush.access] at moved
    split at moved
    · next exchanged =>
      rw [← moved]
      exact exchanged.1 ▸ le_nextDropped droppedWeight _
    · exact moved ▸ UInt64.le_refl _
  | _ => exact moved ▸ UInt64.le_refl _

theorem TryPop.access_dropped {Event : Type} {run run' : ProbeQueueRun ι Event} {pc pc' : TryPop Event}
    (moves : TryPop.access run pc = (run', pc')) : run'.queue.dropped = run.queue.dropped := by
  rcases TryPop.access_run moves with rfl | ⟨_, _, rfl⟩ | ⟨_, _, _, rfl⟩ | ⟨_, _, _, rfl⟩ <;> rfl

/-- The event without its tab, which the host fills in. -/
def untabbed (event : NativeProbeEvent) : NativeProbeEvent :=
  { event with header := { event.header with tabId := 0 } }

namespace Host

/-- The event TryPop has copied and not returned to the loop yet. -/
def inHand : Host → List NativeProbeEvent
  | .tryPop _ (.storeSequence _ event) => [event]
  | .tryPop _ (.storePosition _ event) => [event]
  | .tryPop _ (.returned (some event)) => [event]
  | _ => []

/-- The turn of Disable's Drain that has read the counter. -/
def sampled : Host → Option DrainTurn
  | .clearNotification turn => if turn.disabling then some turn else none
  | .emptyPosition turn => if turn.disabling then some turn else none
  | .emptySequence turn _ => if turn.disabling then some turn else none
  | .markNotification turn => if turn.disabling then some turn else none
  | .disabled turn => some turn
  | _ => none

end Host

/-- The step takes no drop into account that comes after Disable's last look at the counter. -/
def QuietStep (config config' : HostConfig ι) : Prop :=
  Step hostMachine.access config config' ∧
    (config.host.sampled.isSome = true → config'.droppedCount = config.droppedCount)

structure Accounted (memory : HostMemory ι) (host : Host) : Prop where
  handed : memory.ring.popped.map (fun x => untabbed x.2) =
    (handedOn memory.emitted ++ host.inHand).map untabbed
  weights : gapWeights memory.emitted = memory.reportedDroppedEvents.toNat
  counted : memory.reportedDroppedEvents ≤ memory.ring.queue.dropped
  sampled : ∀ turn, host.sampled = some turn →
    ((turn.drainedEvent = true ∨ turn.unreported = false) ↔
      memory.reportedDroppedEvents = memory.ring.queue.dropped)

/-- A point that holds no event and is past the counter exactly where the last one was. -/
theorem Accounted.onward {memory memory' : HostMemory ι} {host host' : Host}
    (accounted : Accounted memory host) (ring : memory'.ring = memory.ring)
    (reported : memory'.reportedDroppedEvents = memory.reportedDroppedEvents)
    (emitted : memory'.emitted = memory.emitted) (hand : host'.inHand = host.inHand)
    (sampled : ∀ turn, host'.sampled = some turn → host.sampled = some turn) :
    Accounted memory' host' := by
  obtain ⟨handed, weights, counted, known⟩ := accounted
  refine ⟨?_, ?_, ?_, fun turn atTurn => ?_⟩
  · rw [ring, emitted, hand, handed]
  · rw [emitted, reported, weights]
  · rw [ring, reported]
    exact counted
  · rw [ring, reported]
    exact known turn (sampled turn atTurn)

/-- A step of the host. -/
structure HostStep (config config' : HostConfig ι) : Prop where
  moves : hostMachine.access .host config.memory config.host config'.memory config'.host
  others : ∀ i, config'.locals (.producer i) = config.locals (.producer i)

/-- TryPop has popped nothing from the ring the call found, or that ring was not empty. -/
def Host.Untouched (found ring : ProbeQueueRun ι NativeProbeEvent) :
    TryPop NativeProbeEvent → Prop
  | .readEvent _ => found.empty = false
  | .storeSequence _ _ => found.empty = false
  | .storePosition _ _ => found.empty = false
  | .returned (some _) => found.empty = false
  | _ => ring = found

theorem report_ring (memory : HostMemory ι) (turn : DrainTurn) :
    (Host.report memory turn).ring = memory.ring := by
  rw [Host.report]
  split <;> rfl

theorem access_dropped {disable : Bool} {frameTabs : UInt64 → Option UInt32}
    {memory memory' : HostMemory ι} {host host' : Host}
    (moves : Host.access disable frameTabs memory host = (memory', host')) :
    memory'.ring.queue.dropped = memory.ring.queue.dropped := by
  have moved : (Host.access disable frameTabs memory host).1 = memory' := congrArg Prod.fst moves
  cases host with
  | tryPop turn pc =>
    cases pc with
    | returned result => cases result <;> exact moved ▸ rfl
    | _ =>
      rw [← moved]
      exact TryPop.access_dropped (Prod.eta (TryPop.access memory.ring _)).symm
  | droppedCount turn => rw [← moved, Host.access, report_ring]
  | emptySequence turn position =>
    simp only [Host.access] at moved
    split at moved <;> exact moved ▸ rfl
  | _ => exact moved ▸ rfl

theorem HostStep.quiet {config config' : HostConfig ι} (step : HostStep config config') :
    QuietStep config config' := by
  obtain ⟨⟨choice, moves⟩, others⟩ := step
  refine ⟨⟨.host, ⟨choice, moves⟩, fun thread other => ?_⟩, fun _ => access_dropped moves⟩
  cases thread with
  | producer i => exact others i
  | host => exact absurd rfl other

namespace LateDrop

def between (memory : HostMemory Unit) (pc : TryPush NativeProbeEvent) (host : Host) :
    HostConfig Unit where
  memory := memory
  locals
    | .producer _ => pc
    | .host => host

abbrev Runs (config config' : HostConfig Unit) : Prop := Relation.ReflTransGen QuietStep config config'

variable {memory memory' : HostMemory Unit} {pc pc' : TryPush NativeProbeEvent} {host host' : Host}

theorem pushes (event : NativeProbeEvent) (moves : emitEvent () event false memory pc = (memory', pc'))
    (outside : host.sampled = none) : Runs (between memory pc host) (between memory' pc' host) := by
  refine .single ⟨⟨.producer (), ⟨{ event }, moves⟩, fun thread other => ?_⟩, fun sampled => ?_⟩
  · cases thread with
    | producer i => exact absurd rfl other
    | host => rfl
  · exact absurd sampled (by rw [HostConfig.host, between, outside]; exact Bool.false_ne_true)

theorem hosts (disable : Bool) (moves : Host.access disable (fun _ => none) memory host =
    (memory', host')) : Runs (between memory pc host) (between memory' pc host') :=
  .single (HostStep.quiet ⟨⟨{ disable }, moves⟩, fun _ => rfl⟩)

/-- The first `k` positions are published and nothing is popped. -/
structure Filled (k : Nat) (memory : HostMemory Unit) : Prop where
  enqueue : memory.ring.queue.enqueuePosition = UInt64.ofNat k
  dequeue : memory.ring.queue.dequeuePosition = 0
  dropped : memory.ring.queue.dropped = 0
  reported : memory.reportedDroppedEvents = 0
  slots : ∀ p : UInt64, p.toNat < 8192 →
    (memory.ring.slot p).sequence = if p.toNat < k then p + 1 else p

theorem toNat_ofNat {k : Nat} (small : k ≤ 8192) : (UInt64.ofNat k).toNat = k :=
  UInt64.toNat_ofNat_of_lt' (show k < 2 ^ 64 by omega)

theorem ofNat_succ (k : Nat) : UInt64.ofNat k + 1 = UInt64.ofNat (k + 1) := (UInt64.ofNat_add k 1).symm

theorem slotIndex_eq {p q : UInt64} (pLow : p.toNat < 8192) (qLow : q.toNat < 8192) :
    slotIndex p = slotIndex q ↔ p = q := by
  rw [slotIndex_eq_iff, Nat.mod_eq_of_lt pLow, Nat.mod_eq_of_lt qLow, UInt64.toNat_inj]

/-- The ring after one more push. -/
def pushed (memory : HostMemory Unit) (position : UInt64) : HostMemory Unit :=
  { memory with
    ring := ((memory.ring.reserve () position {}).write position {}).publish position
    notificationPending := true }

theorem pushed_filled {k : Nat} (room : k < 8192) (filled : Filled k memory) :
    Filled (k + 1) (pushed memory (.ofNat k)) := by
  have position : (UInt64.ofNat k).toNat = k := toNat_ofNat room.le
  refine ⟨ofNat_succ k, filled.dequeue, filled.dropped, filled.reported, fun p low => ?_⟩
  rw [pushed, ProbeQueueRun.slot_publish]
  by_cases same : p = UInt64.ofNat k
  · rw [if_pos (congrArg slotIndex same), same, position, if_pos (Nat.lt_succ_self k)]
  · have apart : slotIndex p ≠ slotIndex (UInt64.ofNat k) :=
      mt (slotIndex_eq low (by omega)).1 same
    have other : p.toNat ≠ k := fun eq => same (UInt64.toNat_inj.1 (eq.trans position.symm))
    rw [if_neg apart, ProbeQueueRun.slot_write, if_neg apart]
    refine (filled.slots p low).trans (if_congr ?_ rfl rfl)
    omega

theorem fill_one {k : Nat} (room : k < 8192) (filled : Filled k memory) :
    Runs (between memory .idle .idle) (between (pushed memory (.ofNat k)) .idle .idle) := by
  have position : (UInt64.ofNat k).toNat = k := toNat_ofNat room.le
  have turn : (memory.ring.slot (UInt64.ofNat k)).sequence = UInt64.ofNat k := by
    rw [filled.slots _ (by omega), position, if_neg (lt_irrefl k)]
  let weight := nativeProbeDropWeight {}
  have calls : Runs (between memory .idle .idle)
      (between memory (.loadPosition {} weight) .idle) := pushes {} rfl rfl
  have loads : Runs (between memory (.loadPosition {} weight) .idle)
      (between memory (.loadSequence {} weight (.ofNat k)) .idle) := by
    refine pushes {} ?_ rfl
    rw [← filled.enqueue]
    rfl
  have finds : Runs (between memory (.loadSequence {} weight (.ofNat k)) .idle)
      (between memory (.exchangePosition {} weight (.ofNat k)) .idle) := by
    refine pushes {} ?_ rfl
    simp only [emitEvent, TryPush.access, turn, UInt64.sub_self]
    rfl
  have wins : Runs (between memory (.exchangePosition {} weight (.ofNat k)) .idle)
      (between { memory with ring := memory.ring.reserve () (.ofNat k) {} }
        (.writeEvent {} (.ofNat k)) .idle) := by
    refine pushes {} ?_ rfl
    simp [emitEvent, TryPush.access, filled.enqueue]
  have writes : Runs (between { memory with ring := memory.ring.reserve () (.ofNat k) {} }
      (.writeEvent {} (.ofNat k)) .idle) (between (pushed memory (.ofNat k)) .idle .idle) :=
    (pushes {} rfl rfl).trans ((pushes {} rfl rfl).trans (pushes {} rfl rfl))
  exact calls.trans (loads.trans (finds.trans (wins.trans writes)))

theorem fill {k : Nat} (most : k ≤ 8192) :
    ∃ memory, Filled k memory ∧ Runs (configured Unit) (between memory .idle .idle) := by
  induction k with
  | zero =>
    refine ⟨(configured Unit).memory, ⟨rfl, rfl, rfl, rfl, fun p low => ?_⟩, ?_⟩
    · have fresh : (ProbeQueueRun.new : ProbeQueueRun Unit NativeProbeEvent).Consistent := .new
      exact fresh.sequences p ⟨Nat.zero_le _, (Nat.zero_add 8192).symm ▸ low⟩
    · have same : configured Unit = between (configured Unit).memory .idle .idle := by
        refine congrArg (Config.mk _) (funext fun thread => ?_)
        cases thread <;> rfl
      rw [← same]
  | succ k ih =>
    obtain ⟨memory, filled, run⟩ := ih (Nat.le_of_succ_le most)
    exact ⟨_, pushed_filled most filled, run.trans (fill_one most filled)⟩

/-- The full ring refuses a push, which stops short of counting the drop. -/
theorem refused (filled : Filled 8192 memory) :
    Runs (between memory .idle .idle)
      (between memory (.loadDropped (nativeProbeDropWeight {})) .idle) := by
  let weight := nativeProbeDropWeight {}
  have calls : Runs (between memory .idle .idle)
      (between memory (.loadPosition {} weight) .idle) := pushes {} rfl rfl
  have loads : Runs (between memory (.loadPosition {} weight) .idle)
      (between memory (.loadSequence {} weight 8192) .idle) := by
    refine pushes {} ?_ rfl
    rw [show (8192 : UInt64) = memory.ring.queue.enqueuePosition from filled.enqueue.symm]
    rfl
  have turned : (memory.ring.slot 8192).sequence = 1 :=
    (congrArg Slot.sequence (ProbeQueueRun.slot_eq_of_index (by decide))).trans
      (filled.slots 0 (by decide))
  have refuses : Runs (between memory (.loadSequence {} weight 8192) .idle)
      (between memory (.loadDropped weight) .idle) := by
    refine pushes {} ?_ rfl
    simp only [emitEvent, TryPush.access, turned]
    rfl
  exact calls.trans (loads.trans refuses)

/-- The host after one more pop. -/
def popped (memory : HostMemory Unit) (position : UInt64) : HostMemory Unit :=
  { memory with
    ring := ((memory.ring.read position).release position).advance position
    emitted := memory.emitted ++ [.event (tabbed (fun _ => none) (memory.ring.slot position).event)] }

variable {turn : DrainTurn}

/-- With nothing left to pop, Drain reads the counter and leaves. -/
theorem leaves (pc : TryPush NativeProbeEvent) (turn : DrainTurn)
    (dequeue : memory.ring.queue.dequeuePosition = 8192)
    (head : (memory.ring.slot 8192).sequence = 8192)
    (silent : Host.report memory turn = memory) :
    ∃ turn', turn'.disabling = turn.disabling ∧
      Runs (between memory pc (.tryPop turn .loadPosition))
        (between { memory with notificationPending := false } pc (Host.leave turn')) := by
  let read := { turn with
    unreported := memory.ring.queue.dropped > memory.reportedDroppedEvents }
  refine ⟨read, rfl, ?_⟩
  have loads : Runs (between memory pc (.tryPop turn .loadPosition))
      (between memory pc (.tryPop turn (.loadSequence 8192))) := by
    refine hosts false ?_
    rw [← dequeue]
    rfl
  have finds : Runs (between memory pc (.tryPop turn (.loadSequence 8192)))
      (between memory pc (.tryPop turn (.returned none))) := by
    refine hosts false ?_
    simp only [Host.access, TryPop.access, head]
    rfl
  have looks : Runs (between memory pc (.tryPop turn (.returned none)))
      (between memory pc (.droppedCount turn)) := hosts false rfl
  have reports : Runs (between memory pc (.droppedCount turn))
      (between memory pc (.clearNotification read)) := by
    refine hosts false ?_
    rw [Host.access, silent]
  have clears : Runs (between memory pc (.clearNotification read))
      (between { memory with notificationPending := false } pc (.emptySequence read 8192)) := by
    refine (hosts false rfl).trans (hosts false ?_)
    rw [← dequeue]
    rfl
  have leaves : Runs
      (between { memory with notificationPending := false } pc (.emptySequence read 8192))
      (between { memory with notificationPending := false } pc (Host.leave read)) := by
    refine hosts false ?_
    rw [Host.access]
    exact if_pos (by
      show ((memory.ring.slot 8192).sequence != 8192 + 1) = true
      rw [head]
      decide)
  exact loads.trans (finds.trans (looks.trans (reports.trans (clears.trans leaves))))

end LateDrop

end Reb.Probe
