/-
# Probe.ProbeQueue -- the bounded queue the renderer probes push into

`TryPush` and `TryPop` as programs that stand, between two accesses to the shared
region, at a named point with their local variables.  Every atomic load, store
and compare-exchange is one access; the two plain copies of an event are accesses
of their own.  What the code does not keep is recorded beside the queue: which
push won which position, which positions were published, what was popped.
-/
import Reb.Theory.Interleaving

namespace Reb.Probe

set_option autoImplicit false

def kNativeProbeQueueCapacity : UInt64 := 8192

def kIndexMask : UInt64 := kNativeProbeQueueCapacity - 1

structure Slot (Event : Type) where
  sequence : UInt64
  event : Event

structure NativeProbeQueue (Event : Type) where
  enqueuePosition : UInt64
  dequeuePosition : UInt64
  dropped : UInt64
  slots : Fin kNativeProbeQueueCapacity.toNat → Slot Event

/-- A push that moved `enqueue_position_` past its position. -/
structure Win (ι Event : Type) where
  producer : ι
  position : UInt64
  event : Event

/-- The queue and the record of what its threads did, in order. -/
structure ProbeQueueRun (ι Event : Type) where
  queue : NativeProbeQueue Event
  won : List (Win ι Event)
  published : List UInt64
  popped : List (UInt64 × Event)
  released : Nat

/-- `position & kIndexMask`. -/
def slotIndex (position : UInt64) : Fin kNativeProbeQueueCapacity.toNat :=
  ⟨(position &&& kIndexMask).toNat, by
    rw [UInt64.toNat_and]
    exact lt_of_le_of_lt Nat.and_le_right (by decide)⟩

namespace NativeProbeQueue

variable {Event : Type}

def slot (queue : NativeProbeQueue Event) (position : UInt64) : Slot Event :=
  queue.slots (slotIndex position)

def setSlot (queue : NativeProbeQueue Event) (position : UInt64) (slot : Slot Event) :
    NativeProbeQueue Event :=
  { queue with slots := Function.update queue.slots (slotIndex position) slot }

/-- The constructor: slot `i` carries sequence `i`. -/
def new [Inhabited Event] : NativeProbeQueue Event where
  enqueuePosition := 0
  dequeuePosition := 0
  dropped := 0
  slots index := { sequence := UInt64.ofNat index, event := default }

end NativeProbeQueue

namespace ProbeQueueRun

variable {ι Event : Type}

def new [Inhabited Event] : ProbeQueueRun ι Event where
  queue := .new
  won := []
  published := []
  popped := []
  released := 0

def slot (run : ProbeQueueRun ι Event) (position : UInt64) : Slot Event :=
  run.queue.slot position

/-- `enqueue_position_` moves past `position`. -/
def reserve (run : ProbeQueueRun ι Event) (producer : ι) (position : UInt64) (event : Event) :
    ProbeQueueRun ι Event :=
  { run with
    queue := { run.queue with enqueuePosition := position + 1 }
    won := run.won ++ [⟨producer, position, event⟩] }

/-- `slot.event = event`. -/
def write (run : ProbeQueueRun ι Event) (position : UInt64) (event : Event) :
    ProbeQueueRun ι Event :=
  { run with queue := run.queue.setSlot position { run.slot position with event } }

/-- `slot.sequence.store(position + 1)`. -/
def publish (run : ProbeQueueRun ι Event) (position : UInt64) : ProbeQueueRun ι Event :=
  { run with
    queue := run.queue.setSlot position { run.slot position with sequence := position + 1 }
    published := run.published ++ [position] }

def setDropped (run : ProbeQueueRun ι Event) (dropped : UInt64) : ProbeQueueRun ι Event :=
  { run with queue := { run.queue with dropped } }

/-- `event = slot.event`. -/
def read (run : ProbeQueueRun ι Event) (position : UInt64) : ProbeQueueRun ι Event :=
  { run with popped := run.popped ++ [(position, (run.slot position).event)] }

/-- `slot.sequence.store(position + kNativeProbeQueueCapacity)`. -/
def release (run : ProbeQueueRun ι Event) (position : UInt64) : ProbeQueueRun ι Event :=
  { run with
    queue := run.queue.setSlot position
      { run.slot position with sequence := position + kNativeProbeQueueCapacity }
    released := run.released + 1 }

/-- `dequeue_position_.store(position + 1)`. -/
def advance (run : ProbeQueueRun ι Event) (position : UInt64) : ProbeQueueRun ι Event :=
  { run with queue := { run.queue with dequeuePosition := position + 1 } }

end ProbeQueueRun

/-! ## Producers -/

/-- The next access of a producer in `TryPush`, and of the `IncrementDroppedCount` it calls. -/
inductive TryPush (Event : Type) where
  | idle
  | loadPosition (event : Event) (droppedWeight : UInt64)
  | loadSequence (event : Event) (droppedWeight position : UInt64)
  | exchangePosition (event : Event) (droppedWeight position : UInt64)
  | writeEvent (event : Event) (position : UInt64)
  | storeSequence (event : Event) (position : UInt64)
  | loadDropped (droppedWeight : UInt64)
  | exchangeDropped (droppedWeight dropped : UInt64)
  | returned (accepted : Bool)

/-- `next` in `IncrementDroppedCount`. -/
def nextDropped (droppedWeight dropped : UInt64) : UInt64 :=
  let remaining := UInt64.ofNat (UInt64.size - 1) - dropped
  let boundedWeight := if droppedWeight = 0 then 1 else droppedWeight
  dropped + (if boundedWeight > remaining then remaining else boundedWeight)

namespace TryPush

variable {ι Event : Type}

/-- The loop head of `IncrementDroppedCount`. -/
def countDropped (droppedWeight dropped : UInt64) : TryPush Event :=
  if dropped = UInt64.ofNat (UInt64.size - 1) then .returned false
  else .exchangeDropped droppedWeight dropped

/-- One access of a producer.  `call` is the next call's arguments, read where the
producer is between two calls; `spurious` lets a weak exchange fail. -/
def access (producer : ι) (call : Event × UInt64) (spurious : Bool)
    (run : ProbeQueueRun ι Event) : TryPush Event → ProbeQueueRun ι Event × TryPush Event
  | .idle => (run, .loadPosition call.1 call.2)
  | .loadPosition event droppedWeight =>
      (run, .loadSequence event droppedWeight run.queue.enqueuePosition)
  | .loadSequence event droppedWeight position =>
      let difference := ((run.slot position).sequence - position).toInt64
      if difference = 0 then (run, .exchangePosition event droppedWeight position)
      else if difference < 0 then (run, .loadDropped droppedWeight)
      else (run, .loadPosition event droppedWeight)
  | .exchangePosition event droppedWeight position =>
      if run.queue.enqueuePosition = position ∧ spurious = false then
        (run.reserve producer position event, .writeEvent event position)
      else (run, .loadSequence event droppedWeight run.queue.enqueuePosition)
  | .writeEvent event position => (run.write position event, .storeSequence event position)
  | .storeSequence _ position => (run.publish position, .returned true)
  | .loadDropped droppedWeight => (run, countDropped droppedWeight run.queue.dropped)
  | .exchangeDropped droppedWeight dropped =>
      if run.queue.dropped = dropped ∧ spurious = false then
        (run.setDropped (nextDropped droppedWeight dropped), .returned false)
      else (run, countDropped droppedWeight run.queue.dropped)
  | .returned _ => (run, .loadPosition call.1 call.2)

end TryPush

/-! ## The consumer -/

/-- The next access of the consumer in `TryPop`. -/
inductive TryPop (Event : Type) where
  | idle
  | loadPosition
  | loadSequence (position : UInt64)
  | readEvent (position : UInt64)
  | storeSequence (position : UInt64) (event : Event)
  | storePosition (position : UInt64) (event : Event)
  | returned (event : Option Event)

namespace TryPop

variable {ι Event : Type}

def access (run : ProbeQueueRun ι Event) : TryPop Event → ProbeQueueRun ι Event × TryPop Event
  | .idle => (run, .loadPosition)
  | .loadPosition => (run, .loadSequence run.queue.dequeuePosition)
  | .loadSequence position =>
      let difference := ((run.slot position).sequence - (position + 1)).toInt64
      if difference ≠ 0 then (run, .returned none) else (run, .readEvent position)
  | .readEvent position => (run.read position, .storeSequence position (run.slot position).event)
  | .storeSequence position event => (run.release position, .storePosition position event)
  | .storePosition position event => (run.advance position, .returned (some event))
  | .returned _ => (run, .loadPosition)

end TryPop

/-! ## The threads -/

inductive QueueThread (ι : Type) where
  | producer (i : ι)
  | consumer
  deriving DecidableEq

abbrev QueueThread.Local (ι Event : Type) : QueueThread ι → Type
  | .producer _ => TryPush Event
  | .consumer => TryPop Event

open Theory.Interleaving

variable {ι Event : Type}

abbrev QueueConfig (ι Event : Type) : Type :=
  Config (QueueThread.Local ι Event) (ProbeQueueRun ι Event)

/-- What an access leaves open: the next call's arguments, and whether a weak exchange fails. -/
abbrev QueueChoice (Event : Type) : Type := (Event × UInt64) × Bool

def queueMachine :
    Machine (QueueThread.Local ι Event) (ProbeQueueRun ι Event) (QueueChoice Event)
  | .producer i, choice, run, pc => TryPush.access i choice.1 choice.2 run pc
  | .consumer, _, run, pc => TryPop.access run pc

/-- The constructed queue, before any call. -/
def constructed (ι Event : Type) [Inhabited Event] : QueueConfig ι Event where
  memory := .new
  locals
    | .producer _ => TryPush.idle
    | .consumer => TryPop.idle

end Reb.Probe
