/-
# Evidence.EventBroker -- the bounded event ring and its sequence trackers

`EventBroker` keeps the newest `capacity` accepted events and, per
(session, process) stream, the range of sequence numbers seen with the intervals
still missing.  Streams are evicted first in, first out, when there are more than
`capacity` of them or more than `capacity` intervals in total.

The C++ reads `stream_insertion_order_.front()` and dereferences the iterator of
`sequence_trackers_.find` without a check.  Here such a read has no result
(`none`), so that `ingestAt` returning `some` says it never happens.
-/
import Reb.Capture.EventValidity
import Reb.Theory.FifoMap
import Reb.Theory.OrderedMap
import Reb.Theory.Word64

namespace Reb.Evidence

set_option autoImplicit false

open Reb.Capture Reb.Theory Reb.Theory.FifoMap

/-! ## Session policy -/

inductive IngestStatus where
  | kAccepted | kInvalid | kCategoryRejected | kSessionExpired
  deriving DecidableEq, Repr

def kAllEventCategoryMask : UInt64 := (1 <<< EventCategory.runtime.toUInt16.toUInt64) - 1

def eventCategoryMask (category : EventCategory) : UInt64 :=
  let value := category.toUInt16
  if value == 0 || value > EventCategory.runtime.toUInt16 then 0
  else 1 <<< (value - 1).toUInt64

structure SessionPolicy where
  categoryMask : UInt64 := kAllEventCategoryMask
  expiresAtMonotonicNs : UInt64 := 0xffffffffffffffff
  deriving DecidableEq, Repr

namespace SessionPolicy

def isValid (policy : SessionPolicy) : Bool :=
  policy.categoryMask != 0 && (policy.categoryMask &&& ~~~kAllEventCategoryMask) == 0 &&
    policy.expiresAtMonotonicNs != 0

def allows (policy : SessionPolicy) (category : EventCategory) : Bool :=
  let categoryBit := eventCategoryMask category
  categoryBit != 0 && (policy.categoryMask &&& categoryBit) != 0

def isExpired (policy : SessionPolicy) (monotonicNowNs : UInt64) : Bool :=
  monotonicNowNs ≥ policy.expiresAtMonotonicNs

end SessionPolicy

/-! ## Reported drops -/

/-- The digit loop of `ReportedQueueDrops`. -/
def reportedDigits : List UInt8 → UInt64 → UInt64
  | [], count => count
  | digit :: rest, count =>
      if digit < 0x30 || digit > 0x39 then 1
      else
        let value := (digit - 0x30).toUInt64
        if count > (0xffffffffffffffff - value) / 10 then 1
        else reportedDigits rest (count * 10 + value)

/-- A gap payload is a decimal drop count; anything else weighs one event. -/
def reportedQueueDrops (event : EventRecord) : UInt64 :=
  match inlinePayload event with
  | [] => 1
  | first :: rest =>
      if (first :: rest).length > 20 then 1
      else if first < 0x31 || first > 0x39 then 1
      else reportedDigits (first :: rest) 0

/-! ## State -/

structure BrokerStats where
  accepted : UInt64 := 0
  invalid : UInt64 := 0
  categoryRejected : UInt64 := 0
  expired : UInt64 := 0
  sequenceGaps : UInt64 := 0
  sequenceGapsSaturated : Bool := false
  queueDrops : UInt64 := 0
  queueDropsSaturated : Bool := false
  sequenceTrackingEvictions : UInt64 := 0
  evicted : UInt64 := 0
  deriving DecidableEq, Repr

structure StreamKey where
  sessionId : UInt64 := 0
  processId : UInt32 := 0
  deriving DecidableEq, Repr

structure SequenceTracker where
  low : UInt64 := 0
  high : UInt64 := 0
  missing : OrderedMap UInt64 UInt64 := ∅
  deriving DecidableEq

structure EventBroker where
  capacity : UInt64
  policy : SessionPolicy := {}
  events : List EventRecord := []
  nextEvent : UInt64 := 0
  stats : BrokerStats := {}
  sequenceTrackers : Map StreamKey SequenceTracker := ∅
  missingIntervalCount : UInt64 := 0
  streamInsertionOrder : List StreamKey := []

/-- `std::vector<EventRecord>::max_size()`, 320 bytes a record. -/
def maxReservedEvents : Nat := (2 ^ 63 - 1) / 320

/-- The constructor; `reserve` throws on a capacity no vector can have. -/
def EventBroker.construct (capacity : UInt64) (policy : SessionPolicy := {}) :
    Except String EventBroker :=
  if capacity == 0 then .error "EventBroker capacity must be greater than zero"
  else if !policy.isValid then .error "EventBroker session policy is invalid"
  else if capacity.toNat > maxReservedEvents then .error "vector::reserve"
  else .ok { capacity, policy }

/-! ## Sequence tracking -/

/-- The three branches of `TrackSequence` for a stream already tracked: extend
the range upwards, downwards, or fill one number of the hole that holds it. -/
def SequenceTracker.observe (tracker : SequenceTracker) (sequence : UInt64) : SequenceTracker :=
  if sequence > tracker.high then
    { tracker with
      missing := if sequence - tracker.high > 1 then
          tracker.missing.emplace (tracker.high + 1) (sequence - 1)
        else tracker.missing
      high := sequence }
  else if sequence < tracker.low then
    { tracker with
      missing := if tracker.low - sequence > 1 then
          tracker.missing.emplace (sequence + 1) (tracker.low - 1)
        else tracker.missing
      low := sequence }
  else
    -- `upper_bound` stepped back once; at `begin` there is nothing to fill.
    match tracker.missing.floor sequence with
    | none => tracker
    | some (first, last) =>
        if sequence ≤ last then
          let without := tracker.missing.erase first
          let left := if first < sequence then without.emplace first (sequence - 1) else without
          let both := if sequence < last then left.emplace (sequence + 1) last else left
          { tracker with missing := both }
        else tracker

namespace EventBroker

/-- Drop the oldest stream; `none` when the queue is empty or its front is not a
key of the map. -/
def evictSequenceTracker (broker : EventBroker) : Option EventBroker :=
  match broker.streamInsertionOrder with
  | [] => none
  | front :: rest =>
      match broker.sequenceTrackers.lookup front with
      | none => none
      | some tracker =>
          some { broker with
            missingIntervalCount := broker.missingIntervalCount - tracker.missing.size.toUInt64
            sequenceTrackers := broker.sequenceTrackers.erase front
            streamInsertionOrder := rest
            stats := { broker.stats with
              sequenceTrackingEvictions := broker.stats.sequenceTrackingEvictions + 1 } }

/-- `while (missing_interval_count_ > capacity_) EvictSequenceTracker();`.  Each
round pops the queue, so as many rounds as it has entries are all there can be
before a read of an empty front. -/
def evictWhileOver : Nat → EventBroker → Option EventBroker
  | rounds, broker =>
      if broker.missingIntervalCount > broker.capacity then
        match rounds with
        | 0 => none
        | rounds + 1 => broker.evictSequenceTracker.bind (evictWhileOver rounds)
      else some broker

/-- Room for one more stream. -/
def makeRoom (broker : EventBroker) : Option EventBroker :=
  if size broker.sequenceTrackers = broker.capacity.toNat then broker.evictSequenceTracker
  else some broker

def addStream (broker : EventBroker) (stream : StreamKey) (sequence : UInt64) : EventBroker :=
  { broker with
    sequenceTrackers := broker.sequenceTrackers.insert stream ⟨sequence, sequence, ∅⟩
    streamInsertionOrder := broker.streamInsertionOrder ++ [stream] }

/-- Replace `tracker` by `updated`, with the counter's unsigned subtract-then-add. -/
def updateStream (broker : EventBroker) (stream : StreamKey) (tracker updated : SequenceTracker) :
    EventBroker :=
  { broker with
    sequenceTrackers := broker.sequenceTrackers.insert stream updated
    missingIntervalCount := broker.missingIntervalCount - tracker.missing.size.toUInt64 +
      updated.missing.size.toUInt64 }

def trackSequence (broker : EventBroker) (stream : StreamKey) (sequence : UInt64) :
    Option EventBroker :=
  match broker.sequenceTrackers.lookup stream with
  | none => broker.makeRoom.map (addStream · stream sequence)
  | some tracker =>
      let updated := broker.updateStream stream tracker (tracker.observe sequence)
      evictWhileOver updated.streamInsertionOrder.length updated

/-- The stream an event is counted in. -/
def streamOf (event : EventRecord) : StreamKey := ⟨event.header.sessionId, event.header.processId⟩

/-- What `IngestAt` does after tracking: count reported drops and store the event. -/
def record (broker : EventBroker) (event : EventRecord) : EventBroker :=
  let stats := broker.stats
  let stats := if event.header.type = .gap then
      let drops := Saturating.add (stats.queueDrops, stats.queueDropsSaturated)
        (reportedQueueDrops event)
      { stats with queueDrops := drops.1, queueDropsSaturated := drops.2 }
    else stats
  let full := broker.events.length = broker.capacity.toNat
  let events := if full then broker.events.set broker.nextEvent.toNat event
    else broker.events ++ [event]
  let stats := if full then { stats with evicted := stats.evicted + 1 } else stats
  let next := broker.nextEvent + 1
  { broker with
    events
    nextEvent := if next == broker.capacity then 0 else next
    stats := { stats with accepted := stats.accepted + 1 } }

def ingestAt (broker : EventBroker) (event : EventRecord) (monotonicNowNs : UInt64) :
    Option (IngestStatus × EventBroker) :=
  let stats := broker.stats
  if !isValidEvent event then
    some (.kInvalid, { broker with stats := { stats with invalid := stats.invalid + 1 } })
  else if broker.policy.isExpired monotonicNowNs then
    some (.kSessionExpired, { broker with stats := { stats with expired := stats.expired + 1 } })
  else if !broker.policy.allows event.header.category then
    some (.kCategoryRejected,
      { broker with stats := { stats with categoryRejected := stats.categoryRejected + 1 } })
  else
    (broker.trackSequence (streamOf event) event.header.sequenceNumber).map fun tracked =>
      (.kAccepted, tracked.record event)

/-- A run of `IngestAt` calls, with the events it accepted, in order. -/
def ingestAll (broker : EventBroker) : List (EventRecord × UInt64) →
    Option (List EventRecord × EventBroker)
  | [] => some ([], broker)
  | (event, now) :: rest =>
      (broker.ingestAt event now).bind fun (status, next) =>
        (ingestAll next rest).map fun (accepted, last) =>
          (if status = .kAccepted then event :: accepted else accepted, last)

/-- `Stats`: the counters, with the gap total recomputed over all trackers. -/
def statsOf (broker : EventBroker) : BrokerStats :=
  let gaps := broker.sequenceTrackers.entries.foldl
    (fun total entry => entry.2.missing.entries.foldl
      (fun total hole => Saturating.add total (hole.2 - hole.1 + 1)) total) (0, false)
  { broker.stats with sequenceGaps := gaps.1, sequenceGapsSaturated := gaps.2 }

end EventBroker

end Reb.Evidence
