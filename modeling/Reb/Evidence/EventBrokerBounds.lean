/-
# Evidence.EventBrokerBounds -- the tracking state stays bounded and consistent

`Tracked` is what one eviction preserves: the queue lists the keys, the counter
is the true number of intervals, there are at most `capacity` streams.
`Consistent` adds that the intervals fit too.  Between the two lies one call:
`TrackSequence` may add a single interval too many, and the eviction loop takes
`Tracked` back to `Consistent` before the queue can run dry
(`evict_while_over_restores`), because no stream means no interval.
-/
import Reb.Evidence.EventBroker

namespace Reb.Evidence

set_option autoImplicit false

open Reb.Capture Reb.Theory Reb.Theory.FifoMap

/-- Filling or extending adds at most one interval. -/
theorem SequenceTracker.observe_size_le (tracker : SequenceTracker) (sequence : UInt64) :
    (tracker.observe sequence).missing.size ≤ tracker.missing.size + 1 := by
  unfold observe
  split
  · dsimp only
    split
    · exact OrderedMap.size_emplace_le _ _ _
    · exact Nat.le_succ _
  split
  · dsimp only
    split
    · exact OrderedMap.size_emplace_le _ _ _
    · exact Nat.le_succ _
  split
  · exact Nat.le_succ _
  · rename_i first last found
    split
    · -- one interval goes, at most two come back
      have removed := OrderedMap.size_erase_of_mem (OrderedMap.floor_mem found).1
      dsimp only at removed ⊢
      have left : (if first < sequence then (tracker.missing.erase first).emplace first (sequence - 1)
          else tracker.missing.erase first).size ≤ tracker.missing.size := by
        split
        · exact (OrderedMap.size_emplace_le _ _ _).trans removed.le
        · omega
      split
      · exact (OrderedMap.size_emplace_le _ _ _).trans (Nat.succ_le_succ left)
      · exact left.trans (Nat.le_succ _)
    · exact Nat.le_succ _

namespace EventBroker

/-- The number of missing intervals over all streams. -/
def intervalTotal (trackers : Map StreamKey SequenceTracker) : Nat :=
  total (fun tracker => tracker.missing.size) trackers

/-- The part of the invariant an eviction preserves. -/
structure Tracked (capacity : UInt64) (broker : EventBroker) : Prop where
  capacity_eq : broker.capacity = capacity
  capacity_pos : 0 < capacity.toNat
  capacity_le : capacity.toNat ≤ maxReservedEvents
  listsKeys : ListsKeys broker.streamInsertionOrder broker.sequenceTrackers
  count : broker.missingIntervalCount.toNat = intervalTotal broker.sequenceTrackers
  trackers_le : size broker.sequenceTrackers ≤ capacity.toNat

/-- What holds of a broker between two calls. -/
structure Consistent (capacity : UInt64) (broker : EventBroker) : Prop
    extends Tracked capacity broker where
  intervals_le : intervalTotal broker.sequenceTrackers ≤ capacity.toNat

theorem construct_consistent {capacity : UInt64} {policy : SessionPolicy} {broker : EventBroker}
    (constructed : construct capacity policy = .ok broker) : Consistent capacity broker := by
  unfold construct at constructed
  split at constructed
  · cases constructed
  split at constructed
  · cases constructed
  split at constructed
  · cases constructed
  rename_i nonzero _ reservable
  cases constructed
  have positive : capacity.toNat ≠ 0 := fun zero => by
    simp [UInt64.toNat.inj (b := 0) zero] at nonzero
  exact { capacity_eq := rfl
          capacity_pos := Nat.pos_of_ne_zero positive
          capacity_le := not_lt.1 reservable
          listsKeys := ListsKeys.nil
          count := rfl
          trackers_le := Nat.zero_le _
          intervals_le := Nat.zero_le _ }

variable {capacity : UInt64} {broker : EventBroker}

/-! ## Eviction -/

/-- Subtracting part of a total from its counter does not wrap. -/
theorem count_sub {count : UInt64} {whole part : Nat} (eq : count.toNat = whole)
    (le : part ≤ whole) : (count - part.toUInt64).toNat = whole - part := by
  have bound := count.toNat_lt
  have small : part.toUInt64.toNat = part :=
    UInt64.toNat_ofNat_of_lt' (by rw [UInt64.size]; omega)
  rw [UInt64.toNat_sub_of_le _ _ (by rw [UInt64.le_iff_toNat_le, small]; omega), small, eq]

/-- A tracked broker with a stream evicts its front, and only that. -/
theorem evict_sequence_tracker_eq (tracked : Tracked capacity broker)
    {front : StreamKey} {rest : List StreamKey}
    (order : broker.streamInsertionOrder = front :: rest) :
    ∃ evicted, broker.evictSequenceTracker = some evicted ∧ Tracked capacity evicted ∧
      evicted.streamInsertionOrder = rest ∧
      evicted.sequenceTrackers = broker.sequenceTrackers.erase front ∧
      size evicted.sequenceTrackers + 1 = size broker.sequenceTrackers ∧
      intervalTotal evicted.sequenceTrackers ≤ intervalTotal broker.sequenceTrackers := by
  have lists := tracked.listsKeys
  rw [order] at lists
  obtain ⟨tracker, found⟩ := Option.isSome_iff_exists.1 (AList.lookup_isSome.2 lists.front_mem)
  have removed : intervalTotal (broker.sequenceTrackers.erase front) + tracker.missing.size =
      intervalTotal broker.sequenceTrackers := total_erase found
  have fewer := size_erase lists.front_mem
  have within := tracked.trackers_le
  simp only [evictSequenceTracker, order, found, Option.some.injEq, exists_eq_left', true_and,
    fewer]
  refine ⟨?_, by omega⟩
  exact { capacity_eq := tracked.capacity_eq
          capacity_pos := tracked.capacity_pos
          capacity_le := tracked.capacity_le
          listsKeys := lists.pop
          count := (count_sub tracked.count (by omega)).trans (by dsimp only; omega)
          trackers_le := by dsimp only; omega }

/-- The loop ends with the intervals within capacity: after as many rounds as
there are streams no interval is left. -/
theorem evict_while_over_restores (rounds : Nat) (tracked : Tracked capacity broker)
    (enough : broker.streamInsertionOrder.length ≤ rounds) :
    ∃ restored, evictWhileOver rounds broker = some restored ∧ Consistent capacity restored := by
  induction rounds generalizing broker with
  | zero =>
      have noStream : broker.streamInsertionOrder = [] := List.length_eq_zero_iff.1 (by omega)
      have noKeys : broker.sequenceTrackers.keys = [] := by
        have := tracked.listsKeys
        rw [noStream] at this
        exact List.nil_perm.1 this
      have noInterval : intervalTotal broker.sequenceTrackers = 0 := by
        have : broker.sequenceTrackers.entries = [] := List.map_eq_nil_iff.1 noKeys
        simp [intervalTotal, total, this]
      have within : ¬ broker.missingIntervalCount > broker.capacity := by
        rw [gt_iff_lt, UInt64.lt_iff_toNat_lt, tracked.count, noInterval]; omega
      refine ⟨broker, by rw [evictWhileOver, if_neg within], ⟨tracked, ?_⟩⟩
      rw [noInterval]; exact Nat.zero_le _
  | succ rounds ih =>
      rw [evictWhileOver]
      split
      · rename_i exceeds
        cases order : broker.streamInsertionOrder with
        | nil =>
            -- no stream, yet the counter is positive
            obtain ⟨restored, eq, -⟩ := ih tracked (by rw [order]; exact Nat.zero_le _)
            cases rounds <;> simp [evictWhileOver, exceeds, evictSequenceTracker, order] at eq
        | cons front rest =>
            obtain ⟨evicted, eq, evictedTracked, tail, -⟩ := evict_sequence_tracker_eq tracked order
            rw [order, List.length_cons] at enough
            obtain ⟨restored, loop, consistent⟩ := ih evictedTracked (by rw [tail]; omega)
            refine ⟨restored, ?_, consistent⟩
            simp only [eq, Option.bind_some, loop]
      · rename_i within
        refine ⟨broker, rfl, ⟨tracked, ?_⟩⟩
        rw [← tracked.count, ← tracked.capacity_eq]
        simpa [UInt64.lt_iff_toNat_lt] using within

/-! ## One call -/

/-- A new stream finds room: at capacity there is a front to evict. -/
theorem make_room_consistent (consistent : Consistent capacity broker) {stream : StreamKey}
    (absent : stream ∉ broker.sequenceTrackers) :
    ∃ room, broker.makeRoom = some room ∧ Consistent capacity room ∧
      stream ∉ room.sequenceTrackers ∧ size room.sequenceTrackers < capacity.toNat := by
  unfold makeRoom
  rw [consistent.capacity_eq]
  split
  · rename_i full
    have positive := consistent.capacity_pos
    cases order : broker.streamInsertionOrder with
    | nil =>
        have := consistent.listsKeys.length_eq
        rw [order, List.length_nil] at this
        omega
    | cons front rest =>
        obtain ⟨evicted, eq, tracked, -, erased, fewer, less⟩ :=
          evict_sequence_tracker_eq consistent.toTracked order
        refine ⟨evicted, eq, ⟨tracked, less.trans consistent.intervals_le⟩, ?_, by omega⟩
        rw [erased, AList.mem_erase]; exact fun h => absent h.2
  · rename_i notFull
    exact ⟨broker, rfl, consistent, absent, lt_of_le_of_ne consistent.trackers_le notFull⟩

theorem add_stream_consistent (consistent : Consistent capacity broker) {stream : StreamKey}
    (absent : stream ∉ broker.sequenceTrackers)
    (space : size broker.sequenceTrackers < capacity.toNat) (sequence : UInt64) :
    Consistent capacity (broker.addStream stream sequence) := by
  have grown := size_insert_of_not_mem absent (⟨sequence, sequence, ∅⟩ : SequenceTracker)
  have same : intervalTotal (broker.sequenceTrackers.insert stream ⟨sequence, sequence, ∅⟩) =
      intervalTotal broker.sequenceTrackers := total_insert_of_not_mem absent _
  exact { capacity_eq := consistent.capacity_eq
          capacity_pos := consistent.capacity_pos
          capacity_le := consistent.capacity_le
          listsKeys := consistent.listsKeys.push absent _
          count := consistent.count.trans same.symm
          trackers_le := by dsimp only [addStream]; omega
          intervals_le := same.trans_le consistent.intervals_le }

/-- Updating a tracker may leave one interval too many, but the counter stays
exact: neither the subtraction nor the addition wraps. -/
theorem update_stream_tracked (consistent : Consistent capacity broker) {stream : StreamKey}
    {tracker : SequenceTracker}
    (found : broker.sequenceTrackers.lookup stream = some tracker) (sequence : UInt64) :
    Tracked capacity (broker.updateStream stream tracker (tracker.observe sequence)) := by
  have present : stream ∈ broker.sequenceTrackers := AList.lookup_isSome.1 (by rw [found]; rfl)
  have growth := tracker.observe_size_le sequence
  have moved : intervalTotal (broker.sequenceTrackers.insert stream (tracker.observe sequence)) +
      tracker.missing.size =
      intervalTotal broker.sequenceTrackers + (tracker.observe sequence).missing.size :=
    total_insert found _
  have removed : intervalTotal (broker.sequenceTrackers.erase stream) + tracker.missing.size =
      intervalTotal broker.sequenceTrackers := total_erase found
  have before := consistent.intervals_le
  have bounded : capacity.toNat ≤ 28823037615171174 := consistent.capacity_le
  have minus : (broker.missingIntervalCount - tracker.missing.size.toUInt64).toNat =
      intervalTotal broker.sequenceTrackers - tracker.missing.size :=
    count_sub consistent.count (by omega)
  have small : (tracker.observe sequence).missing.size.toUInt64.toNat =
      (tracker.observe sequence).missing.size :=
    UInt64.toNat_ofNat_of_lt' (by rw [UInt64.size]; omega)
  exact { capacity_eq := consistent.capacity_eq
          capacity_pos := consistent.capacity_pos
          capacity_le := consistent.capacity_le
          listsKeys := consistent.listsKeys.update present _
          count := by
            dsimp only [updateStream]
            rw [UInt64.toNat_add, minus, small, Nat.mod_eq_of_lt (by omega)]
            omega
          trackers_le := (size_insert_of_mem present _).trans_le consistent.trackers_le }

/-- `TrackSequence` always has a result, and keeps the invariant. -/
theorem track_sequence_consistent (consistent : Consistent capacity broker) (stream : StreamKey)
    (sequence : UInt64) :
    ∃ tracked, broker.trackSequence stream sequence = some tracked ∧
      Consistent capacity tracked := by
  cases found : broker.sequenceTrackers.lookup stream with
  | none =>
      obtain ⟨room, made, roomConsistent, absent, space⟩ :=
        make_room_consistent consistent (AList.lookup_eq_none.1 found)
      refine ⟨room.addStream stream sequence, ?_,
        add_stream_consistent roomConsistent absent space sequence⟩
      simp only [trackSequence, found, made, Option.map_some]
  | some tracker =>
      obtain ⟨restored, loop, after⟩ := evict_while_over_restores _
        (update_stream_tracked consistent found sequence) le_rfl
      exact ⟨restored, by simp only [trackSequence, found, loop], after⟩

/-- The invariant reads neither the ring nor the counters. -/
theorem Consistent.of_same_tracking {other : EventBroker} (consistent : Consistent capacity broker)
    (sameCapacity : other.capacity = broker.capacity)
    (sameTrackers : other.sequenceTrackers = broker.sequenceTrackers)
    (sameCount : other.missingIntervalCount = broker.missingIntervalCount)
    (sameOrder : other.streamInsertionOrder = broker.streamInsertionOrder) :
    Consistent capacity other :=
  { capacity_eq := sameCapacity.trans consistent.capacity_eq
    capacity_pos := consistent.capacity_pos
    capacity_le := consistent.capacity_le
    listsKeys := by rw [sameOrder, sameTrackers]; exact consistent.listsKeys
    count := by rw [sameCount, sameTrackers]; exact consistent.count
    trackers_le := by rw [sameTrackers]; exact consistent.trackers_le
    intervals_le := by rw [sameTrackers]; exact consistent.intervals_le }

theorem ingest_at_consistent (consistent : Consistent capacity broker) (event : EventRecord)
    (now : UInt64) :
    ∃ status after, broker.ingestAt event now = some (status, after) ∧
      Consistent capacity after := by
  unfold ingestAt
  split
  · exact ⟨_, _, rfl, consistent.of_same_tracking rfl rfl rfl rfl⟩
  split
  · exact ⟨_, _, rfl, consistent.of_same_tracking rfl rfl rfl rfl⟩
  split
  · exact ⟨_, _, rfl, consistent.of_same_tracking rfl rfl rfl rfl⟩
  obtain ⟨tracked, eq, trackedConsistent⟩ := track_sequence_consistent consistent (streamOf event)
    event.header.sequenceNumber
  refine ⟨.kAccepted, tracked.record event, ?_,
    trackedConsistent.of_same_tracking rfl rfl rfl rfl⟩
  simp only [eq, Option.map_some]

/-- A consistent broker takes any list of calls without a bad read. -/
theorem ingest_all_consistent (consistent : Consistent capacity broker)
    (inputs : List (EventRecord × UInt64)) :
    ∃ accepted after, broker.ingestAll inputs = some (accepted, after) ∧
      Consistent capacity after := by
  induction inputs generalizing broker with
  | nil => exact ⟨[], broker, rfl, consistent⟩
  | cons input rest ih =>
      obtain ⟨status, next, step, nextConsistent⟩ :=
        ingest_at_consistent consistent input.1 input.2
      obtain ⟨accepted, after, run, afterConsistent⟩ := ih nextConsistent
      refine ⟨if status = .kAccepted then input.1 :: accepted else accepted, after, ?_,
        afterConsistent⟩
      simp only [ingestAll, step, Option.bind_some, run, Option.map_some]

/-- **The tracking state is bounded.**  After any list of calls the queue lists
each tracked stream once, the interval counter is exact, and neither streams nor
intervals exceed the capacity; no call reads the front of an empty queue or a
key that is not in the map. -/
theorem tracking_state_bounded {policy : SessionPolicy}
    (constructed : construct capacity policy = .ok broker)
    (inputs : List (EventRecord × UInt64)) :
    ∃ accepted after, broker.ingestAll inputs = some (accepted, after) ∧
      after.streamInsertionOrder.Nodup ∧
      (∀ stream, stream ∈ after.streamInsertionOrder ↔ stream ∈ after.sequenceTrackers) ∧
      after.missingIntervalCount.toNat = intervalTotal after.sequenceTrackers ∧
      size after.sequenceTrackers ≤ capacity.toNat ∧
      intervalTotal after.sequenceTrackers ≤ capacity.toNat := by
  obtain ⟨accepted, after, run, consistent⟩ :=
    ingest_all_consistent (construct_consistent constructed) inputs
  exact ⟨accepted, after, run, consistent.listsKeys.nodup, consistent.listsKeys.mem_iff,
    consistent.count, consistent.trackers_le, consistent.intervals_le⟩

/-- One stream of room: two processes evict each other's tracker. -/
theorem tracking_state_bounded_one :
    ∃ broker, construct 1 = .ok broker ∧
      ∃ accepted after, broker.ingestAll
        [({ header := { category := .canvas, type := .apiCall, sequenceNumber := 5 } }, 0),
         ({ header := { category := .canvas, type := .apiCall, processId := 1 } }, 0),
         ({ header := { category := .canvas, type := .apiCall, sequenceNumber := 9 } }, 0)] =
        some (accepted, after) ∧
      after.streamInsertionOrder.Nodup ∧
      (∀ stream, stream ∈ after.streamInsertionOrder ↔ stream ∈ after.sequenceTrackers) ∧
      after.missingIntervalCount.toNat = intervalTotal after.sequenceTrackers ∧
      size after.sequenceTrackers ≤ 1 ∧ intervalTotal after.sequenceTrackers ≤ 1 :=
  ⟨{ capacity := 1 }, rfl, @tracking_state_bounded 1 _ {} rfl _⟩

end EventBroker

end Reb.Evidence
