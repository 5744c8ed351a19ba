/-
# Evidence.EventBrokerRing -- a snapshot is the newest accepted events

`IngestAt` stores an accepted event in the ring and nothing else (`ingestAt_ring`), so the
ring keeps the newest of all accepted events, and the counters count them
(`ingestAll_retains`).  `Snapshot` copies at most two stretches of slots, none outside the
ring.
-/
import Reb.Evidence.EventBrokerBounds
import Reb.Theory.RingBuffer

namespace Reb.Evidence

set_option autoImplicit false

open Reb.Capture Reb.Theory

namespace EventBroker

/-- `Size`. -/
protected def size (broker : EventBroker) : UInt64 := .ofNat broker.events.length

/-- The elements an iterator pair spans, `none` when it leaves the vector. -/
def spanned (events : List EventRecord) (first count : UInt64) : Option (List EventRecord) :=
  if first.toNat + count.toNat ≤ events.length then
    some ((events.drop first.toNat).take count.toNat)
  else none

/-- `Snapshot`; `none` where the C++ would read outside the ring. -/
def snapshot (broker : EventBroker) (limit : UInt64) : Option (List EventRecord) :=
  let count := min limit broker.size
  if count == 0 then some []
  else
    let start := if broker.nextEvent ≥ count then broker.nextEvent - count
      else broker.size - (count - broker.nextEvent)
    let firstCount := min count (broker.size - start)
    (spanned broker.events start firstCount).bind fun front =>
      (spanned broker.events 0 (count - firstCount)).map fun back => front ++ back

variable {capacity : UInt64} {broker : EventBroker}

def ring (broker : EventBroker) : RingBuffer EventRecord := ⟨broker.events, broker.nextEvent.toNat⟩

/-! ## One call -/

/-- What tracking leaves alone: the ring and the two counters it is counted by. -/
def Untouched (broker after : EventBroker) : Prop :=
  after.capacity = broker.capacity ∧ after.events = broker.events
    ∧ after.nextEvent = broker.nextEvent ∧ after.stats.accepted = broker.stats.accepted
    ∧ after.stats.evicted = broker.stats.evicted

theorem Untouched.trans {next after : EventBroker} (one : Untouched broker next)
    (two : Untouched next after) : Untouched broker after :=
  ⟨two.1.trans one.1, two.2.1.trans one.2.1, two.2.2.1.trans one.2.2.1,
    two.2.2.2.1.trans one.2.2.2.1, two.2.2.2.2.trans one.2.2.2.2⟩

theorem evictSequenceTracker_untouched {after : EventBroker}
    (evicts : broker.evictSequenceTracker = some after) : Untouched broker after := by
  unfold evictSequenceTracker at evicts
  split at evicts
  · cases evicts
  · split at evicts
    · cases evicts
    · cases evicts
      exact ⟨rfl, rfl, rfl, rfl, rfl⟩

theorem evictWhileOver_untouched (rounds : Nat) {after : EventBroker}
    (evicts : evictWhileOver rounds broker = some after) : Untouched broker after := by
  induction rounds generalizing broker with
  | zero =>
      unfold evictWhileOver at evicts
      split at evicts
      · cases evicts
      · cases evicts
        exact ⟨rfl, rfl, rfl, rfl, rfl⟩
  | succ rounds ih =>
      unfold evictWhileOver at evicts
      split at evicts
      · obtain ⟨next, step, run⟩ := Option.bind_eq_some_iff.1 evicts
        exact (evictSequenceTracker_untouched step).trans (ih run)
      · cases evicts
        exact ⟨rfl, rfl, rfl, rfl, rfl⟩

theorem trackSequence_untouched {stream : StreamKey} {sequence : UInt64} {after : EventBroker}
    (tracks : broker.trackSequence stream sequence = some after) : Untouched broker after := by
  unfold trackSequence at tracks
  split at tracks
  · obtain ⟨room, made, rfl⟩ := Option.map_eq_some_iff.1 tracks
    unfold makeRoom at made
    split at made
    · exact (evictSequenceTracker_untouched made).trans ⟨rfl, rfl, rfl, rfl, rfl⟩
    · cases made
      exact ⟨rfl, rfl, rfl, rfl, rfl⟩
  · dsimp only at tracks
    refine Untouched.trans ?_ (evictWhileOver_untouched _ tracks)
    exact ⟨rfl, rfl, rfl, rfl, rfl⟩

/-- What the ring and its counters hold of the events accepted so far. -/
structure Retains (capacity : UInt64) (broker : EventBroker) (accepted : List EventRecord) :
    Prop where
  capacity_eq : broker.capacity = capacity
  keeps : broker.ring.Keeps capacity.toNat accepted
  counted : broker.stats.accepted = .ofNat accepted.length
  balanced : broker.stats.accepted = broker.size + broker.stats.evicted

theorem Retains.of_untouched {accepted : List EventRecord} {after : EventBroker}
    (retains : Retains capacity broker accepted) (same : Untouched broker after) :
    Retains capacity after accepted := by
  obtain ⟨sameCapacity, sameEvents, sameNext, sameAccepted, sameEvicted⟩ := same
  exact { capacity_eq := sameCapacity.trans retains.capacity_eq
          keeps := by
            rw [ring, sameEvents, sameNext]
            exact retains.keeps
          counted := sameAccepted.trans retains.counted
          balanced := by
            rw [sameAccepted, sameEvicted, EventBroker.size, sameEvents]
            exact retains.balanced }

theorem record_ring {accepted : List EventRecord} (retains : Retains capacity broker accepted)
    (event : EventRecord) : (broker.record event).ring = broker.ring.push capacity.toNat event := by
  have inside : broker.nextEvent.toNat < capacity.toNat := retains.keeps.inside
  have bound := capacity.toNat_lt
  have next : (broker.nextEvent + 1).toNat = broker.nextEvent.toNat + 1 := by
    rw [UInt64.toNat_add, Nat.mod_eq_of_lt]
    · rfl
    · show broker.nextEvent.toNat + 1 < 2 ^ 64
      omega
  have wraps : (broker.nextEvent + 1 == capacity) = true
      ↔ broker.nextEvent.toNat + 1 = capacity.toNat := by
    rw [beq_iff_eq, ← UInt64.toNat_inj, next]
  rw [ring, record, RingBuffer.push, retains.capacity_eq]
  simp only [wraps, apply_ite UInt64.toNat, next]
  rfl

/-- An accepted event goes into the ring, and the counters go with it. -/
theorem record_retains {accepted : List EventRecord} (retains : Retains capacity broker accepted)
    (event : EventRecord) : Retains capacity (broker.record event) (accepted ++ [event]) := by
  have keeps : (broker.record event).ring.Keeps capacity.toNat (accepted ++ [event]) := by
    rw [record_ring retains]
    exact RingBuffer.push_keeps retains.keeps event
  have counter : (broker.record event).stats.accepted = broker.stats.accepted + 1 := by
    rw [record]
    dsimp only
    split <;> split <;> rfl
  refine ⟨retains.capacity_eq, keeps, ?_, ?_⟩
  · rw [counter, retains.counted, List.length_append, List.length_singleton, UInt64.ofNat_add]
    rfl
  · rw [counter, retains.balanced]
    by_cases full : broker.events.length = broker.capacity.toNat
    · have same : (broker.record event).size = broker.size := by
        rw [EventBroker.size, record]
        simp only [if_pos full, List.length_set]
        rfl
      have more : (broker.record event).stats.evicted = broker.stats.evicted + 1 := by
        rw [record]
        simp only [if_pos full]
        split <;> rfl
      rw [same, more, UInt64.add_assoc]
    · have more : (broker.record event).size = broker.size + 1 := by
        rw [EventBroker.size, record]
        simp only [if_neg full, List.length_append, List.length_singleton]
        rw [UInt64.ofNat_add]
        rfl
      have same : (broker.record event).stats.evicted = broker.stats.evicted := by
        rw [record]
        simp only [if_neg full]
        split <;> rfl
      rw [same, more]
      ac_rfl

/-- A call stores what it accepts and nothing else. -/
theorem ingestAt_retains {accepted : List EventRecord} (retains : Retains capacity broker accepted)
    {event : EventRecord} {now : UInt64} {status : IngestStatus} {after : EventBroker}
    (ingests : broker.ingestAt event now = some (status, after)) :
    Retains capacity after (accepted ++ if status = .kAccepted then [event] else []) := by
  unfold ingestAt at ingests
  dsimp only at ingests
  split at ingests
  · cases ingests
    rw [if_neg (by decide), List.append_nil]
    exact retains.of_untouched ⟨rfl, rfl, rfl, rfl, rfl⟩
  split at ingests
  · cases ingests
    rw [if_neg (by decide), List.append_nil]
    exact retains.of_untouched ⟨rfl, rfl, rfl, rfl, rfl⟩
  split at ingests
  · cases ingests
    rw [if_neg (by decide), List.append_nil]
    exact retains.of_untouched ⟨rfl, rfl, rfl, rfl, rfl⟩
  obtain ⟨tracked, tracks, same⟩ := Option.map_eq_some_iff.1 ingests
  cases same
  rw [if_pos rfl]
  exact record_retains (retains.of_untouched (trackSequence_untouched tracks)) event

/-! ## A run -/

theorem ingestAll_retains (inputs : List (EventRecord × UInt64)) {stored accepted : List EventRecord}
    (retains : Retains capacity broker stored) {last : EventBroker}
    (run : broker.ingestAll inputs = some (accepted, last)) :
    Retains capacity last (stored ++ accepted) := by
  induction inputs generalizing broker stored accepted with
  | nil =>
      cases run
      rwa [List.append_nil]
  | cons input rest ih =>
      obtain ⟨event, now⟩ := input
      rw [ingestAll] at run
      obtain ⟨step, first, run⟩ := Option.bind_eq_some_iff.1 run
      obtain ⟨status, next⟩ := step
      obtain ⟨later, second, same⟩ := Option.map_eq_some_iff.1 run
      obtain ⟨others, final⟩ := later
      cases same
      have step := ih (ingestAt_retains retains first) second
      rw [List.append_assoc] at step
      by_cases accepts : status = .kAccepted
      · rw [if_pos accepts] at step
        rwa [if_pos accepts]
      · rw [if_neg accepts] at step
        rwa [if_neg accepts]

theorem construct_retains {policy : SessionPolicy}
    (constructed : construct capacity policy = .ok broker) : Retains capacity broker [] := by
  have consistent := construct_consistent constructed
  have blank : broker = { capacity, policy } := by
    unfold construct at constructed
    split at constructed
    · cases constructed
    split at constructed
    · cases constructed
    split at constructed
    · cases constructed
    cases constructed
    rfl
  have positive := consistent.capacity_pos
  rw [blank]
  exact ⟨rfl, RingBuffer.keeps_nil positive, rfl, rfl⟩

/-! ## Snapshots -/

theorem toNat_min (a b : UInt64) : (min a b).toNat = min a.toNat b.toNat := by
  rw [show min a b = if a ≤ b then a else b from rfl]
  by_cases le : a ≤ b
  · rw [if_pos le, Nat.min_eq_left (UInt64.le_iff_toNat_le.1 le)]
  · rw [if_neg le, Nat.min_eq_right]
    rw [UInt64.le_iff_toNat_le] at le
    omega

/-- The slots a snapshot reads are the ring's newest. -/
theorem snapshot_newest (small : broker.events.length < 2 ^ 64)
    (inside : broker.nextEvent.toNat ≤ broker.events.length) (limit : UInt64) :
    broker.snapshot limit = some (broker.ring.newest (min limit.toNat broker.events.length)) := by
  have size : broker.size.toNat = broker.events.length := UInt64.toNat_ofNat_of_lt' small
  have counts := toNat_min limit broker.size
  rw [size] at counts
  rw [snapshot]
  generalize min limit broker.size = count at *
  dsimp only
  rw [← counts]
  have few : count.toNat ≤ broker.events.length := by omega
  by_cases none : count = 0
  · rw [none, beq_self_eq_true, if_pos rfl]
    simp [RingBuffer.newest]
  · rw [beq_false_of_ne none, if_neg (by decide)]
    have starts : (if broker.nextEvent ≥ count then broker.nextEvent - count
        else broker.size - (count - broker.nextEvent)).toNat
          = if broker.nextEvent.toNat ≥ count.toNat then broker.nextEvent.toNat - count.toNat
            else broker.events.length - (count.toNat - broker.nextEvent.toNat) := by
      by_cases below : broker.nextEvent ≥ count
      · rw [if_pos below, UInt64.toNat_sub_of_le _ _ below, if_pos (UInt64.le_iff_toNat_le.1 below)]
      · have above : ¬ broker.nextEvent.toNat ≥ count.toNat := fun le =>
          below (UInt64.le_iff_toNat_le.2 le)
        have less : (count - broker.nextEvent).toNat = count.toNat - broker.nextEvent.toNat :=
          UInt64.toNat_sub_of_le _ _ (UInt64.le_iff_toNat_le.2 (by omega))
        rw [if_neg below, if_neg above,
          UInt64.toNat_sub_of_le _ _ (UInt64.le_iff_toNat_le.2 (by omega)), size, less]
    generalize (if broker.nextEvent ≥ count then broker.nextEvent - count
        else broker.size - (count - broker.nextEvent)) = start at *
    have within : start.toNat ≤ broker.events.length := by
      rw [starts]
      split <;> omega
    have firsts : (min count (broker.size - start)).toNat
        = min count.toNat (broker.events.length - start.toNat) := by
      rw [toNat_min, UInt64.toNat_sub_of_le _ _ (UInt64.le_iff_toNat_le.2 (by omega)), size]
    generalize min count (broker.size - start) = firstCount at *
    have seconds : (count - firstCount).toNat = count.toNat - firstCount.toNat :=
      UInt64.toNat_sub_of_le _ _ (UInt64.le_iff_toNat_le.2 (by omega))
    rw [spanned, if_pos (by omega), Option.bind_some, spanned, if_pos (by
      rw [seconds]
      show 0 + _ ≤ _
      omega), Option.map_some, seconds, firsts, starts]
    rfl

theorem Retains.snapshot_eq {accepted : List EventRecord}
    (retains : Retains capacity broker accepted) (limit : UInt64) :
    broker.snapshot limit
      = some (accepted.rtake (min limit.toNat (min capacity.toNat accepted.length))) := by
  have length : broker.events.length = min capacity.toNat accepted.length := retains.keeps.length
  have inside : broker.nextEvent.toNat ≤ broker.events.length := retains.keeps.next_le
  have bound := capacity.toNat_lt
  rw [snapshot_newest (by omega) inside limit, ← length]
  exact congrArg some (RingBuffer.newest_eq retains.keeps (Nat.min_le_right _ _))

/-- After any run a snapshot is the newest accepted events in order, and every accepted
event is held or counted as evicted. -/
theorem snapshot_after_run {policy : SessionPolicy}
    (constructed : construct capacity policy = .ok broker) (inputs : List (EventRecord × UInt64)) :
    ∃ accepted last, broker.ingestAll inputs = some (accepted, last)
      ∧ (∀ limit, last.snapshot limit
          = some (accepted.rtake (min limit.toNat (min capacity.toNat accepted.length))))
      ∧ last.statsOf.accepted = .ofNat accepted.length
      ∧ last.statsOf.accepted = last.size + last.statsOf.evicted := by
  obtain ⟨accepted, last, run, -⟩ := ingest_all_consistent (construct_consistent constructed) inputs
  have retains := ingestAll_retains inputs (construct_retains constructed) run
  rw [List.nil_append] at retains
  exact ⟨accepted, last, run, retains.snapshot_eq, retains.counted, retains.balanced⟩

/-- Two slots and three events: the ring has gone around. -/
theorem snapshot_after_run_wrapped :
    ∃ broker, construct 2 = .ok broker ∧
      ∃ accepted last, broker.ingestAll
        [({ header := { category := .canvas, type := .apiCall, sequenceNumber := 5 } }, 0),
         ({ header := { category := .canvas, type := .apiCall, sequenceNumber := 6 } }, 0),
         ({ header := { category := .canvas, type := .apiCall, sequenceNumber := 7 } }, 0)]
          = some (accepted, last)
        ∧ (∀ limit, last.snapshot limit
            = some (accepted.rtake (min limit.toNat (min (2 : UInt64).toNat accepted.length))))
        ∧ last.statsOf.accepted = .ofNat accepted.length
        ∧ last.statsOf.accepted = last.size + last.statsOf.evicted :=
  ⟨{ capacity := 2 }, rfl, @snapshot_after_run 2 _ {} rfl _⟩

end EventBroker

end Reb.Evidence
