/-
# Evidence.SequenceGaps -- the gap count is a function of what was accepted

What a tracker is for, in set terms: from the numbers `received` on a stream, the
missing ones are those between two received numbers (`missingBetween`).  A
tracker is `Exact` when its range and its intervals say just that, and observing
a number keeps it exact wherever the number falls (`observe_exact`).

On a run that drops no tracker, every stream with an accepted event has an exact
tracker (`ingest_all_exact`).  `Stats` then reports, up to saturation, the number
of missing sequence numbers summed over the streams of the accepted events
(`stats_of_exact`), a quantity no order of arrival can change.
-/
import Reb.Evidence.EventBroker
import Reb.Evidence.EventBrokerBounds
import Reb.Theory.Intervals

namespace Reb.Evidence

set_option autoImplicit false

open Reb.Theory

/-- The numbers between two received ones that were not received. -/
def missingBetween (received : Set UInt64) : Set UInt64 :=
  {x | (∃ a ∈ received, a ≤ x) ∧ (∃ b ∈ received, x ≤ b) ∧ x ∉ received}

namespace SequenceTracker

/-- The tracker describes exactly the numbers `received`. -/
structure Exact (tracker : SequenceTracker) (received : Set UInt64) : Prop where
  least : IsLeast received tracker.low
  greatest : IsGreatest received tracker.high
  holes : IntervalsOf tracker.missing (missingBetween received)

variable {tracker : SequenceTracker} {received : Set UInt64}

theorem Exact.mem_missingBetween (exact : tracker.Exact received) {x : UInt64} :
    x ∈ missingBetween received ↔ tracker.low ≤ x ∧ x ≤ tracker.high ∧ x ∉ received := by
  constructor
  · rintro ⟨⟨a, aIn, below⟩, ⟨b, bIn, above⟩, absent⟩
    exact ⟨(exact.least.2 aIn).trans below, above.trans (exact.greatest.2 bIn), absent⟩
  · rintro ⟨below, above, absent⟩
    exact ⟨⟨_, exact.least.1, below⟩, ⟨_, exact.greatest.1, above⟩, absent⟩

/-- A hole lies strictly inside the range: its ends were received. -/
theorem Exact.hole_inside (exact : tracker.Exact received) {hole : UInt64 × UInt64}
    (member : hole ∈ tracker.missing) :
    tracker.low < hole.1 ∧ hole.1 ≤ hole.2 ∧ hole.2 < tracker.high := by
  have proper := exact.holes.proper hole member
  obtain ⟨lower, -, firstAbsent⟩ :=
    exact.mem_missingBetween.1 (exact.holes.subset member ⟨le_rfl, proper⟩)
  obtain ⟨-, upper, lastAbsent⟩ :=
    exact.mem_missingBetween.1 (exact.holes.subset member ⟨proper, le_rfl⟩)
  refine ⟨lt_of_le_of_ne lower ?_, proper, lt_of_le_of_ne upper ?_⟩
  · rintro eq; exact firstAbsent (eq ▸ exact.least.1)
  · rintro eq; exact lastAbsent (eq ▸ exact.greatest.1)

theorem exact_first (sequence : UInt64) :
    (⟨sequence, sequence, ∅⟩ : SequenceTracker).Exact {sequence} where
  least := isLeast_singleton
  greatest := isGreatest_singleton
  holes := IntervalsOf.empty.congr fun x => by
    simp only [Set.mem_empty_iff_false, iff_false]
    rintro ⟨⟨a, rfl, below⟩, ⟨b, rfl, above⟩, absent⟩
    exact absent (le_antisymm above below)

/-- The missing numbers after one more arrival, by the new range. -/
theorem mem_missingBetween_insert {low high s x : UInt64}
    (least : IsLeast (insert s received) low) (greatest : IsGreatest (insert s received) high) :
    x ∈ missingBetween (insert s received) ↔ low ≤ x ∧ x ≤ high ∧ x ≠ s ∧ x ∉ received := by
  have exact : x ∈ missingBetween (insert s received) ↔
      low ≤ x ∧ x ≤ high ∧ x ∉ insert s received := by
    constructor
    · rintro ⟨⟨a, aIn, below⟩, ⟨b, bIn, above⟩, absent⟩
      exact ⟨(least.2 aIn).trans below, above.trans (greatest.2 bIn), absent⟩
    · rintro ⟨below, above, absent⟩
      exact ⟨⟨_, least.1, below⟩, ⟨_, greatest.1, above⟩, absent⟩
  rw [exact, Set.mem_insert_iff, not_or]

/-- The range grows from `a` to `b`: everything strictly between is missing. -/
theorem extend_holes {missing : OrderedMap UInt64 UInt64} {S : Set UInt64} {a b : UInt64}
    (holes : IntervalsOf missing S) (lt : a < b) (off : ∀ x ∈ S, ¬ (a < x ∧ x < b)) :
    IntervalsOf (if b - a > 1 then missing.emplace (a + 1) (b - 1) else missing)
      (S ∪ {x | a < x ∧ x < b}) := by
  split
  · rename_i wide
    refine (holes.emplace ((Word64.succ_le_pred_iff lt).1 wide) ?_).congr fun x => ?_
    · exact Set.disjoint_left.2 fun x inside old => off x old ((Word64.mem_Icc_between lt).1 inside)
    · rw [Set.mem_union, Set.mem_union, Word64.mem_Icc_between lt]; rfl
  · rename_i narrow
    refine holes.congr fun x => or_iff_left fun between => narrow ?_
    have inside := (Word64.mem_Icc_between lt).2 between
    exact (Word64.succ_le_pred_iff lt).2 (inside.1.trans inside.2)

theorem observe_above (exact : tracker.Exact received) {s : UInt64} (above : tracker.high < s) :
    (tracker.observe s).Exact (insert s received) := by
  have lowLe : tracker.low ≤ tracker.high := exact.greatest.2 exact.least.1
  have least : IsLeast (insert s received) tracker.low :=
    ⟨.inr exact.least.1, by
      rintro x (rfl | old); exacts [(lowLe.trans_lt above).le, exact.least.2 old]⟩
  have greatest : IsGreatest (insert s received) s :=
    ⟨.inl rfl, by rintro x (rfl | old); exacts [le_rfl, (exact.greatest.2 old).trans above.le]⟩
  rw [observe, if_pos above]
  refine ⟨least, greatest, (extend_holes exact.holes above ?_).congr fun x => ?_⟩
  · intro x old between
    exact absurd (exact.mem_missingBetween.1 old).2.1 (not_le.2 between.1)
  rw [mem_missingBetween_insert least greatest, Set.mem_union, exact.mem_missingBetween]
  constructor
  · rintro ⟨lower, upper, ne, absent⟩
    rcases le_or_gt x tracker.high with old | new
    · exact .inl ⟨lower, old, absent⟩
    · exact .inr ⟨new, lt_of_le_of_ne upper ne⟩
  · rintro (⟨lower, upper, absent⟩ | ⟨new, upper⟩)
    · exact ⟨lower, (upper.trans_lt above).le, (upper.trans_lt above).ne, absent⟩
    · exact ⟨lowLe.trans new.le, upper.le, upper.ne, fun old =>
        absurd (exact.greatest.2 old) (not_le.2 new)⟩

/-- The mirror image. -/
theorem observe_below (exact : tracker.Exact received) {s : UInt64} (below : s < tracker.low) :
    (tracker.observe s).Exact (insert s received) := by
  have lowLe : tracker.low ≤ tracker.high := exact.greatest.2 exact.least.1
  have least : IsLeast (insert s received) s :=
    ⟨.inl rfl, by rintro x (rfl | old); exacts [le_rfl, below.le.trans (exact.least.2 old)]⟩
  have greatest : IsGreatest (insert s received) tracker.high :=
    ⟨.inr exact.greatest.1, by
      rintro x (rfl | old); exacts [(below.trans_le lowLe).le, exact.greatest.2 old]⟩
  rw [observe, if_neg (not_lt.2 (below.trans_le lowLe).le), if_pos below]
  refine ⟨least, greatest, (extend_holes exact.holes below ?_).congr fun x => ?_⟩
  · intro x old between
    exact absurd (exact.mem_missingBetween.1 old).1 (not_le.2 between.2)
  rw [mem_missingBetween_insert least greatest, Set.mem_union, exact.mem_missingBetween]
  constructor
  · rintro ⟨lower, upper, ne, absent⟩
    rcases le_or_gt tracker.low x with old | new
    · exact .inl ⟨old, upper, absent⟩
    · exact .inr ⟨lt_of_le_of_ne lower ne.symm, new⟩
  · rintro (⟨lower, upper, absent⟩ | ⟨new, upper⟩)
    · exact ⟨(below.trans_le lower).le, upper, (below.trans_le lower).ne', absent⟩
    · exact ⟨new.le, upper.le.trans lowLe, new.ne', fun old =>
        absurd (exact.least.2 old) (not_le.2 upper)⟩

/-- A number inside the range: the intervals lose exactly that number. -/
theorem fill_holes {missing : OrderedMap UInt64 UInt64} {S : Set UInt64} {s first last : UInt64}
    (holes : IntervalsOf missing S) (member : (first, last) ∈ missing) (lower : first ≤ s)
    (upper : s ≤ last) :
    IntervalsOf
      (let without := missing.erase first
       let left := if first < s then without.emplace first (s - 1) else without
       if s < last then left.emplace (s + 1) last else left)
      (S \ {s}) := by
  have removed := holes.erase member
  dsimp only at removed ⊢
  have leftHoles : IntervalsOf
      (if first < s then (missing.erase first).emplace first (s - 1) else missing.erase first)
      ((S \ Set.Icc first last) ∪ {x | first ≤ x ∧ x < s}) := by
    split
    · rename_i lt
      refine (removed.emplace (UInt64.le_iff_toNat_le.2 ?_) ?_).congr fun x => ?_
      · rw [Word64.toNat_pred lt]; have := UInt64.lt_iff_toNat_lt.1 lt; omega
      · rw [Set.disjoint_left]
        rintro x inside ⟨-, outside⟩
        obtain ⟨firstLe, lt'⟩ := (Word64.mem_Icc_pred lt).1 inside
        exact outside ⟨firstLe, lt'.le.trans upper⟩
      · rw [Set.mem_union, Set.mem_union, Word64.mem_Icc_pred lt]; rfl
    · rename_i notLt
      refine removed.congr fun x => or_iff_left ?_
      rintro ⟨firstLe, lt'⟩
      exact notLt (firstLe.trans_lt lt')
  have whole := holes.subset member
  have final : ∀ x, x ∈ S \ {s} ↔
      x ∈ (S \ Set.Icc first last) ∪ {x | first ≤ x ∧ x < s} ∨ (s < x ∧ x ≤ last) := by
    intro x
    constructor
    · rintro ⟨inS, ne⟩
      rcases lt_trichotomy x s with lt | eq | gt
      · rcases le_or_gt first x with firstLe | ltFirst
        · exact .inl (.inr ⟨firstLe, lt⟩)
        · exact .inl (.inl ⟨inS, fun inside => absurd inside.1 (not_le.2 ltFirst)⟩)
      · exact absurd eq ne
      · rcases le_or_gt x last with leLast | gtLast
        · exact .inr ⟨gt, leLast⟩
        · exact .inl (.inl ⟨inS, fun inside => absurd inside.2 (not_le.2 gtLast)⟩)
    · rintro ((⟨inS, outside⟩ | ⟨firstLe, lt⟩) | ⟨gt, leLast⟩)
      · exact ⟨inS, by rintro rfl; exact outside ⟨lower, upper⟩⟩
      · exact ⟨whole ⟨firstLe, lt.le.trans upper⟩, lt.ne⟩
      · exact ⟨whole ⟨lower.trans gt.le, leLast⟩, gt.ne'⟩
  split
  · rename_i lt
    refine (leftHoles.emplace (UInt64.le_iff_toNat_le.2 ?_) ?_).congr fun x => ?_
    · rw [Word64.toNat_succ lt]; exact UInt64.lt_iff_toNat_lt.1 lt
    · rw [Set.disjoint_left]
      rintro x inside (⟨-, outside⟩ | ⟨-, ltS⟩)
      · obtain ⟨gt, leLast⟩ := (Word64.mem_Icc_succ lt).1 inside
        exact outside ⟨lower.trans gt.le, leLast⟩
      · exact absurd ltS (not_lt.2 ((Word64.mem_Icc_succ lt).1 inside).1.le)
    · exact (final x).trans (or_congr_right (Word64.mem_Icc_succ lt).symm)
  · rename_i notLt
    refine leftHoles.congr fun x => (final x).trans (or_iff_left ?_)
    rintro ⟨gt, leLast⟩
    exact notLt (gt.trans_le leLast)

theorem observe_within (exact : tracker.Exact received) {s : UInt64} (lower : tracker.low ≤ s)
    (upper : s ≤ tracker.high) : (tracker.observe s).Exact (insert s received) := by
  have least : IsLeast (insert s received) tracker.low :=
    ⟨.inr exact.least.1, by rintro x (rfl | old); exacts [lower, exact.least.2 old]⟩
  have greatest : IsGreatest (insert s received) tracker.high :=
    ⟨.inr exact.greatest.1, by rintro x (rfl | old); exacts [upper, exact.greatest.2 old]⟩
  have target : ∀ x, x ∈ missingBetween (insert s received) ↔
      x ∈ missingBetween received \ {s} := by
    intro x
    rw [mem_missingBetween_insert least greatest, Set.mem_sdiff, exact.mem_missingBetween,
      Set.mem_singleton_iff]
    tauto
  rw [observe, if_neg (not_lt.2 upper), if_neg (not_lt.2 lower)]
  -- When no interval holds `s` it is a repeated number.
  have repeated (notMissing : s ∉ missingBetween received) :
      IntervalsOf tracker.missing (missingBetween (insert s received)) :=
    exact.holes.congr fun x => by rw [target, Set.sdiff_singleton_eq_self notMissing]
  split
  · rename_i none
    exact ⟨least, greatest, repeated (exact.holes.not_mem_of_floor_none none)⟩
  · rename_i first last found
    obtain ⟨member, below⟩ := OrderedMap.floor_mem found
    split
    · rename_i reaches
      exact ⟨least, greatest, (fill_holes exact.holes member below reaches).congr target⟩
    · rename_i short
      refine ⟨least, greatest, repeated fun missing => short ?_⟩
      exact (exact.holes.mem_iff_of_floor found).1 missing

/-- **One arrival keeps a tracker exact**, wherever it falls. -/
theorem observe_exact (exact : tracker.Exact received) (s : UInt64) :
    (tracker.observe s).Exact (insert s received) := by
  rcases lt_or_ge tracker.high s with above | upper
  · exact observe_above exact above
  rcases lt_or_ge s tracker.low with below | lower
  · exact observe_below exact below
  · exact observe_within exact lower upper

end SequenceTracker

end Reb.Evidence

namespace Reb.Evidence.EventBroker

/-! # Whole runs -/

open Reb.Capture Reb.Theory Reb.Theory.FifoMap

/-! ## What was received -/

/-- The sequence numbers a stream has among the accepted events. -/
def received (accepted : List EventRecord) (stream : StreamKey) : Set UInt64 :=
  {x | ∃ event ∈ accepted, streamOf event = stream ∧ event.header.sequenceNumber = x}

/-- All missing numbers, stream by stream. -/
noncomputable def missingTotal (accepted : List EventRecord) : Nat :=
  ((accepted.map streamOf).dedup.map fun stream =>
    (missingBetween (received accepted stream)).ncard).sum

theorem received_append (accepted : List EventRecord) (event : EventRecord) (stream : StreamKey) :
    received (accepted ++ [event]) stream =
      if streamOf event = stream then insert event.header.sequenceNumber (received accepted stream)
      else received accepted stream := by
  ext x
  by_cases same : streamOf event = stream
  · simp [received, same, or_and_right, exists_or, or_comm, eq_comm]
  · simp [received, same, or_and_right, exists_or]

theorem received_perm {accepted reordered : List EventRecord} (perm : accepted.Perm reordered)
    (stream : StreamKey) : received accepted stream = received reordered stream := by
  ext x
  simp only [received, Set.mem_ofPred_eq, perm.mem_iff]

theorem missing_total_perm {accepted reordered : List EventRecord}
    (perm : accepted.Perm reordered) : missingTotal accepted = missingTotal reordered := by
  unfold missingTotal
  simp only [received_perm perm]
  exact (((perm.map streamOf).dedup).map _).sum_eq

/-! ## Runs without eviction -/

/-- No call of the run drops a tracker. -/
def EvictionFree : EventBroker → List (EventRecord × UInt64) → Prop
  | _, [] => True
  | broker, (event, now) :: rest =>
      match broker.ingestAt event now with
      | none => True
      | some (_, next) =>
          (∀ stream ∈ broker.sequenceTrackers.keys, stream ∈ next.sequenceTrackers.keys) ∧
            EvictionFree next rest

instance decidableEvictionFree : (broker : EventBroker) →
    (inputs : List (EventRecord × UInt64)) → Decidable (EvictionFree broker inputs)
  | _, [] => isTrue trivial
  | broker, (event, now) :: rest =>
      match step : broker.ingestAt event now with
      | none => isTrue (by rw [EvictionFree, step]; trivial)
      | some (_, next) =>
          have := decidableEvictionFree next rest
          decidable_of_iff
            ((∀ stream ∈ broker.sequenceTrackers.keys, stream ∈ next.sequenceTrackers.keys) ∧
              EvictionFree next rest)
            (by rw [EvictionFree, step])

variable {broker : EventBroker}

/-- What an eviction does, guards included. -/
theorem evict_sequence_tracker_cases {evicted : EventBroker}
    (step : broker.evictSequenceTracker = some evicted) :
    ∃ front tracker, broker.sequenceTrackers.lookup front = some tracker ∧
      evicted.sequenceTrackers = broker.sequenceTrackers.erase front := by
  unfold evictSequenceTracker at step
  split at step
  · cases step
  rename_i front rest order
  split at step
  · cases step
  rename_i tracker found
  cases step
  exact ⟨front, tracker, found, rfl⟩

/-- The eviction loop either does nothing or loses a key it started with. -/
theorem evict_while_over_cases {rounds : Nat} {restored : EventBroker}
    (loop : evictWhileOver rounds broker = some restored) :
    (∀ stream ∈ restored.sequenceTrackers, stream ∈ broker.sequenceTrackers) ∧
      (restored = broker ∨
        ∃ stream ∈ broker.sequenceTrackers, stream ∉ restored.sequenceTrackers) := by
  induction rounds generalizing broker with
  | zero =>
      rw [evictWhileOver] at loop
      split at loop <;> cases loop
      exact ⟨fun _ member => member, .inl rfl⟩
  | succ rounds ih =>
      rw [evictWhileOver] at loop
      split at loop
      · obtain ⟨evicted, step, rest⟩ := Option.bind_eq_some_iff.1 loop
        obtain ⟨front, tracker, found, erased⟩ := evict_sequence_tracker_cases step
        obtain ⟨kept, -⟩ := ih rest
        rw [erased] at kept
        refine ⟨fun stream member => (AList.mem_erase.1 (kept stream member)).2, .inr ⟨front, ?_, ?_⟩⟩
        · exact AList.lookup_isSome.1 (by rw [found]; rfl)
        · exact fun member => (AList.mem_erase.1 (kept front member)).1 rfl
      · cases loop
        exact ⟨fun _ member => member, .inl rfl⟩

/-- Tracking without losing a key adds or updates one tracker. -/
theorem track_sequence_of_kept {stream : StreamKey} {sequence : UInt64} {tracked : EventBroker}
    (step : broker.trackSequence stream sequence = some tracked)
    (kept : ∀ key ∈ broker.sequenceTrackers, key ∈ tracked.sequenceTrackers) :
    tracked.sequenceTrackers = broker.sequenceTrackers.insert stream
      (match broker.sequenceTrackers.lookup stream with
        | none => ⟨sequence, sequence, ∅⟩
        | some tracker => tracker.observe sequence) := by
  cases found : broker.sequenceTrackers.lookup stream with
  | none =>
      simp only [trackSequence, found] at step ⊢
      obtain ⟨room, made, rfl⟩ := Option.map_eq_some_iff.1 step
      unfold makeRoom at made
      split at made
      · -- the evicted front is another stream, so it is not put back
        obtain ⟨front, tracker, frontFound, erased⟩ := evict_sequence_tracker_cases made
        have back := kept front (AList.lookup_isSome.1 (by rw [frontFound]; rfl))
        rw [addStream, erased, AList.mem_insert, AList.mem_erase] at back
        rcases back with rfl | ⟨ne, -⟩
        · rw [found] at frontFound; cases frontFound
        · exact absurd rfl ne
      · cases made
        rfl
  | some tracker =>
      simp only [trackSequence, found] at step ⊢
      rcases (evict_while_over_cases step).2 with rfl | ⟨key, member, lost⟩
      · rfl
      · rw [updateStream, AList.mem_insert] at member
        refine absurd (kept key ?_) lost
        rcases member with rfl | old
        · exact AList.lookup_isSome.1 (by rw [found]; rfl)
        · exact old

/-! ## Exact trackers -/

/-- Each stream is tracked exactly when it has an accepted event, and then
exactly. -/
structure Exact (broker : EventBroker) (accepted : List EventRecord) : Prop where
  mem_iff : ∀ stream, stream ∈ broker.sequenceTrackers ↔ stream ∈ accepted.map streamOf
  tracker : ∀ stream tracker, broker.sequenceTrackers.lookup stream = some tracker →
    tracker.Exact (received accepted stream)

theorem construct_exact {capacity : UInt64} {policy : SessionPolicy}
    (constructed : construct capacity policy = .ok broker) : Exact broker [] := by
  unfold construct at constructed
  split at constructed
  · cases constructed
  split at constructed
  · cases constructed
  split at constructed
  · cases constructed
  cases constructed
  exact ⟨fun stream => by simp, fun stream tracker found => by simp at found⟩

theorem received_eq_empty {accepted : List EventRecord} {stream : StreamKey}
    (absent : stream ∉ accepted.map streamOf) : received accepted stream = ∅ :=
  Set.eq_empty_of_forall_notMem fun _ ⟨_, member, same, _⟩ =>
    absent (List.mem_map.2 ⟨_, member, same⟩)

/-- Accepting one event keeps the trackers exact. -/
theorem Exact.track {accepted : List EventRecord} (exact : Exact broker accepted)
    {event : EventRecord} {tracked : EventBroker}
    (step : broker.trackSequence (streamOf event) event.header.sequenceNumber = some tracked)
    (kept : ∀ key ∈ broker.sequenceTrackers, key ∈ tracked.sequenceTrackers) :
    Exact tracked (accepted ++ [event]) := by
  have trackers := track_sequence_of_kept step kept
  constructor
  · intro stream
    rw [trackers, AList.mem_insert, exact.mem_iff]
    simp [or_comm, eq_comm]
  intro stream tracker found
  rw [received_append]
  by_cases same : streamOf event = stream
  · subst same
    rw [if_pos rfl]
    rw [trackers, AList.lookup_insert] at found
    cases found
    split
    · rename_i absent
      rw [received_eq_empty ((exact.mem_iff _).not.1 (AList.lookup_eq_none.1 absent)),
        insert_empty_eq]
      exact SequenceTracker.exact_first _
    · rename_i old oldFound
      exact SequenceTracker.observe_exact (exact.tracker _ _ oldFound) _
  · rw [if_neg same]
    rw [trackers, AList.lookup_insert_ne (Ne.symm same)] at found
    exact exact.tracker _ _ found

/-- What one call does to the trackers and to the accepted events. -/
theorem Exact.ingest {accepted : List EventRecord} (exact : Exact broker accepted)
    {event : EventRecord} {now : UInt64} {status : IngestStatus} {next : EventBroker}
    (step : broker.ingestAt event now = some (status, next))
    (kept : ∀ key ∈ broker.sequenceTrackers, key ∈ next.sequenceTrackers) :
    Exact next (accepted ++ if status = .kAccepted then [event] else []) := by
  unfold ingestAt at step
  split at step
  · cases step; simpa using ⟨exact.mem_iff, exact.tracker⟩
  split at step
  · cases step; simpa using ⟨exact.mem_iff, exact.tracker⟩
  split at step
  · cases step; simpa using ⟨exact.mem_iff, exact.tracker⟩
  obtain ⟨tracked, trackStep, eq⟩ := Option.map_eq_some_iff.1 step
  cases eq
  have := exact.track trackStep kept
  exact ⟨this.mem_iff, this.tracker⟩

/-- Along a whole run. -/
theorem ingest_all_exact {before : List EventRecord} {inputs : List (EventRecord × UInt64)}
    {accepted : List EventRecord} {after : EventBroker} (exact : Exact broker before)
    (run : broker.ingestAll inputs = some (accepted, after)) (kept : EvictionFree broker inputs) :
    Exact after (before ++ accepted) := by
  induction inputs generalizing broker before accepted with
  | nil => cases run; simpa using exact
  | cons input rest ih =>
      obtain ⟨⟨status, next⟩, step, tail⟩ := Option.bind_eq_some_iff.1 run
      obtain ⟨⟨later, last⟩, restRun, eq⟩ := Option.map_eq_some_iff.1 tail
      rw [EvictionFree, step] at kept
      obtain ⟨stepKept, restKept⟩ := kept
      cases eq
      have := ih (exact.ingest step stepKept) restRun restKept
      split <;> rename_i accepts <;> simpa [accepts] using this

/-! ## The reported total -/

/-- The weight `Stats` gives a hole is its number of elements. -/
theorem hole_weight {tracker : SequenceTracker} {numbers : Set UInt64}
    (exact : tracker.Exact numbers) {hole : UInt64 × UInt64} (member : hole ∈ tracker.missing) :
    (hole.2 - hole.1 + 1).toNat = (Set.Icc hole.1 hole.2).ncard := by
  obtain ⟨lowLt, proper, -⟩ := exact.hole_inside member
  have positive := UInt64.lt_iff_toNat_lt.1 lowLt
  have ordered := UInt64.le_iff_toNat_le.1 proper
  have bound := hole.2.toNat_lt
  rw [Word64.ncard_Icc, UInt64.toNat_add, UInt64.toNat_sub_of_le _ _ proper, UInt64.toNat_one,
    Nat.mod_eq_of_lt (by omega)]
  omega

/-- The holes of all trackers, in the order `Stats` adds them up. -/
def holeWeights (broker : EventBroker) : List UInt64 :=
  broker.sequenceTrackers.entries.flatMap fun entry =>
    entry.2.missing.entries.map fun hole => hole.2 - hole.1 + 1

theorem stats_of_sequence_gaps (broker : EventBroker) :
    (broker.statsOf.sequenceGaps, broker.statsOf.sequenceGapsSaturated) =
      Saturating.ofNat (broker.holeWeights.map (·.toNat)).sum := by
  rw [← Saturating.accumulate_eq, holeWeights, List.foldl_flatMap]
  simp only [List.foldl_map]
  rfl

/-- **`Stats` reports the missing numbers of the accepted events.** -/
theorem stats_of_exact {accepted : List EventRecord} (exact : Exact broker accepted) :
    (broker.statsOf.sequenceGaps, broker.statsOf.sequenceGapsSaturated) =
      Saturating.ofNat (missingTotal accepted) := by
  rw [stats_of_sequence_gaps]
  congr 1
  have perTracker : (broker.holeWeights.map (·.toNat)).sum =
      total (fun tracker => (tracker.missing.entries.map fun hole =>
        (hole.2 - hole.1 + 1).toNat).sum) broker.sequenceTrackers := by
    rw [holeWeights, List.map_flatMap, List.flatMap_def, List.sum_flatten, List.map_map, total]
    simp only [Function.comp_def, List.map_map]
  have weights : ∀ stream tracker, broker.sequenceTrackers.lookup stream = some tracker →
      (tracker.missing.entries.map fun hole => (hole.2 - hole.1 + 1).toNat).sum =
        (missingBetween (received accepted stream)).ncard := by
    intro stream tracker found
    have tracked := exact.tracker stream tracker found
    rw [tracked.holes.card_eq]
    exact congrArg List.sum (List.map_congr_left fun hole member => hole_weight tracked member)
  have keys : broker.sequenceTrackers.keys.Perm (accepted.map streamOf).dedup := by
    rw [List.perm_ext_iff_of_nodup (AList.keys_nodup _) (List.nodup_dedup _)]
    intro stream
    rw [← AList.mem_keys, exact.mem_iff, List.mem_dedup]
  rw [perTracker, total_eq_sum_keys weights, (keys.map _).sum_eq, missingTotal]

/-- **Sequence-gap accounting is exact.**  On a run without eviction each stream
with accepted events has the least and greatest of its numbers as its range, and
disjoint holes strictly inside it that cover exactly the numbers never received;
`Stats` reports their total, so any other run without eviction that accepts the
same events in another order reports the same. -/
theorem sequence_gap_accounting_exact {capacity : UInt64} {policy : SessionPolicy}
    (constructed : construct capacity policy = .ok broker)
    {inputs : List (EventRecord × UInt64)} {accepted : List EventRecord} {after : EventBroker}
    (run : broker.ingestAll inputs = some (accepted, after)) (kept : EvictionFree broker inputs) :
    (∀ stream, stream ∈ after.sequenceTrackers ↔ ∃ event ∈ accepted, streamOf event = stream) ∧
    (∀ stream tracker, after.sequenceTrackers.lookup stream = some tracker →
      IsLeast (received accepted stream) tracker.low ∧
      IsGreatest (received accepted stream) tracker.high ∧
      (∀ p ∈ tracker.missing, ∀ q ∈ tracker.missing, p ≠ q →
        Disjoint (Set.Icc p.1 p.2) (Set.Icc q.1 q.2)) ∧
      (∀ p ∈ tracker.missing, tracker.low < p.1 ∧ p.1 ≤ p.2 ∧ p.2 < tracker.high) ∧
      ∀ x, (∃ p ∈ tracker.missing, x ∈ Set.Icc p.1 p.2) ↔
        tracker.low ≤ x ∧ x ≤ tracker.high ∧ x ∉ received accepted stream) ∧
    (after.statsOf.sequenceGaps, after.statsOf.sequenceGapsSaturated) =
      Saturating.ofNat (missingTotal accepted) ∧
    ∀ (capacity' : UInt64) (policy' : SessionPolicy) (broker' : EventBroker)
      (inputs' : List (EventRecord × UInt64)) (accepted' : List EventRecord) (after' : EventBroker),
      construct capacity' policy' = .ok broker' →
      broker'.ingestAll inputs' = some (accepted', after') → EvictionFree broker' inputs' →
      accepted.Perm accepted' →
      after'.statsOf.sequenceGaps = after.statsOf.sequenceGaps ∧
        after'.statsOf.sequenceGapsSaturated = after.statsOf.sequenceGapsSaturated := by
  have exact : Exact after accepted := ingest_all_exact (construct_exact constructed) run kept
  refine ⟨fun stream => by rw [exact.mem_iff, List.mem_map], ?_, stats_of_exact exact, ?_⟩
  · intro stream tracker found
    have tracked := exact.tracker stream tracker found
    refine ⟨tracked.least, tracked.greatest, tracked.holes.disjoint,
      fun p member => tracked.hole_inside member, fun x => ?_⟩
    rw [← tracked.holes.covers, tracked.mem_missingBetween]
  · intro capacity' policy' broker' inputs' accepted' after' constructed' run' kept' perm
    have exact' : Exact after' accepted' :=
      ingest_all_exact (construct_exact constructed') run' kept'
    have same : (after'.statsOf.sequenceGaps, after'.statsOf.sequenceGapsSaturated) =
        (after.statsOf.sequenceGaps, after.statsOf.sequenceGapsSaturated) := by
      rw [stats_of_exact exact', stats_of_exact exact, missing_total_perm perm]
    exact Prod.mk.inj same

/-- An API call on the stream of session 0, process 0. -/
def arrival (sequenceNumber : UInt64) : EventRecord :=
  { header := { category := .canvas, type := .apiCall, sequenceNumber } }

/-- One stream, three arrivals, two orders: the hole is filled late or split. -/
theorem sequence_gap_accounting_exact_reordered :
    ∃ broker late early, construct 4 = .ok broker ∧
      broker.ingestAll [(arrival 5, 0), (arrival 9, 0), (arrival 7, 0)] =
        some ([arrival 5, arrival 9, arrival 7], late) ∧
      broker.ingestAll [(arrival 7, 0), (arrival 9, 0), (arrival 5, 0)] =
        some ([arrival 7, arrival 9, arrival 5], early) ∧
      early.statsOf.sequenceGaps = late.statsOf.sequenceGaps := by
  have constructed : construct 4 = .ok { capacity := 4 } := rfl
  obtain ⟨⟨_, late⟩, lateRun, rfl⟩ := Option.map_eq_some_iff.1 (show
    (ingestAll { capacity := 4 } [(arrival 5, 0), (arrival 9, 0), (arrival 7, 0)]).map Prod.fst =
      some [arrival 5, arrival 9, arrival 7] by decide +kernel)
  obtain ⟨⟨_, early⟩, earlyRun, rfl⟩ := Option.map_eq_some_iff.1 (show
    (ingestAll { capacity := 4 } [(arrival 7, 0), (arrival 9, 0), (arrival 5, 0)]).map Prod.fst =
      some [arrival 7, arrival 9, arrival 5] by decide +kernel)
  refine ⟨_, late, early, constructed, lateRun, earlyRun, ?_⟩
  have reordered := (sequence_gap_accounting_exact constructed lateRun (by decide +kernel)).2.2.2
  exact (reordered _ _ _ _ _ _ constructed earlyRun (by decide +kernel) (by decide +kernel)).1

end Reb.Evidence.EventBroker
