/-
# Theory.Intervals -- a set kept as disjoint closed intervals

An ordered map from first to last element denotes the union of the intervals
`[first, last]`.  `IntervalsOf m S` says that the map denotes exactly `S`, with
no empty interval and no overlap.  The three operations a client needs are
membership (`mem_iff_of_floor`: look at the entry at or below the point), adding
an interval away from `S` (`emplace`) and removing a whole interval (`erase`).
-/
import Mathlib
import Reb.Theory.OrderedMap

namespace Reb.Theory

set_option autoImplicit false

universe u

variable {κ : Type u} [LinearOrder κ]

/-- The intervals of `m` are non-empty, pairwise disjoint, and cover exactly `S`. -/
structure IntervalsOf (m : OrderedMap κ κ) (S : Set κ) : Prop where
  proper : ∀ p ∈ m, p.1 ≤ p.2
  disjoint : ∀ p ∈ m, ∀ q ∈ m, p ≠ q → Disjoint (Set.Icc p.1 p.2) (Set.Icc q.1 q.2)
  covers : ∀ x, x ∈ S ↔ ∃ p ∈ m, x ∈ Set.Icc p.1 p.2

namespace IntervalsOf

variable {m : OrderedMap κ κ} {S : Set κ}

theorem empty : IntervalsOf (∅ : OrderedMap κ κ) (∅ : Set κ) where
  proper p member := absurd member (OrderedMap.not_mem_empty p)
  disjoint p member := absurd member (OrderedMap.not_mem_empty p)
  covers x := by simp

theorem congr {T : Set κ} (h : IntervalsOf m S) (same : ∀ x, x ∈ T ↔ x ∈ S) : IntervalsOf m T :=
  (Set.ext same : T = S) ▸ h

theorem subset (h : IntervalsOf m S) {p : κ × κ} (member : p ∈ m) : Set.Icc p.1 p.2 ⊆ S :=
  fun x inside => (h.covers x).2 ⟨p, member, inside⟩

/-- A point is covered exactly when the entry at or below it reaches it. -/
theorem mem_iff_of_floor (h : IntervalsOf m S) {x : κ} {p : κ × κ} (found : m.floor x = some p) :
    x ∈ S ↔ x ≤ p.2 := by
  obtain ⟨member, below⟩ := OrderedMap.floor_mem found
  constructor
  · intro inS
    obtain ⟨q, qMember, lower, upper⟩ := (h.covers x).1 inS
    by_contra short
    have qFirst : q.1 ≤ p.1 := OrderedMap.floor_greatest found qMember lower
    -- `q` would then contain all of `p`, which is not empty.
    have apart := h.disjoint p member q qMember (by rintro rfl; exact short upper)
    have shared : p.1 ∈ Set.Icc q.1 q.2 := ⟨qFirst, below.trans upper⟩
    exact Set.disjoint_left.1 apart ⟨le_rfl, h.proper p member⟩ shared
  · intro reaches
    exact (h.covers x).2 ⟨p, member, below, reaches⟩

theorem not_mem_of_floor_none (h : IntervalsOf m S) {x : κ} (none : m.floor x = none) : x ∉ S := by
  intro inS
  obtain ⟨q, qMember, lower, -⟩ := (h.covers x).1 inS
  exact absurd (OrderedMap.floor_eq_none_iff.1 none q qMember) (not_lt.2 lower)

/-- Every first element is covered, so an interval off `S` has a fresh key. -/
theorem fresh_key (h : IntervalsOf m S) {first last : κ} (proper : first ≤ last)
    (off : Disjoint (Set.Icc first last) S) : ∀ q ∈ m, q.1 ≠ first := by
  rintro q member rfl
  exact Set.disjoint_left.1 off ⟨le_rfl, proper⟩ (h.subset member ⟨le_rfl, h.proper q member⟩)

theorem emplace (h : IntervalsOf m S) {first last : κ} (proper : first ≤ last)
    (off : Disjoint (Set.Icc first last) S) :
    IntervalsOf (m.emplace first last) (S ∪ Set.Icc first last) := by
  have mem_iff := fun p => OrderedMap.mem_emplace_of_fresh (v := last) (p := p)
    (h.fresh_key proper off)
  have newOff : ∀ q ∈ m, Disjoint (Set.Icc first last) (Set.Icc q.1 q.2) := fun q member =>
    off.mono_right (h.subset member)
  refine ⟨?_, ?_, ?_⟩
  · intro p member
    rcases (mem_iff p).1 member with old | rfl
    · exact h.proper p old
    · exact proper
  · intro p pMember q qMember ne
    rcases (mem_iff p).1 pMember with pOld | rfl <;> rcases (mem_iff q).1 qMember with qOld | rfl
    · exact h.disjoint p pOld q qOld ne
    · exact (newOff p pOld).symm
    · exact newOff q qOld
    · exact absurd rfl ne
  · intro x
    constructor
    · rintro (inS | inside)
      · obtain ⟨p, member, inside⟩ := (h.covers x).1 inS
        exact ⟨p, (mem_iff p).2 (.inl member), inside⟩
      · exact ⟨(first, last), (mem_iff _).2 (.inr rfl), inside⟩
    · rintro ⟨p, member, inside⟩
      rcases (mem_iff p).1 member with old | rfl
      · exact .inl (h.subset old inside)
      · exact .inr inside

theorem erase (h : IntervalsOf m S) {p : κ × κ} (member : p ∈ m) :
    IntervalsOf (m.erase p.1) (S \ Set.Icc p.1 p.2) := by
  have kept : ∀ q, q ∈ m.erase p.1 ↔ q ∈ m ∧ q ≠ p := by
    intro q
    rw [OrderedMap.mem_erase]
    refine and_congr_right fun qMember => not_congr ⟨fun same => ?_, fun same => same ▸ rfl⟩
    exact OrderedMap.value_unique qMember member same
  refine ⟨?_, ?_, ?_⟩
  · intro q qMember
    exact h.proper q ((kept q).1 qMember).1
  · intro q qMember r rMember
    exact h.disjoint q ((kept q).1 qMember).1 r ((kept r).1 rMember).1
  · intro x
    constructor
    · rintro ⟨inS, outside⟩
      obtain ⟨q, qMember, inside⟩ := (h.covers x).1 inS
      exact ⟨q, (kept q).2 ⟨qMember, by rintro rfl; exact outside inside⟩, inside⟩
    · rintro ⟨q, qMember, inside⟩
      obtain ⟨old, ne⟩ := (kept q).1 qMember
      exact ⟨h.subset old inside, Set.disjoint_left.1 (h.disjoint q old p member ne) inside⟩

/-- An ordered map has at most as many intervals as its set has elements. -/
theorem card_eq [Finite κ] (h : IntervalsOf m S) :
    S.ncard = (m.entries.map fun p => (Set.Icc p.1 p.2).ncard).sum := by
  suffices ∀ l : List (κ × κ), l.Nodup → (∀ p ∈ l, p ∈ m) →
      {x | ∃ p ∈ l, x ∈ Set.Icc p.1 p.2}.ncard = (l.map fun p => (Set.Icc p.1 p.2).ncard).sum by
    have nodup : m.entries.Nodup := List.Nodup.of_map _ m.keys_nodup
    rw [← this m.entries nodup fun p member => member]
    congr 1
    ext x
    exact h.covers x
  intro l nodup inM
  induction l with
  | nil => simp
  | cons head rest ih =>
      obtain ⟨headFresh, restNodup⟩ := List.nodup_cons.1 nodup
      have split : {x | ∃ p ∈ head :: rest, x ∈ Set.Icc p.1 p.2} =
          Set.Icc head.1 head.2 ∪ {x | ∃ p ∈ rest, x ∈ Set.Icc p.1 p.2} := by
        ext x; simp
      have apart : Disjoint (Set.Icc head.1 head.2) {x | ∃ p ∈ rest, x ∈ Set.Icc p.1 p.2} := by
        rw [Set.disjoint_left]
        rintro x inHead ⟨p, pMember, inP⟩
        have ne : head ≠ p := by rintro rfl; exact headFresh pMember
        exact Set.disjoint_left.1
          (h.disjoint head (inM _ (by simp)) p (inM _ (by simp [pMember])) ne) inHead inP
      rw [split, Set.ncard_union_eq apart (Set.toFinite _) (Set.toFinite _), List.map_cons,
        List.sum_cons, ih restNodup fun p member => inM p (by simp [member])]

end IntervalsOf

end Reb.Theory
