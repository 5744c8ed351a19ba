/-
# Theory.OrderedMap -- a finite map kept sorted by key

The abstract contents of an ordered tree map (`std::map`, `BTreeMap`): a list of
entries strictly increasing in the key, with the sortedness carried as a field.
`floor x` is the entry just before `upper_bound x`: the one with the largest key
not above `x`.

The operations are specified by membership (`mem_emplace`, `mem_erase`) and by
size, so a client never reads the list.
-/
import Mathlib

namespace Reb.Theory

set_option autoImplicit false

universe u v

structure OrderedMap (κ : Type u) (ν : Type v) [LinearOrder κ] where
  entries : List (κ × ν)
  sorted : entries.Pairwise (fun p q => p.1 < q.1)

namespace OrderedMap

variable {κ : Type u} {ν : Type v} [LinearOrder κ]

@[ext] theorem ext {m n : OrderedMap κ ν} (same : m.entries = n.entries) : m = n := by
  cases m; cases n; cases same; rfl

instance [DecidableEq κ] [DecidableEq ν] : DecidableEq (OrderedMap κ ν) := fun m n =>
  decidable_of_iff (m.entries = n.entries) ⟨ext, fun h => by rw [h]⟩

instance [Repr κ] [Repr ν] : Repr (OrderedMap κ ν) := ⟨fun m n => reprPrec m.entries n⟩

def empty : OrderedMap κ ν := ⟨[], List.Pairwise.nil⟩

instance : EmptyCollection (OrderedMap κ ν) := ⟨empty⟩

instance : Membership (κ × ν) (OrderedMap κ ν) := ⟨fun m p => p ∈ m.entries⟩

def size (m : OrderedMap κ ν) : Nat := m.entries.length

@[simp] theorem mem_entries {m : OrderedMap κ ν} {p : κ × ν} : p ∈ m.entries ↔ p ∈ m := Iff.rfl

@[simp] theorem not_mem_empty (p : κ × ν) : p ∉ (∅ : OrderedMap κ ν) := List.not_mem_nil

theorem keys_nodup (m : OrderedMap κ ν) : (m.entries.map Prod.fst).Nodup :=
  List.pairwise_map.2 (m.sorted.imp ne_of_lt)

/-- One key, one value. -/
theorem value_unique {m : OrderedMap κ ν} {p q : κ × ν} (hp : p ∈ m) (hq : q ∈ m)
    (same : p.1 = q.1) : p = q :=
  List.inj_on_of_nodup_map m.keys_nodup hp hq same

/-! ## Insertion -/

/-- Ordered insertion that keeps an existing entry (`emplace`). -/
def emplaceList (k : κ) (v : ν) : List (κ × ν) → List (κ × ν)
  | [] => [(k, v)]
  | p :: rest =>
      if k < p.1 then (k, v) :: p :: rest
      else if p.1 < k then p :: emplaceList k v rest
      else p :: rest

theorem mem_emplaceList {k : κ} {v : ν} {l : List (κ × ν)}
    (sorted : l.Pairwise (fun p q => p.1 < q.1)) {p : κ × ν} :
    p ∈ emplaceList k v l ↔ p ∈ l ∨ (p = (k, v) ∧ ∀ q ∈ l, q.1 ≠ k) := by
  induction l with
  | nil => simp [emplaceList]
  | cons head rest ih =>
      obtain ⟨below, restSorted⟩ := List.pairwise_cons.1 sorted
      rcases lt_trichotomy k head.1 with lt | eq | gt
      · have fresh : ∀ q ∈ head :: rest, q.1 ≠ k := by
          intro q member
          rcases List.mem_cons.1 member with rfl | inRest
          · exact lt.ne'
          · exact (lt.trans (below q inRest)).ne'
        rw [emplaceList, if_pos lt, List.mem_cons, and_iff_left fresh]
        exact or_comm
      · simp [emplaceList, eq]
      · rw [emplaceList, if_neg (not_lt_of_gt gt), if_pos gt, List.mem_cons, ih restSorted,
          List.mem_cons, List.forall_mem_cons, and_iff_right gt.ne, or_assoc]

theorem emplaceList_sorted {k : κ} {v : ν} {l : List (κ × ν)}
    (sorted : l.Pairwise (fun p q => p.1 < q.1)) :
    (emplaceList k v l).Pairwise (fun p q => p.1 < q.1) := by
  induction l with
  | nil => simp [emplaceList]
  | cons head rest ih =>
      obtain ⟨below, restSorted⟩ := List.pairwise_cons.1 sorted
      simp only [emplaceList]
      split
      · rename_i lt
        refine List.pairwise_cons.2 ⟨fun q member => ?_, sorted⟩
        rcases List.mem_cons.1 member with rfl | inRest
        · exact lt
        · exact lt.trans (below q inRest)
      · split
        · rename_i gt
          refine List.pairwise_cons.2 ⟨fun q member => ?_, ih restSorted⟩
          rcases (mem_emplaceList restSorted).1 member with inRest | ⟨rfl, -⟩
          · exact below q inRest
          · exact gt
        · exact sorted

def emplace (m : OrderedMap κ ν) (k : κ) (v : ν) : OrderedMap κ ν :=
  ⟨emplaceList k v m.entries, emplaceList_sorted m.sorted⟩

theorem mem_emplace {m : OrderedMap κ ν} {k : κ} {v : ν} {p : κ × ν} :
    p ∈ m.emplace k v ↔ p ∈ m ∨ (p = (k, v) ∧ ∀ q ∈ m, q.1 ≠ k) :=
  mem_emplaceList m.sorted

theorem mem_emplace_of_fresh {m : OrderedMap κ ν} {k : κ} {v : ν} (fresh : ∀ q ∈ m, q.1 ≠ k)
    {p : κ × ν} : p ∈ m.emplace k v ↔ p ∈ m ∨ p = (k, v) := by
  rw [mem_emplace]; exact or_congr_right (and_iff_left fresh)

theorem length_emplaceList_le (k : κ) (v : ν) (l : List (κ × ν)) :
    (emplaceList k v l).length ≤ l.length + 1 := by
  induction l with
  | nil => exact Nat.le_refl _
  | cons head rest ih =>
      simp only [emplaceList]
      split
      · exact Nat.le_refl _
      · split
        · exact Nat.succ_le_succ ih
        · exact Nat.le_succ _

theorem size_emplace_le (m : OrderedMap κ ν) (k : κ) (v : ν) :
    (m.emplace k v).size ≤ m.size + 1 :=
  length_emplaceList_le k v m.entries

/-! ## Removal -/

def erase (m : OrderedMap κ ν) (k : κ) : OrderedMap κ ν :=
  ⟨m.entries.filter (·.1 ≠ k), m.sorted.filter _⟩

theorem mem_erase {m : OrderedMap κ ν} {k : κ} {p : κ × ν} :
    p ∈ m.erase k ↔ p ∈ m ∧ p.1 ≠ k := by
  show p ∈ m.entries.filter _ ↔ p ∈ m.entries ∧ _
  simp

theorem size_erase_of_mem {m : OrderedMap κ ν} {p : κ × ν} (member : p ∈ m) :
    (m.erase p.1).size + 1 = m.size := by
  obtain ⟨before, after, split⟩ := List.append_of_mem (show p ∈ m.entries from member)
  have sorted := m.sorted
  rw [split, List.pairwise_append, List.pairwise_cons] at sorted
  obtain ⟨-, ⟨above, -⟩, below⟩ := sorted
  have keepBefore : before.filter (·.1 ≠ p.1) = before :=
    List.filter_eq_self.2 fun q hq => by simpa using (below q hq p (by simp)).ne
  have keepAfter : after.filter (·.1 ≠ p.1) = after :=
    List.filter_eq_self.2 fun q hq => by simpa using (above q hq).ne'
  simp only [size, erase, split, List.filter_append, keepBefore, List.filter_cons, ne_eq,
    not_true_eq_false, decide_false, Bool.false_eq_true, if_false, keepAfter, List.length_append,
    List.length_cons]
  omega

/-! ## The entry at or below a key -/

/-- `upper_bound x` stepped back once: `none` when it is `begin`. -/
def floor (m : OrderedMap κ ν) (x : κ) : Option (κ × ν) :=
  (m.entries.filter (·.1 ≤ x)).getLast?

theorem floor_mem {m : OrderedMap κ ν} {x : κ} {p : κ × ν} (found : m.floor x = some p) :
    p ∈ m ∧ p.1 ≤ x := by
  have := List.mem_of_getLast? found
  simpa using List.mem_filter.1 this

theorem floor_greatest {m : OrderedMap κ ν} {x : κ} {p : κ × ν} (found : m.floor x = some p)
    {q : κ × ν} (member : q ∈ m) (below : q.1 ≤ x) : q.1 ≤ p.1 := by
  obtain ⟨init, eq⟩ := List.getLast?_eq_some_iff.1 found
  have sorted := m.sorted.filter (fun q => decide (q.1 ≤ x))
  rw [eq, List.pairwise_append] at sorted
  have inFilter : q ∈ m.entries.filter (·.1 ≤ x) := List.mem_filter.2 ⟨member, by simpa using below⟩
  rw [eq, List.mem_append, List.mem_singleton] at inFilter
  rcases inFilter with inInit | rfl
  · exact (sorted.2.2 q inInit p (by simp)).le
  · exact le_rfl

theorem floor_eq_none_iff {m : OrderedMap κ ν} {x : κ} :
    m.floor x = none ↔ ∀ q ∈ m, x < q.1 := by
  rw [floor, List.getLast?_eq_none_iff, List.filter_eq_nil_iff]
  simp

end OrderedMap

end Reb.Theory
