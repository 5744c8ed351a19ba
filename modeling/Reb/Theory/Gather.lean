/-
# Theory.Gather -- entries gathered by key

`upsert` changes the entry of a key and makes it first where there is none, as
`entry(..).or_default()` does.  A list of keyed changes gathered so has one entry for each
key that occurs, and its value has the key's changes made in order (`mem_gather`).
-/
import Reb.Theory.OrderedMap

namespace Reb.Theory.OrderedMap

set_option autoImplicit false

universe u v

variable {κ : Type u} {ν : Type v} [LinearOrder κ] (start : ν)

def upsertList (k : κ) (change : ν → ν) : List (κ × ν) → List (κ × ν)
  | [] => [(k, change start)]
  | p :: rest =>
      if k < p.1 then (k, change start) :: p :: rest
      else if p.1 < k then p :: upsertList k change rest
      else (p.1, change p.2) :: rest

variable {start}

theorem upsertList_keys {k : κ} {change : ν → ν} {l : List (κ × ν)} {p : κ × ν}
    (member : p ∈ upsertList start k change l) : p.1 = k ∨ ∃ q ∈ l, q.1 = p.1 := by
  induction l with
  | nil => exact .inl (by rw [List.mem_singleton.1 member])
  | cons head rest ih =>
      rw [upsertList] at member
      split at member
      · rcases List.mem_cons.1 member with rfl | old
        · exact .inl rfl
        · exact .inr ⟨p, old, rfl⟩
      · split at member
        · rcases List.mem_cons.1 member with rfl | later
          · exact .inr ⟨p, .head _, rfl⟩
          · rcases ih later with same | ⟨q, old, same⟩
            · exact .inl same
            · exact .inr ⟨q, .tail _ old, same⟩
        · rcases List.mem_cons.1 member with rfl | old
          · exact .inr ⟨head, .head _, rfl⟩
          · exact .inr ⟨p, .tail _ old, rfl⟩

theorem upsertList_sorted {k : κ} {change : ν → ν} {l : List (κ × ν)}
    (sorted : l.Pairwise (fun p q => p.1 < q.1)) :
    (upsertList start k change l).Pairwise (fun p q => p.1 < q.1) := by
  induction l with
  | nil => exact List.pairwise_singleton _ _
  | cons head rest ih =>
      obtain ⟨below, restSorted⟩ := List.pairwise_cons.1 sorted
      rw [upsertList]
      split
      · rename_i lt
        refine List.pairwise_cons.2 ⟨fun q member => ?_, sorted⟩
        rcases List.mem_cons.1 member with rfl | later
        · exact lt
        · exact lt.trans (below q later)
      · split
        · rename_i gt
          refine List.pairwise_cons.2 ⟨fun q member => ?_, ih restSorted⟩
          rcases upsertList_keys member with same | ⟨r, old, same⟩
          · rwa [same]
          · rw [← same]
            exact below r old
        · exact List.pairwise_cons.2 ⟨below, restSorted⟩

theorem mem_upsertList {k : κ} {change : ν → ν} {l : List (κ × ν)}
    (sorted : l.Pairwise (fun p q => p.1 < q.1)) {p : κ × ν} :
    p ∈ upsertList start k change l ↔ (p ∈ l ∧ p.1 ≠ k)
      ∨ (p.1 = k ∧ ((∃ v, (k, v) ∈ l ∧ p.2 = change v)
        ∨ (∀ q ∈ l, q.1 ≠ k) ∧ p.2 = change start)) := by
  induction l with
  | nil =>
      rw [upsertList, List.mem_singleton, Prod.ext_iff]
      simp
  | cons head rest ih =>
      obtain ⟨below, restSorted⟩ := List.pairwise_cons.1 sorted
      rw [upsertList]
      rcases lt_trichotomy k head.1 with lt | same | gt
      · have fresh : ∀ q ∈ head :: rest, q.1 ≠ k := by
          intro q member
          rcases List.mem_cons.1 member with rfl | later
          · exact lt.ne'
          · exact (lt.trans (below q later)).ne'
        have none : ¬ ∃ v, (k, v) ∈ head :: rest ∧ p.2 = change v := by
          rintro ⟨v, member, -⟩
          exact fresh _ member rfl
        rw [if_pos lt, List.mem_cons, Prod.ext_iff]
        constructor
        · rintro (⟨key, value⟩ | old)
          · exact .inr ⟨key, .inr ⟨fresh, value⟩⟩
          · exact .inl ⟨old, fresh p old⟩
        · rintro (⟨old, -⟩ | ⟨key, found | ⟨-, value⟩⟩)
          · exact .inr old
          · exact absurd found none
          · exact .inl ⟨key, value⟩
      · have others : ∀ q ∈ rest, q.1 ≠ k := fun q later => by
          rw [same]
          exact (below q later).ne'
        rw [if_neg same.not_lt, if_neg same.not_gt, List.mem_cons, Prod.ext_iff]
        constructor
        · rintro (⟨key, value⟩ | old)
          · exact .inr ⟨key.trans same.symm, .inl ⟨head.2, by rw [same]; exact .head _, value⟩⟩
          · exact .inl ⟨.tail _ old, others p old⟩
        · rintro (⟨old, apart⟩ | ⟨key, ⟨v, member, value⟩ | ⟨fresh, -⟩⟩)
          · rcases List.mem_cons.1 old with rfl | later
            · exact absurd same.symm apart
            · exact .inr later
          · rcases List.mem_cons.1 member with first | later
            · exact .inl ⟨key.trans same, by rw [value, ← first]⟩
            · exact absurd rfl (others _ later)
          · exact absurd same.symm (fresh head (.head _))
      · have apart : head.1 ≠ k := gt.ne
        have found (v : ν) : (k, v) ∈ head :: rest ↔ (k, v) ∈ rest := by
          rw [List.mem_cons, or_iff_right]
          rintro rfl
          exact apart rfl
        have fresh : (∀ q ∈ head :: rest, q.1 ≠ k) ↔ ∀ q ∈ rest, q.1 ≠ k := by
          rw [List.forall_mem_cons, and_iff_right apart]
        rw [if_neg (not_lt_of_gt gt), if_pos gt, List.mem_cons, ih restSorted, fresh, List.mem_cons]
        simp only [found]
        constructor
        · rintro (rfl | ⟨old, other⟩ | more)
          · exact .inl ⟨.inl rfl, apart⟩
          · exact .inl ⟨.inr old, other⟩
          · exact .inr more
        · rintro (⟨rfl | old, other⟩ | more)
          · exact .inl rfl
          · exact .inr (.inl ⟨old, other⟩)
          · exact .inr (.inr more)

variable (start)

def upsert (m : OrderedMap κ ν) (k : κ) (change : ν → ν) : OrderedMap κ ν :=
  ⟨upsertList start k change m.entries, upsertList_sorted m.sorted⟩

/-- Keyed changes made one by one. -/
def gather (items : List (κ × (ν → ν))) : OrderedMap κ ν :=
  items.foldl (fun m item => m.upsert start item.1 item.2) ∅

/-- The changes of a key, made in order. -/
def gathered (items : List (κ × (ν → ν))) (k : κ) : ν :=
  (items.filter (·.1 = k)).foldl (fun value item => item.2 value) start

theorem mem_gather {items : List (κ × (ν → ν))} {p : κ × ν} :
    p ∈ gather start items ↔ p.1 ∈ items.map Prod.fst ∧ p.2 = gathered start items p.1 := by
  induction items using List.reverseRecOn generalizing p with
  | nil => simp [gather]
  | append_singleton items item ih =>
      have turn : p ∈ gather start (items ++ [item])
          ↔ p ∈ upsertList start item.1 item.2 (gather start items).entries := by
        rw [gather, List.foldl_append]
        rfl
      rw [turn, mem_upsertList (gather start items).sorted, gathered, List.filter_append,
        List.foldl_append, List.map_append, List.mem_append]
      simp only [mem_entries, List.map_cons, List.map_nil, List.mem_singleton]
      by_cases same : p.1 = item.1
      · have last : [item].filter (·.1 = p.1) = [item] := by simp [same]
        rw [last, List.foldl_cons, List.foldl_nil]
        constructor
        · rintro (⟨-, apart⟩ | ⟨-, ⟨v, old, value⟩ | ⟨fresh, value⟩⟩)
          · exact absurd same apart
          · refine ⟨.inr same, ?_⟩
            have known : v = gathered start items item.1 := (ih.1 old).2
            rw [value, known, gathered, same]
          · refine ⟨.inr same, ?_⟩
            have none : items.filter (·.1 = p.1) = [] := by
              rw [List.filter_eq_nil_iff]
              intro other member equal
              have key : item.1 ∈ items.map Prod.fst := by
                rw [← same, ← of_decide_eq_true equal]
                exact List.mem_map_of_mem member
              exact fresh (item.1, gathered start items item.1) (ih.2 ⟨key, rfl⟩) rfl
            rw [value, none]
            rfl
        · rintro ⟨-, value⟩
          refine .inr ⟨same, ?_⟩
          by_cases known : item.1 ∈ items.map Prod.fst
          · refine .inl ⟨gathered start items item.1, ih.2 ⟨known, rfl⟩, ?_⟩
            rw [value, gathered, same]
          · refine .inr ⟨fun q old equal => known (equal ▸ (ih.1 old).1), ?_⟩
            have none : items.filter (·.1 = p.1) = [] := by
              rw [List.filter_eq_nil_iff]
              intro other member equal
              apply known
              rw [← same, ← of_decide_eq_true equal]
              exact List.mem_map_of_mem member
            rw [value, none]
            rfl
      · have last : [item].filter (·.1 = p.1) = [] := by
          simp [Ne.symm same]
        rw [last, List.foldl_nil, and_iff_left same, or_iff_left (fun more => same more.1),
          or_iff_left same]
        exact ih

end Reb.Theory.OrderedMap
