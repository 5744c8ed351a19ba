/-
# Theory.CellRows -- rows of marked cells under distinct names

A table of rows, each a name and the marks of its cells.  Filling a range of a row
marks the union: what is counted in the end is the number of cells, whatever the order
of the fills and however often they meet (`count_eq_ncard`, `marked_fill`).
-/
import Mathlib

namespace Reb.Theory.CellRows

set_option autoImplicit false

variable {κ : Type*} [DecidableEq κ]

/-- The cells of the rows whose mark is one of these. -/
def cellsWhere (p : Bool → Bool) (rows : List (κ × List Bool)) : Set (κ × Nat) :=
  {cell | ∃ row ∈ rows, row.1 = cell.1 ∧ ∃ mark, row.2[cell.2]? = some mark ∧ p mark = true}

def present (rows : List (κ × List Bool)) : Set (κ × Nat) := cellsWhere (fun _ => true) rows

def marked (rows : List (κ × List Bool)) : Set (κ × Nat) := cellsWhere id rows

def size (rows : List (κ × List Bool)) : Nat := (rows.map fun row => row.2.length).sum

def count (rows : List (κ × List Bool)) : Nat := (rows.flatMap fun row => row.2).countP id

/-- Mark a range of the row of that name. -/
def fill (name : κ) (start stop : Nat) (rows : List (κ × List Bool)) : List (κ × List Bool) :=
  rows.map fun row =>
    if row.1 = name then
      (row.1, row.2.mapIdx fun i mark => mark || (decide (start ≤ i) && decide (i < stop)))
    else row

/-! ## Counting -/

section Counting

omit [DecidableEq κ]

/-- The places of a row whose mark is one of these. -/
theorem ncard_places (p : Bool → Bool) (marks : List Bool) :
    {i : Nat | ∃ mark, marks[i]? = some mark ∧ p mark = true}.Finite
      ∧ {i : Nat | ∃ mark, marks[i]? = some mark ∧ p mark = true}.ncard = marks.countP p := by
  induction marks with
  | nil => simp
  | cons mark marks ih =>
      have split : {i : Nat | ∃ mark', (mark :: marks)[i]? = some mark' ∧ p mark' = true}
          = (if p mark then {0} else ∅)
            ∪ Nat.succ '' {i : Nat | ∃ mark', marks[i]? = some mark' ∧ p mark' = true} := by
        ext i
        cases i with
        | zero =>
            have here : (mark :: marks)[0]? = some mark := rfl
            rw [Set.mem_ofPred_eq, here]
            split_ifs with yes
            · simp [yes]
            · simp [yes]
        | succ i =>
            split_ifs
            · simp
            · simp
      have later := ih.1.image Nat.succ
      have first : (if p mark then {0} else ∅ : Set Nat).Finite := by
        split_ifs
        · exact Set.finite_singleton 0
        · exact Set.finite_empty
      have apart : Disjoint (if p mark then {0} else ∅ : Set Nat)
          (Nat.succ '' {i : Nat | ∃ mark', marks[i]? = some mark' ∧ p mark' = true}) := by
        rw [Set.disjoint_left]
        intro i here there
        obtain ⟨j, -, rfl⟩ := there
        split_ifs at here <;> simp at here
      rw [split]
      refine ⟨first.union later, ?_⟩
      rw [Set.ncard_union_eq apart first later, Set.ncard_image_of_injective _ Nat.succ_injective,
        ih.2, List.countP_cons]
      split_ifs
      · rw [Set.ncard_singleton, Nat.add_comm]
      · rw [Set.ncard_empty, Nat.zero_add, Nat.add_zero]

theorem cellsWhere_cons (p : Bool → Bool) (row : κ × List Bool) (rows : List (κ × List Bool)) :
    cellsWhere p (row :: rows)
      = Prod.mk row.1 '' {i : Nat | ∃ mark, row.2[i]? = some mark ∧ p mark = true}
        ∪ cellsWhere p rows := by
  ext cell
  obtain ⟨name, i⟩ := cell
  simp only [cellsWhere, List.mem_cons, Set.mem_ofPred_eq, Set.mem_union, Set.mem_image,
    Prod.mk.injEq]
  constructor
  · rintro ⟨member, rfl | later, same, mark⟩
    · exact .inl ⟨i, mark, same, rfl⟩
    · exact .inr ⟨member, later, same, mark⟩
  · rintro (⟨j, mark, same, rfl⟩ | ⟨member, later, same, mark⟩)
    · exact ⟨row, .inl rfl, same, mark⟩
    · exact ⟨member, .inr later, same, mark⟩

/-- With distinct names, the cells are counted row by row. -/
theorem ncard_cellsWhere (p : Bool → Bool) {rows : List (κ × List Bool)}
    (distinct : (rows.map Prod.fst).Nodup) :
    (cellsWhere p rows).Finite
      ∧ (cellsWhere p rows).ncard = (rows.map fun row => row.2.countP p).sum := by
  induction rows with
  | nil => simp [cellsWhere]
  | cons row rows ih =>
      rw [List.map_cons, List.nodup_cons] at distinct
      obtain ⟨finite, counted⟩ := ih distinct.2
      obtain ⟨places, here⟩ := ncard_places p row.2
      have apart : Disjoint (Prod.mk row.1 '' {i : Nat | ∃ mark, row.2[i]? = some mark ∧ p mark = true})
          (cellsWhere p rows) := by
        rw [Set.disjoint_left]
        rintro _ ⟨i, -, rfl⟩ ⟨member, later, same, -⟩
        exact distinct.1 (List.mem_map.2 ⟨member, later, same⟩)
      rw [cellsWhere_cons]
      refine ⟨(places.image _).union finite, ?_⟩
      rw [Set.ncard_union_eq apart (places.image _) finite,
        Set.ncard_image_of_injective _ (Prod.mk_right_injective row.1), here, counted,
        List.map_cons, List.sum_cons]

theorem size_eq_ncard {rows : List (κ × List Bool)} (distinct : (rows.map Prod.fst).Nodup) :
    size rows = (present rows).ncard := by
  rw [present, (ncard_cellsWhere _ distinct).2, size]
  simp

theorem count_eq_ncard {rows : List (κ × List Bool)} (distinct : (rows.map Prod.fst).Nodup) :
    count rows = (marked rows).ncard := by
  rw [marked, (ncard_cellsWhere _ distinct).2, count, List.countP_flatMap]
  rfl

end Counting

/-! ## Filling -/

section Filling

variable (name : κ) (start stop : Nat) (rows : List (κ × List Bool))

theorem map_fst_fill : (fill name start stop rows).map Prod.fst = rows.map Prod.fst := by
  rw [fill, List.map_map]
  apply List.map_congr_left
  intro row _
  simp only [Function.comp_apply]
  split_ifs
  · rfl
  · rfl

theorem map_length_fill :
    (fill name start stop rows).map (fun row => (row.1, row.2.length))
      = rows.map fun row => (row.1, row.2.length) := by
  rw [fill, List.map_map]
  apply List.map_congr_left
  intro row _
  simp only [Function.comp_apply]
  split_ifs
  · simp
  · rfl

omit [DecidableEq κ] in
theorem mem_present {cell : κ × Nat} :
    cell ∈ present rows ↔ ∃ row ∈ rows, row.1 = cell.1 ∧ cell.2 < row.2.length := by
  constructor
  · rintro ⟨row, member, same, mark, here, -⟩
    exact ⟨row, member, same, (List.getElem?_eq_some_iff.1 here).1⟩
  · rintro ⟨row, member, same, inside⟩
    exact ⟨row, member, same, _, List.getElem?_eq_getElem inside, rfl⟩

theorem present_fill : present (fill name start stop rows) = present rows := by
  have rewritten : ∀ rows : List (κ × List Bool), ∀ cell, cell ∈ present rows
      ↔ ∃ row ∈ rows.map fun row => (row.1, row.2.length), row.1 = cell.1 ∧ cell.2 < row.2 := by
    intro rows cell
    simp [mem_present]
  ext cell
  rw [rewritten, rewritten, map_length_fill]

omit [DecidableEq κ] in
theorem mem_marked {cell : κ × Nat} :
    cell ∈ marked rows ↔ ∃ row ∈ rows, row.1 = cell.1 ∧ row.2[cell.2]? = some true := by
  constructor
  · rintro ⟨row, member, same, mark, here, yes⟩
    exact ⟨row, member, same, by rw [here]; exact congrArg some yes⟩
  · rintro ⟨row, member, same, here⟩
    exact ⟨row, member, same, true, here, rfl⟩

/-- The mark of a cell after a range has been filled. -/
theorem getElem?_filled (marks : List Bool) (i : Nat) :
    (marks.mapIdx fun i mark => mark || (decide (start ≤ i) && decide (i < stop)))[i]? = some true
      ↔ marks[i]? = some true ∨ i < marks.length ∧ start ≤ i ∧ i < stop := by
  rw [List.getElem?_mapIdx]
  cases here : marks[i]? with
  | none =>
      have outside := List.getElem?_eq_none_iff.1 here
      simp
      omega
  | some mark =>
      have inside := (List.getElem?_eq_some_iff.1 here).1
      simp [inside]

theorem marked_fill : marked (fill name start stop rows)
    = marked rows ∪ {cell | cell ∈ present rows ∧ cell.1 = name ∧ start ≤ cell.2 ∧ cell.2 < stop} := by
  ext cell
  obtain ⟨key, i⟩ := cell
  rw [mem_marked, Set.mem_union, mem_marked, Set.mem_ofPred_eq, mem_present, fill]
  constructor
  · rintro ⟨filled, mapped, same, here⟩
    obtain ⟨row, member, rfl⟩ := List.mem_map.1 mapped
    split_ifs at same here with named
    · obtain before | ⟨inside, range⟩ := (getElem?_filled start stop row.2 i).1 here
      · exact .inl ⟨row, member, same, before⟩
      · exact .inr ⟨⟨row, member, same, inside⟩, same.symm.trans named, range⟩
    · exact .inl ⟨row, member, same, here⟩
  · rintro (⟨row, member, same, here⟩ | ⟨⟨row, member, same, inside⟩, named, range⟩)
    · refine ⟨_, List.mem_map_of_mem member, ?_⟩
      split_ifs
      · exact ⟨same, (getElem?_filled start stop row.2 i).2 (.inl here)⟩
      · exact ⟨same, here⟩
    · refine ⟨_, List.mem_map_of_mem member, ?_⟩
      rw [if_pos (same.trans named)]
      exact ⟨same, (getElem?_filled start stop row.2 i).2 (.inr ⟨inside, range⟩)⟩

theorem map_fst_foldl_fill (ranges : List (κ × Nat × Nat)) (rows : List (κ × List Bool)) :
    (ranges.foldl (fun rows range => fill range.1 range.2.1 range.2.2 rows) rows).map Prod.fst
      = rows.map Prod.fst := by
  induction ranges generalizing rows with
  | nil => rfl
  | cons range ranges ih => rw [List.foldl_cons, ih, map_fst_fill]

theorem present_foldl_fill (ranges : List (κ × Nat × Nat)) (rows : List (κ × List Bool)) :
    present (ranges.foldl (fun rows range => fill range.1 range.2.1 range.2.2 rows) rows)
      = present rows := by
  induction ranges generalizing rows with
  | nil => rfl
  | cons range ranges ih => rw [List.foldl_cons, ih, present_fill]

/-- Filling a list of ranges marks their union. -/
theorem marked_foldl_fill (ranges : List (κ × Nat × Nat)) (rows : List (κ × List Bool)) :
    marked (ranges.foldl (fun rows range => fill range.1 range.2.1 range.2.2 rows) rows)
      = marked rows ∪ {cell | cell ∈ present rows
          ∧ ∃ range ∈ ranges, cell.1 = range.1 ∧ range.2.1 ≤ cell.2 ∧ cell.2 < range.2.2} := by
  induction ranges generalizing rows with
  | nil => simp
  | cons range ranges ih =>
      rw [List.foldl_cons, ih, marked_fill, present_fill]
      ext cell
      simp only [Set.mem_union, Set.mem_ofPred_eq, List.mem_cons, exists_eq_or_imp]
      tauto

end Filling

end Reb.Theory.CellRows
