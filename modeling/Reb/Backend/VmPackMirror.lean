/-
# Backend.VmPackMirror -- a comparison partitions and mirrors

Every handler is in exactly one row of its side, and exchanging the sides exchanges them in
the rows (`rows_mirror`).  The passes are read off as the rows they add: those of the shapes,
those of the first fits by opcode, and the handlers that neither used.
-/
import Reb.Backend.VmPack
import Reb.Theory.Fallible

namespace Reb.Backend.VmPack

open Reb.Theory
open Reb.Theory.Serde
open Reb.Theory.Fallible

set_option autoImplicit false

/-! ## Rows added -/

/-- The sides exchanged. -/
def Row.mirror (row : Row) : Row where
  status :=
    if row.status = "left-only" then "right-only"
    else if row.status = "right-only" then "left-only"
    else row.status
  basis := row.basis
  shape := row.shape
  left := row.right
  right := row.left

def Matching.addAll (matching : Matching) (rows : List Row) : Matching :=
  rows.foldl Matching.add matching

theorem Matching.addAll_eq (matching : Matching) (rows : List Row) :
    matching.addAll rows = ⟨matching.usedLeft ++ rows.filterMap Row.left,
      matching.usedRight ++ rows.filterMap Row.right, matching.rows ++ rows⟩ := by
  induction rows generalizing matching with
  | nil => simp [addAll]
  | cons row rows ih =>
      have left : row.left.toList ++ rows.filterMap Row.left = (row :: rows).filterMap Row.left := by
        rw [List.filterMap_cons]
        cases row.left <;> rfl
      have right : row.right.toList ++ rows.filterMap Row.right
          = (row :: rows).filterMap Row.right := by
        rw [List.filterMap_cons]
        cases row.right <;> rfl
      rw [addAll, List.foldl_cons]
      change (matching.add row).addAll rows = _
      rw [ih, add, List.append_assoc, List.append_assoc, left, right, List.append_assoc]
      rfl

theorem Matching.addAll_append (matching : Matching) (rows others : List Row) :
    (matching.addAll rows).addAll others = matching.addAll (rows ++ others) :=
  List.foldl_append.symm

/-- The rows of a shape. -/
def shapeRows (left right : Build) (entry : String × List Nat × List Nat) : List Row :=
  let lefts := entry.2.1
  let rights := entry.2.2
  if lefts.length = 1 ∧ rights.length = 1 then
    [uniqueRow left right entry.1 (lefts.headD 0) (rights.headD 0)]
  else if lefts.length > 1 ∨ rights.length > 1 then
    lefts.map (ambiguousLeft entry.1) ++ rights.map (ambiguousRight entry.1)
  else []

theorem addShape_eq (left right : Build) (matching : Matching)
    (entry : String × List Nat × List Nat) :
    addShape left right matching entry = matching.addAll (shapeRows left right entry) := by
  rw [addShape, shapeRows]
  dsimp only
  split
  · rfl
  · split
    · rw [← Matching.addAll_append, Matching.addAll, Matching.addAll, List.foldl_map, List.foldl_map]
    · rfl

theorem foldl_addShape (left right : Build) (matching : Matching)
    (entries : List (String × List Nat × List Nat)) :
    entries.foldl (addShape left right) matching
      = matching.addAll (entries.flatMap (shapeRows left right)) := by
  induction entries generalizing matching with
  | nil => rfl
  | cons entry entries ih =>
      rw [List.foldl_cons, ih, addShape_eq, Matching.addAll_append, List.flatMap_cons]

/-! ## First fits -/

/-- A handler that the pass by opcodes may pair. -/
def Build.certain (build : Build) (index : Nat) : Bool := (build.uncertain index).isNone

def fits (left right : Build) (a b : Nat) : Bool := (right.opcode b).eq (left.opcode a)

/-- The free and certain handlers. -/
def Build.free (build : Build) (used : List Nat) : List Nat :=
  build.places.filter fun index => index ∉ used && build.certain index

theorem foldl_addChanged {left right : Build} (both : (left.comparable && right.comparable) = true)
    {as : List Nat} (distinct : as.Nodup) (matching : Matching) :
    as.foldl (addChanged left right) matching
      = matching.addAll ((FirstFit.pairs (fits left right)
          (as.filter fun a => a ∉ matching.usedLeft && left.certain a)
          (right.free matching.usedRight)).map fun pair => changedRow pair.1 pair.2) := by
  induction as generalizing matching with
  | nil => rfl
  | cons a as ih =>
      obtain ⟨new, distinct⟩ := List.nodup_cons.1 distinct
      rw [List.foldl_cons, ih distinct, List.filter_cons, addChanged]
      by_cases used : a ∈ matching.usedLeft
      · rw [if_pos used]
        simp [used]
      · rw [if_neg used]
        cases certain : left.certain a with
        | false =>
            have doubt : (left.uncertain a).isNone = false := certain
            simp [doubt]
        | true =>
            have sure : (left.uncertain a).isNone = true := certain
            have search : (right.places.find? fun b => b ∉ matching.usedRight
                && (right.uncertain b).isNone && (right.opcode b).eq (left.opcode a))
                  = (right.free matching.usedRight).find? (fits left right a) := by
              rw [Build.free, List.find?_filter]
              simp only [Bool.decide_and, Bool.decide_eq_true]
              rfl
            rw [if_pos (by rw [both, sure]; rfl), search, if_pos (by simp [used])]
            cases found : (right.free matching.usedRight).find? (fits left right a) with
            | none => rw [FirstFit.pairs_none found]
            | some b =>
                have lefts : (as.filter fun a' => a' ∉ (matching.add (changedRow a b)).usedLeft
                    && left.certain a') = as.filter fun a' => a' ∉ matching.usedLeft
                      && left.certain a' := by
                  refine List.filter_congr fun a' member => ?_
                  have other : a' ≠ a := fun same => new (same ▸ member)
                  simp [Matching.add, changedRow, other]
                have rights : right.free (matching.add (changedRow a b)).usedRight
                    = (right.free matching.usedRight).erase b := by
                  have unique : (right.free matching.usedRight).Nodup := List.nodup_range.filter _
                  rw [unique.erase_eq_filter, Build.free, Build.free, List.filter_filter]
                  refine List.filter_congr fun b' _ => ?_
                  by_cases same : b' = b
                  · simp [Matching.add, changedRow, same]
                  · simp [Matching.add, changedRow, same]
                rw [FirstFit.pairs_some found, lefts, rights]
                rfl

theorem foldl_addChanged_apart {left right : Build}
    (apart : (left.comparable && right.comparable) = false) (as : List Nat) (matching : Matching) :
    as.foldl (addChanged left right) matching = matching := by
  induction as with
  | nil => rfl
  | cons a as ih =>
      have turn : addChanged left right matching a = matching := by
        rw [addChanged, apart]
        simp
      rw [List.foldl_cons, turn, ih]

/-! ## Shapes -/

section Shapes

variable (library : Library)

/-- The handlers of a shape. -/
def Build.ofShape (build : Build) (shape : String) : List Nat :=
  build.places.filter fun index => build.shape library index = some shape

/-- The keyed changes of a side. -/
def Build.pushes (build : Build) (push : Nat → List Nat × List Nat → List Nat × List Nat) :
    List (String × (List Nat × List Nat → List Nat × List Nat)) :=
  build.places.filterMap fun index => (build.shape library index).map fun shape =>
    (shape, push index)

def pushLeft (index : Nat) (entry : List Nat × List Nat) : List Nat × List Nat :=
  (entry.1 ++ [index], entry.2)

def pushRight (index : Nat) (entry : List Nat × List Nat) : List Nat × List Nat :=
  (entry.1, entry.2 ++ [index])

theorem shapes_eq (left right : Build) :
    shapes library left right = OrderedMap.gather ([], [])
      (left.pushes library pushLeft ++ right.pushes library pushRight) := rfl

theorem mem_pushes {build : Build} {push : Nat → List Nat × List Nat → List Nat × List Nat}
    {shape : String} :
    shape ∈ (build.pushes library push).map Prod.fst ↔ build.ofShape library shape ≠ [] := by
  rw [ne_eq, List.eq_nil_iff_forall_not_mem, not_forall]
  simp only [Build.pushes, Build.ofShape, List.mem_map, List.mem_filterMap, List.mem_filter,
    Option.map_eq_some_iff, decide_eq_true_eq, not_not]
  constructor
  · rintro ⟨item, ⟨index, place, same, found, rfl⟩, rfl⟩
    exact ⟨index, place, found⟩
  · rintro ⟨index, place, found⟩
    exact ⟨_, ⟨index, place, shape, found, rfl⟩, rfl⟩

/-- What the changes of a shape come to. -/
theorem foldl_pushes (build : Build) {push : Nat → List Nat × List Nat → List Nat × List Nat}
    (shape : String) (start : List Nat × List Nat) :
    ((build.pushes library push).filter (·.1 = shape)).foldl (fun value item => item.2 value) start
      = (build.ofShape library shape).foldl (fun value index => push index value) start := by
  rw [Build.pushes, Build.ofShape]
  generalize build.places = places
  induction places generalizing start with
  | nil => rfl
  | cons index places ih =>
      rw [List.filterMap_cons, List.filter_cons]
      cases found : build.shape library index with
      | none => simpa using ih start
      | some other =>
          by_cases same : other = shape
          · simpa [same] using ih (push index start)
          · simpa [same] using ih start

theorem foldl_pushLeft (indices : List Nat) (start : List Nat × List Nat) :
    indices.foldl (fun value index => pushLeft index value) start = (start.1 ++ indices, start.2) := by
  induction indices generalizing start with
  | nil => simp
  | cons index indices ih => rw [List.foldl_cons, ih, pushLeft, List.append_assoc, List.singleton_append]

theorem foldl_pushRight (indices : List Nat) (start : List Nat × List Nat) :
    indices.foldl (fun value index => pushRight index value) start
      = (start.1, start.2 ++ indices) := by
  induction indices generalizing start with
  | nil => simp
  | cons index indices ih =>
      rw [List.foldl_cons, ih, pushRight, List.append_assoc, List.singleton_append]

/-- A shape's entry has its handlers of both sides. -/
theorem mem_shapes {left right : Build} {entry : String × List Nat × List Nat} :
    entry ∈ (shapes library left right).entries
      ↔ (left.ofShape library entry.1 ≠ [] ∨ right.ofShape library entry.1 ≠ [])
        ∧ entry.2 = (left.ofShape library entry.1, right.ofShape library entry.1) := by
  have value : OrderedMap.gathered ([], [])
      (left.pushes library pushLeft ++ right.pushes library pushRight) entry.1
        = (left.ofShape library entry.1, right.ofShape library entry.1) := by
    rw [OrderedMap.gathered, List.filter_append, List.foldl_append, foldl_pushes, foldl_pushes,
      foldl_pushLeft, foldl_pushRight]
    rfl
  rw [shapes_eq, OrderedMap.mem_entries, OrderedMap.mem_gather, value, List.map_append,
    List.mem_append, mem_pushes, mem_pushes]

theorem shapes_nodup (left right : Build) : (shapes library left right).entries.Nodup :=
  .of_map _ (shapes library left right).keys_nodup

theorem shapes_mirror (left right : Build) :
    (shapes library right left).entries.Perm
      ((shapes library left right).entries.map fun entry => (entry.1, entry.2.swap)) := by
  have distinct : ((shapes library left right).entries.map
      fun entry : String × List Nat × List Nat => (entry.1, entry.2.swap)).Nodup := by
    refine (shapes_nodup library left right).map fun entry other same => ?_
    obtain ⟨key, value⟩ := Prod.ext_iff.1 same
    exact Prod.ext key (Prod.swap_injective value)
  rw [List.perm_ext_iff_of_nodup (shapes_nodup library right left) distinct]
  intro entry
  rw [List.mem_map, mem_shapes, or_comm]
  constructor
  · rintro ⟨known, value⟩
    refine ⟨(entry.1, entry.2.swap), (mem_shapes library).2 ⟨known, ?_⟩, by simp⟩
    rw [value]
    rfl
  · rintro ⟨other, member, rfl⟩
    obtain ⟨known, value⟩ := (mem_shapes library).1 member
    refine ⟨known, ?_⟩
    rw [value]
    rfl

/-- The rows of the shapes. -/
def grouped (left right : Build) : List Row :=
  (shapes library left right).entries.flatMap (shapeRows left right)

theorem uniqueRow_mirror (left right : Build) (shape : String) (a b : Nat) :
    uniqueRow right left shape b a = (uniqueRow left right shape a b).mirror := by
  rw [uniqueRow, uniqueRow, Value.eq_comm, Row.mirror]
  split <;> rfl

theorem shapeRows_mirror (left right : Build) (entry : String × List Nat × List Nat) :
    (shapeRows right left (entry.1, entry.2.swap)).Perm
      ((shapeRows left right entry).map Row.mirror) := by
  obtain ⟨shape, lefts, rights⟩ := entry
  rw [shapeRows, shapeRows]
  dsimp only [Prod.swap]
  by_cases one : lefts.length = 1 ∧ rights.length = 1
  · rw [if_pos one, if_pos one.symm, uniqueRow_mirror]
    rfl
  · rw [if_neg one, if_neg fun other => one other.symm]
    by_cases many : lefts.length > 1 ∨ rights.length > 1
    · rw [if_pos many, if_pos many.symm, List.map_append, List.map_map, List.map_map]
      exact List.perm_append_comm
    · rw [if_neg many, if_neg fun other => many other.symm]
      rfl

theorem grouped_mirror (left right : Build) :
    (grouped library right left).Perm ((grouped library left right).map Row.mirror) := by
  rw [grouped, grouped, List.map_flatMap]
  refine ((shapes_mirror library left right).flatMap_right _).trans ?_
  rw [List.flatMap_map]
  exact List.Perm.flatMap_left _ fun entry _ => shapeRows_mirror left right entry

/-! ## Handlers alone -/

theorem uncertainty_cases {handler : Value} {status : String}
    (uncertain : uncertainty handler = some status) :
    status = "contradicted" ∨ status = "unknown" ∨ status = "ambiguous" := by
  rw [uncertainty] at uncertain
  dsimp only at uncertain
  split at uncertain
  · exact .inl (Option.some.inj uncertain).symm
  · split at uncertain
    · exact .inr (.inl (Option.some.inj uncertain).symm)
    · split at uncertain
      · exact .inr (.inr (Option.some.inj uncertain).symm)
      · cases uncertain

/-- The status is the name of standing alone, or a doubt. -/
theorem aloneStatus_cases (build : Build) (index : Nat) :
    (∀ alone, aloneStatus build alone index = alone)
      ∨ ∃ status, (status = "contradicted" ∨ status = "unknown" ∨ status = "ambiguous")
        ∧ ∀ alone, aloneStatus build alone index = status := by
  cases found : build.uncertain index with
  | none =>
      cases comparable : build.comparable with
      | true => exact .inl fun alone => by simp [aloneStatus, comparable, found]
      | false => exact .inr ⟨"unknown", by decide, fun alone => by simp [aloneStatus, comparable, found]⟩
  | some status =>
      have doubt := uncertainty_cases found
      cases comparable : build.comparable with
      | true => exact .inr ⟨status, doubt, fun alone => by simp [aloneStatus, comparable, found]⟩
      | false =>
          by_cases contradicted : status = "contradicted"
          · exact .inr ⟨"contradicted", by decide, fun alone => by
              simp [aloneStatus, comparable, found, contradicted, Option.filter]⟩
          · exact .inr ⟨"unknown", by decide, fun alone => by
              simp [aloneStatus, comparable, found, contradicted, Option.filter]⟩

theorem aloneLeft_mirror (build : Build) (index : Nat) :
    aloneLeft build index = (aloneRight build index).mirror := by
  rw [aloneLeft, aloneRight, Row.mirror]
  rcases aloneStatus_cases build index with same | ⟨status, doubt, same⟩
  · simp [same]
  · simp only [same]
    rcases doubt with rfl | rfl | rfl <;> rfl

theorem aloneRight_mirror (build : Build) (index : Nat) :
    aloneRight build index = (aloneLeft build index).mirror := by
  rw [aloneLeft, aloneRight, Row.mirror]
  rcases aloneStatus_cases build index with same | ⟨status, doubt, same⟩
  · simp [same]
  · simp only [same]
    rcases doubt with rfl | rfl | rfl <;> rfl

/-! ## All rows -/

/-- The pairs of the pass by opcodes. -/
def changed (left right : Build) : List (Nat × Nat) :=
  if left.comparable && right.comparable then
    FirstFit.pairs (fits left right) (left.free ((grouped library left right).filterMap Row.left))
      (right.free ((grouped library left right).filterMap Row.right))
  else []

/-- The rows of both passes. -/
def matched (left right : Build) : List Row :=
  grouped library left right
    ++ (changed library left right).map fun pair => changedRow pair.1 pair.2

theorem rows_eq (left right : Build) :
    rows library left right = matched library left right
      ++ (left.places.filter (· ∉ (matched library left right).filterMap Row.left)).map
        (aloneLeft left)
      ++ (right.places.filter (· ∉ (matched library left right).filterMap Row.right)).map
        (aloneRight right) := by
  have passes : left.places.foldl (addChanged left right)
      ((shapes library left right).entries.foldl (addShape left right) {})
        = Matching.addAll {} (matched library left right) := by
    rw [foldl_addShape]
    change left.places.foldl _ (Matching.addAll {} (grouped library left right)) = _
    rw [matched, changed, ← Matching.addAll_append]
    cases both : left.comparable && right.comparable with
    | true =>
        rw [foldl_addChanged both (show left.places.Nodup from List.nodup_range),
          Matching.addAll_eq {} (grouped library left right)]
        rfl
    | false =>
        rw [foldl_addChanged_apart both]
        rfl
  rw [rows, passes, Matching.addAll_eq]
  rfl

/-- A side of mirrored rows is the other side. -/
theorem left_mirror {rows others : List Row} (mirrored : others.Perm (rows.map Row.mirror)) :
    (others.filterMap Row.left).Perm (rows.filterMap Row.right) := by
  have sides := mirrored.filterMap Row.left
  rwa [List.filterMap_map] at sides

theorem right_mirror {rows others : List Row} (mirrored : others.Perm (rows.map Row.mirror)) :
    (others.filterMap Row.right).Perm (rows.filterMap Row.left) := by
  have sides := mirrored.filterMap Row.right
  rwa [List.filterMap_map] at sides

theorem Build.free_congr (build : Build) {used others : List Nat}
    (same : ∀ index, index ∈ used ↔ index ∈ others) : build.free used = build.free others := by
  refine List.filter_congr fun index _ => congrArg (· && _) ?_
  exact decide_eq_decide.2 (not_congr (same index))

theorem changed_mirror (left right : Build) :
    (changed library right left).Perm ((changed library left right).map Prod.swap) := by
  have lefts : right.free ((grouped library right left).filterMap Row.left)
      = right.free ((grouped library left right).filterMap Row.right) :=
    right.free_congr fun _ => (left_mirror (grouped_mirror library left right)).mem_iff
  have rights : left.free ((grouped library right left).filterMap Row.right)
      = left.free ((grouped library left right).filterMap Row.left) :=
    left.free_congr fun _ => (right_mirror (grouped_mirror library left right)).mem_iff
  have turned : fits right left = fun b a => fits left right a b := by
    funext b a
    exact Value.eq_comm _ _
  rw [changed, changed, Bool.and_comm, lefts, rights, turned]
  split
  · exact FirstFit.pairs_swap _ _
  · rfl

theorem matched_mirror (left right : Build) :
    (matched library right left).Perm ((matched library left right).map Row.mirror) := by
  rw [matched, matched, List.map_append, List.map_map]
  refine (grouped_mirror library left right).append ?_
  have pairs := (changed_mirror library left right).map fun pair => changedRow pair.1 pair.2
  rw [List.map_map] at pairs
  exact pairs

theorem rows_mirror (left right : Build) :
    (rows library right left).Perm ((rows library left right).map Row.mirror) := by
  have both := matched_mirror library left right
  have lefts : right.places.filter (· ∉ (matched library right left).filterMap Row.left)
      = right.places.filter (· ∉ (matched library left right).filterMap Row.right) := by
    exact List.filter_congr fun _ _ => decide_eq_decide.2 (not_congr (left_mirror both).mem_iff)
  have rights : left.places.filter (· ∉ (matched library right left).filterMap Row.right)
      = left.places.filter (· ∉ (matched library left right).filterMap Row.left) := by
    exact List.filter_congr fun _ _ => decide_eq_decide.2 (not_congr (right_mirror both).mem_iff)
  rw [rows_eq, rows_eq, lefts, rights, List.map_append, List.map_append, List.map_map, List.map_map,
    List.append_assoc, List.append_assoc]
  refine both.append (List.perm_append_comm.trans ?_)
  have leftward : Row.mirror ∘ aloneLeft left = aloneRight left :=
    funext fun index => (aloneRight_mirror left index).symm
  have rightward : Row.mirror ∘ aloneRight right = aloneLeft right :=
    funext fun index => (aloneLeft_mirror right index).symm
  rw [leftward, rightward]

/-! ## Partition -/

theorem filter_used_perm {places used : List Nat} (distinct : places.Nodup) (unique : used.Nodup)
    (inside : ∀ index ∈ used, index ∈ places) :
    (used ++ places.filter (· ∉ used)).Perm places := by
  have apart : (used ++ places.filter (· ∉ used)).Nodup := by
    refine List.nodup_append'.2 ⟨unique, distinct.filter _, fun index taken free => ?_⟩
    simp [taken] at free
  rw [List.perm_ext_iff_of_nodup apart distinct]
  intro index
  by_cases taken : index ∈ used
  · simp [taken, inside index taken]
  · simp [taken]

/-- A shape uses all its left handlers or none. -/
theorem shapeRows_left (left right : Build) (entry : String × List Nat × List Nat) :
    (shapeRows left right entry).filterMap Row.left = entry.2.1
      ∨ (shapeRows left right entry).filterMap Row.left = [] := by
  obtain ⟨shape, lefts, rights⟩ := entry
  rw [shapeRows]
  dsimp only
  split
  · rename_i one
    obtain ⟨a, rfl⟩ := List.length_eq_one_iff.1 one.1
    exact .inl rfl
  · split
    · refine .inl ?_
      rw [List.filterMap_append, List.filterMap_map, List.filterMap_map]
      have own : Row.left ∘ ambiguousLeft shape = some := rfl
      have none : Row.left ∘ ambiguousRight shape = fun _ => none := rfl
      rw [own, none, List.filterMap_some, List.filterMap_none, List.append_nil]
    · exact .inr rfl

theorem mem_ofShape {build : Build} {shape : String} {index : Nat} :
    index ∈ build.ofShape library shape
      ↔ index ∈ build.places ∧ build.shape library index = some shape := by
  rw [Build.ofShape, List.mem_filter, decide_eq_true_iff]

theorem mem_grouped_left {left right : Build} {entry : String × List Nat × List Nat}
    (known : entry ∈ (shapes library left right).entries) {index : Nat}
    (used : index ∈ (shapeRows left right entry).filterMap Row.left) :
    index ∈ left.ofShape library entry.1 := by
  have value := ((mem_shapes library).1 known).2
  rcases shapeRows_left left right entry with all | none
  · rwa [all, value] at used
  · rw [none] at used
    cases used

theorem grouped_left_nodup (left right : Build) :
    ((grouped library left right).filterMap Row.left).Nodup := by
  rw [grouped, List.filterMap_flatMap, List.nodup_flatMap]
  constructor
  · intro entry known
    have value := ((mem_shapes library).1 known).2
    rcases shapeRows_left left right entry with all | none
    · rw [all, value]
      exact List.nodup_range.filter _
    · rw [none]
      exact List.nodup_nil
  · refine List.Pairwise.imp_of_mem ?_ (shapes library left right).sorted
    intro entry other known known' before index used used'
    have own := ((mem_ofShape library).1 (mem_grouped_left library known used)).2
    have others := ((mem_ofShape library).1 (mem_grouped_left library known' used')).2
    rw [own] at others
    exact before.ne (Option.some.inj others)

theorem matched_left (left right : Build) :
    (matched library left right).filterMap Row.left
      = (grouped library left right).filterMap Row.left
        ++ (changed library left right).map Prod.fst := by
  rw [matched, List.filterMap_append, List.filterMap_map]
  have firsts : (Row.left ∘ fun pair : Nat × Nat => changedRow pair.1 pair.2)
      = some ∘ Prod.fst := rfl
  rw [firsts, List.filterMap_eq_map]

theorem changed_left_sublist (left right : Build) :
    ((changed library left right).map Prod.fst).Sublist
      (left.free ((grouped library left right).filterMap Row.left)) := by
  rw [changed]
  split
  · exact FirstFit.pairs_left_sublist _ _
  · exact List.nil_sublist _

theorem mem_free {build : Build} {used : List Nat} {index : Nat} (free : index ∈ build.free used) :
    index ∈ build.places ∧ index ∉ used := by
  rw [Build.free, List.mem_filter, Bool.and_eq_true, decide_eq_true_iff] at free
  exact ⟨free.1, free.2.1⟩

theorem matched_left_used (left right : Build) :
    ((matched library left right).filterMap Row.left).Nodup
      ∧ ∀ index ∈ (matched library left right).filterMap Row.left, index ∈ left.places := by
  have chosen := changed_left_sublist library left right
  rw [matched_left]
  constructor
  · refine List.nodup_append'.2 ⟨grouped_left_nodup library left right,
      chosen.nodup (List.nodup_range.filter _), fun index used later => ?_⟩
    exact (mem_free (chosen.subset later)).2 used
  · intro index used
    rcases List.mem_append.1 used with shaped | later
    · rw [grouped, List.filterMap_flatMap, List.mem_flatMap] at shaped
      obtain ⟨entry, known, used⟩ := shaped
      exact ((mem_ofShape library).1 (mem_grouped_left library known used)).1
    · exact (mem_free (chosen.subset later)).1

/-- Every left handler is in one row. -/
theorem rows_left (left right : Build) :
    ((rows library left right).filterMap Row.left).Perm left.places := by
  obtain ⟨unique, inside⟩ := matched_left_used library left right
  have own : Row.left ∘ aloneLeft left = some := rfl
  have none : Row.left ∘ aloneRight right = fun _ => none := rfl
  rw [rows_eq, List.filterMap_append, List.filterMap_append, List.filterMap_map, List.filterMap_map,
    own, none, List.filterMap_some, List.filterMap_none, List.append_nil]
  exact filter_used_perm List.nodup_range unique inside

theorem rows_right (left right : Build) :
    ((rows library left right).filterMap Row.right).Perm right.places :=
  (left_mirror (rows_mirror library left right)).symm.trans (rows_left library right left)

/-! ## Exact shapes -/

/-- The row's handlers have one shape, and no other handler has it. -/
def UniqueShape (left right : Build) (row : Row) : Prop :=
  ∃ a b shape, row.left = some a ∧ row.right = some b ∧ row.shape = some shape
    ∧ (a ∈ left.places
      ∧ ∀ i ∈ left.places, effectShape library (left.handler i) = some shape ↔ i = a)
    ∧ b ∈ right.places
      ∧ ∀ i ∈ right.places, effectShape library (right.handler i) = some shape ↔ i = b

/-- A shape that occurs once in the grouping occurs once. -/
theorem unique_of_ofShape {build : Build} {shape : String} {a : Nat}
    (one : build.ofShape library shape = [a]) :
    a ∈ build.places ∧ ∀ i ∈ build.places,
      effectShape library (build.handler i) = some shape ↔ i = a := by
  have known : a ∈ build.ofShape library shape := one ▸ List.mem_singleton_self a
  obtain ⟨place, found⟩ := (mem_ofShape library).1 known
  have comparable : build.comparable = true := by
    rw [Build.shape] at found
    split at found
    · assumption
    · cases found
  refine ⟨place, fun i inside => ?_⟩
  have member := @mem_ofShape library build shape i
  rw [one, List.mem_singleton, and_iff_right inside, Build.shape, if_pos comparable] at member
  exact member.symm

theorem rows_unique {left right : Build} {row : Row} (made : row ∈ rows library left right)
    (sides : row.left.isSome ∧ row.right.isSome)
    (status : row.status = "unchanged" ∨ row.status = "moved") :
    UniqueShape library left right row := by
  rw [rows_eq, List.mem_append, List.mem_append] at made
  rcases made with (made | alone) | alone
  · rw [matched, List.mem_append, grouped, List.mem_flatMap] at made
    rcases made with ⟨⟨shape, lefts, rights⟩, known, made⟩ | made
    · have value := ((mem_shapes library).1 known).2
      rw [shapeRows] at made
      dsimp only at made value
      split at made
      · rename_i one
        obtain ⟨a, rfl⟩ := List.length_eq_one_iff.1 one.1
        obtain ⟨b, rfl⟩ := List.length_eq_one_iff.1 one.2
        obtain ⟨lefts, rights⟩ := Prod.ext_iff.1 value
        rw [List.mem_singleton.1 made]
        exact ⟨a, b, shape, rfl, rfl, rfl, unique_of_ofShape library lefts.symm,
          unique_of_ofShape library rights.symm⟩
      · split at made
        · rcases List.mem_append.1 made with made | made
          · obtain ⟨index, -, rfl⟩ := List.mem_map.1 made
            cases sides.2
          · obtain ⟨index, -, rfl⟩ := List.mem_map.1 made
            cases sides.1
        · cases made
    · obtain ⟨pair, -, rfl⟩ := List.mem_map.1 made
      rcases status with status | status
      · exact absurd (show "changed" = "unchanged" from status) (by decide)
      · exact absurd (show "changed" = "moved" from status) (by decide)
  · obtain ⟨index, -, rfl⟩ := List.mem_map.1 alone
    cases sides.2
  · obtain ⟨index, -, rfl⟩ := List.mem_map.1 alone
    cases sides.1

/-! ## Reports -/

/-- The report as it is written. -/
def signed (report : Value) : Value :=
  (report.set "document_digest" (.string (digest library report))).getD report

theorem finish_cases (report : Value) :
    finish library report = .error "VM report exceeds 32 MiB; no partial report was produced"
      ∨ finish library report = .ok (signed library report) := by
  rw [finish]
  split
  · exact .inl rfl
  · exact .inr rfl

theorem signed_rows (pack left right leftWorkspace rightWorkspace : Value) (family : String) :
    (signed library (reportOf library pack left right leftWorkspace rightWorkspace family)).get "rows"
      = .array ((sortedRows library (.of leftWorkspace) (.of rightWorkspace)).map
        (Row.value (.of leftWorkspace) (.of rightWorkspace))) := by
  have some : (reportOf library pack left right leftWorkspace rightWorkspace family).get "rows"
      = .array ((sortedRows library (.of leftWorkspace) (.of rightWorkspace)).map
        (Row.value (.of leftWorkspace) (.of rightWorkspace))) := rfl
  rw [signed, ← some]
  exact Value.get_set_of_ne (by decide)

/-- Documents that are compared: the checks they pass and the workspaces they select. -/
structure Compared (pack left : Value) (leftArtifact : String) (right : Value)
    (rightArtifact : String) (l r : Value) (programFamily : String) : Prop where
  valid : validatePack library pack = .ok ()
  leftSelected : workspace library left leftArtifact = .ok l
  rightSelected : workspace library right rightArtifact = .ok r
  leftFamily : family pack (l.get "source_artifact_sha256") = .ok programFamily
  rightFamily : family pack (r.get "source_artifact_sha256") = .ok programFamily

theorem Compared.mirror {library : Library} {pack left right l r : Value}
    {leftArtifact rightArtifact programFamily : String}
    (compared : Compared library pack left leftArtifact right rightArtifact l r programFamily) :
    Compared library pack right rightArtifact left leftArtifact r l programFamily :=
  ⟨compared.valid, compared.rightSelected, compared.leftSelected, compared.rightFamily,
    compared.leftFamily⟩

theorem Compared.report {library : Library} {pack left right l r : Value}
    {leftArtifact rightArtifact programFamily : String}
    (compared : Compared library pack left leftArtifact right rightArtifact l r programFamily) :
    compare library pack left leftArtifact right rightArtifact
      = finish library (reportOf library pack left right l r programFamily) := by
  rw [compare, compared.valid, compared.leftSelected, compared.rightSelected]
  simp only [ok_bind, compared.leftFamily, compared.rightFamily, bne_self_eq_false]
  rfl

theorem exists_compared {pack left right report : Value} {leftArtifact rightArtifact : String}
    (accepted : compare library pack left leftArtifact right rightArtifact = .ok report) :
    ∃ l r programFamily,
      Compared library pack left leftArtifact right rightArtifact l r programFamily := by
  rw [compare] at accepted
  simp only [bind_eq_ok, throw_bind, ite_error_eq_ok] at accepted
  obtain ⟨u, valid, l, selected, r, selected', f, bound, f', bound', same, -⟩ := accepted
  have same : f = f' := by simpa using same
  exact ⟨l, r, f, valid, selected, selected', bound, same ▸ bound'⟩

/-- What `compare` reports of two documents that it accepts: every handler in one row of its
side, only exact shapes unchanged or moved, and the sides exchanged when the documents are.
Exchanged, the report can only be too large: `right-only` is longer than `left-only`. -/
theorem compare_partitions_mirrors {pack left right report : Value}
    {leftArtifact rightArtifact : String}
    (accepted : compare library pack left leftArtifact right rightArtifact = .ok report) :
    ∃ (l r : Value) (rows : List Row),
      workspace library left leftArtifact = .ok l ∧ workspace library right rightArtifact = .ok r
      ∧ report.get "rows" = .array (rows.map (Row.value (.of l) (.of r)))
      ∧ (rows.filterMap Row.left).Perm (List.range (items (l.get "handlers")).length)
      ∧ (rows.filterMap Row.right).Perm (List.range (items (r.get "handlers")).length)
      ∧ (∀ row ∈ rows, row.left.isSome ∧ row.right.isSome →
          (row.status = "unchanged" ∨ row.status = "moved") →
            UniqueShape library (.of l) (.of r) row)
      ∧ (compare library pack right rightArtifact left leftArtifact
          = .error "VM report exceeds 32 MiB; no partial report was produced"
        ∨ ∃ (mirrored : Value) (others : List Row),
            compare library pack right rightArtifact left leftArtifact = .ok mirrored
            ∧ mirrored.get "rows" = .array (others.map (Row.value (.of r) (.of l)))
            ∧ others.Perm (rows.map Row.mirror)) := by
  obtain ⟨l, r, programFamily, compared⟩ := exists_compared library accepted
  have sort (left right : Build) : (sortedRows library left right).Perm (rows library left right) :=
    List.mergeSort_perm _ _
  have order := sort (.of l) (.of r)
  have report_eq : report = signed library (reportOf library pack left right l r programFamily) := by
    rw [compared.report] at accepted
    rcases finish_cases library (reportOf library pack left right l r programFamily) with large | ok
    · rw [accepted] at large
      cases large
    · rw [accepted] at ok
      exact Except.ok.inj ok
  refine ⟨l, r, sortedRows library (.of l) (.of r), compared.leftSelected, compared.rightSelected, ?_,
    (order.filterMap _).trans (rows_left library _ _),
    (order.filterMap _).trans (rows_right library _ _),
    fun row made => rows_unique library (order.mem_iff.1 made), ?_⟩
  · rw [report_eq, signed_rows]
  · rcases finish_cases library (reportOf library pack right left r l programFamily) with large | ok
    · exact .inl (compared.mirror.report.trans large)
    · refine .inr ⟨_, sortedRows library (.of r) (.of l), compared.mirror.report.trans ok,
        signed_rows .., ?_⟩
      exact (sort (.of r) (.of l)).trans ((rows_mirror library _ _).trans (order.symm.map _))

end Shapes

/-! ## A comparison -/

mutual

/-- The compact text of a value without floats and without characters to escape. -/
def sampleText : Value → List Char
  | .null => ['n', 'u', 'l', 'l']
  | .bool true => ['t', 'r', 'u', 'e']
  | .bool false => ['f', 'a', 'l', 's', 'e']
  | .number (.posInt value) => Nat.toDigits 10 value.toNat
  | .number (.negInt value) => '-' :: Nat.toDigits 10 value.natAbs
  | .number (.float _) => []
  | .string value => '"' :: value.toList ++ ['"']
  | .array values => '[' :: sampleTexts values ++ [']']
  | .object members => '{' :: sampleMembers members ++ ['}']

def sampleTexts : List Value → List Char
  | [] => []
  | [value] => sampleText value
  | value :: values => sampleText value ++ ',' :: sampleTexts values

def sampleMembers : List (String × Value) → List Char
  | [] => []
  | [(name, value)] => '"' :: name.toList ++ '"' :: ':' :: sampleText value
  | (name, value) :: members =>
      '"' :: name.toList ++ '"' :: ':' :: sampleText value ++ ',' :: sampleMembers members

end

def sampleSource : Value :=
  .string "1111111111111111111111111111111111111111111111111111111111111111"

def samplePack : Value :=
  .object [("contract_version", .nat 1), ("document_kind", .string "vm-analysis-pack"),
    ("families", .array [.object [("program_family", .string "owned"),
      ("source_artifact_sha256", sampleSource)]]),
    ("pack_id", .string "owned"), ("rules", .array []), ("version", .string "1.0.0")]

def sampleEffect : Value :=
  .object [("atomic_group", .null), ("effect_id", .string "stop"),
    ("evidence_class", .string "observed"),
    ("flow", .object [("kind", .string "halt"), ("target_offset", .null),
      ("target_operand", .null)]),
    ("instruction_size", .nat 1), ("operand_layout", .array []), ("operation", .string "halt"),
    ("reads", .array []), ("superoperator", .null), ("writes", .array [])]

def sampleHandler : Value :=
  .object [("effects", .array [sampleEffect]), ("notes", .string ""), ("opcode", .nat 2),
    ("operand_width", .nat 0), ("sample_count", .nat 0),
    ("source", .object [("byte_offset", .nat 4), ("byte_size", .nat 9)]),
    ("state", .string "observed")]

def sampleWorkspace : Value :=
  .object [("capture_mode", .string "unknown"),
    ("coverage", .object [("attributions", .array []), ("characterized_bytes", .nat 0),
      ("complete", .bool false), ("handler_count", .nat 1), ("omissions", .array []),
      ("retained_snapshot_bytes", .nat 0), ("uncharacterized_bytes", .nat 0)]),
    ("finding_id", .string "222222222222222222222222"), ("handlers", .array [sampleHandler]),
    ("interpreter_artifact_id", .string "1"), ("model", .string "stack"),
    ("runtime", .string "javascript"), ("sample_count", .nat 0), ("samples", .array []),
    ("snapshots", .array []), ("source_artifact_sha256", sampleSource),
    ("traversal", .object [("complete", .bool false), ("edges", .array []),
      ("entry_offsets", .array []), ("frontier", .array []), ("instructions", .array [])]),
    ("unknowns", .array [])]

def sampleDocument : Value :=
  .object [
    ("analysis_digest", .string "4444444444444444444444444444444444444444444444444444444444444444"),
    ("capture_mode", .string "unknown"), ("contract_version", .nat 2),
    ("document_digest", .string "6e061a7aa8ff0ec5c8b13afed4a90624e2bbbb4736c06b804e3f1c873149afb9"),
    ("document_kind", .string "vm-opcode-workspace"),
    ("inputs", .object [("artifact_manifest_digest", .null), ("capture_provenance_digest", .null),
      ("event_store_digest", .null)]),
    ("producer", .object [("id", .string "origin-trace-vm-opcode"), ("version", .string "2.0.0")]),
    ("profile_digest", .string "3333333333333333333333333333333333333333333333333333333333333333"),
    ("summary", .object [("handler_count", .nat 1), ("sample_count", .nat 0),
      ("snapshot_count", .nat 0), ("unknown_count", .nat 0), ("workspace_count", .nat 1)]),
    ("workspaces", .array [sampleWorkspace])]

/-- The digests of the texts that are met here: the document, the effect, the pack and the
report have different lengths. -/
def sampleDigests : List (Nat × List UInt8) :=
  [(1458, [0x6e, 0x06, 0x1a, 0x7a, 0xa8, 0xff, 0x0e, 0xc5, 0xc8, 0xb1, 0x3a, 0xfe, 0xd4, 0xa9, 0x06,
      0x24, 0xe2, 0xbb, 0xbb, 0x47, 0x36, 0xc0, 0x6b, 0x80, 0x4e, 0x3f, 0x1c, 0x87, 0x31, 0x49,
      0xaf, 0xb9]),
    (191, [0x14, 0x7d, 0x13, 0x71, 0x0b, 0x09, 0x42, 0xe5, 0x93, 0xc2, 0x9d, 0x9a, 0x78, 0x70, 0x8d,
      0x65, 0x28, 0x77, 0x8b, 0x5f, 0x13, 0x32, 0xba, 0x48, 0x7d, 0xdc, 0xfb, 0xc0, 0xd0, 0x35,
      0x44, 0xdb]),
    (236, [0xfc, 0xa4, 0x52, 0x0c, 0x24, 0xaf, 0x9b, 0x40, 0xcf, 0xd2, 0xe4, 0x0d, 0x94, 0xd6, 0xe0,
      0xd6, 0x14, 0x6f, 0xa5, 0x25, 0x76, 0x36, 0xf9, 0x0e, 0x3e, 0xb4, 0xec, 0x6b, 0x6a, 0x0a,
      0x60, 0x62]),
    (2207, [0xba, 0x0d, 0xa0, 0x4c, 0x29, 0xc6, 0xe9, 0xff, 0x79, 0xcc, 0x70, 0xf0, 0x06, 0xcc, 0xea,
      0x2c, 0x2d, 0xdf, 0x64, 0x39, 0x15, 0xf2, 0x5a, 0x98, 0xb7, 0x16, 0xee, 0xff, 0xfa, 0x5e,
      0x6e, 0xc8])]

def sampleLibrary : Library where
  toString := sampleText
  fromSlice bytes :=
    if bytes = (sampleText samplePack).flatMap String.utf8EncodeChar then some samplePack
    else if bytes = (sampleText sampleDocument).flatMap String.utf8EncodeChar then
      some sampleDocument
    else none
  sha256 bytes := (sampleDigests.lookup bytes.length).getD []
  isAlphanumeric := Char.isAlphanum
  packSchema _ := true
  workspaceSchema _ := true

theorem sample_accepted :
    (compare sampleLibrary samplePack sampleDocument "1" sampleDocument "1").isOk = true := by
  decide +kernel

theorem compare_partitions_mirrors_sample :
    ∃ report, compare sampleLibrary samplePack sampleDocument "1" sampleDocument "1" = .ok report
      ∧ ∃ (l r : Value) (rows : List Row),
        workspace sampleLibrary sampleDocument "1" = .ok l
        ∧ workspace sampleLibrary sampleDocument "1" = .ok r
        ∧ report.get "rows" = .array (rows.map (Row.value (.of l) (.of r)))
        ∧ (rows.filterMap Row.left).Perm (List.range (items (l.get "handlers")).length)
        ∧ (rows.filterMap Row.right).Perm (List.range (items (r.get "handlers")).length)
        ∧ (∀ row ∈ rows, row.left.isSome ∧ row.right.isSome →
            (row.status = "unchanged" ∨ row.status = "moved") →
              UniqueShape sampleLibrary (.of l) (.of r) row)
        ∧ (compare sampleLibrary samplePack sampleDocument "1" sampleDocument "1"
            = .error "VM report exceeds 32 MiB; no partial report was produced"
          ∨ ∃ (mirrored : Value) (others : List Row),
              compare sampleLibrary samplePack sampleDocument "1" sampleDocument "1" = .ok mirrored
              ∧ mirrored.get "rows" = .array (others.map (Row.value (.of r) (.of l)))
              ∧ others.Perm (rows.map Row.mirror)) := by
  cases accepted : compare sampleLibrary samplePack sampleDocument "1" sampleDocument "1" with
  | error message =>
      have refused := sample_accepted
      rw [accepted] at refused
      cases refused
  | ok report =>
      have result := compare_partitions_mirrors sampleLibrary accepted
      rw [accepted] at result
      exact ⟨report, rfl, result⟩

end Reb.Backend.VmPack
