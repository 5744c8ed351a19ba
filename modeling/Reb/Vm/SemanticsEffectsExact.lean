/-
# Vm.SemanticsEffectsExact -- the listed changes lead from one state to the other

`reading` is what a state has at a location.  Both listings hold exactly the locations whose
readings differ, in the order of `locationOrder`; `apply` carries a change out, and all
changes of a step carried out on the state before it give the state after it.
-/
import Reb.Vm.SemanticsEffects

namespace Reb.Vm.Semantics

open Reb.Theory
open Reb.Theory.Js

set_option autoImplicit false

/-! ## The order of locations -/

namespace Location

def space : Location → Nat
  | .pc => 0
  | .halted => 1
  | .registers _ => 2
  | .stack _ => 3
  | .memory _ => 4

def index : Location → Nat
  | .pc | .halted => 0
  | .registers i | .stack i | .memory i => i

/-- By name space, then by index. -/
def Before (a b : Location) : Prop := a.space < b.space ∨ (a.space = b.space ∧ a.index < b.index)

theorem ext_iff {a b : Location} : a = b ↔ a.space = b.space ∧ a.index = b.index := by
  cases a <;> cases b <;> simp [space, index]

theorem before_or_eq {a b : Location} : ¬ b.Before a ↔ a.Before b ∨ a = b := by
  rw [ext_iff, Before, Before]
  omega

end Location

theorem split_append {name rest : Text} (plain : 58 ∉ name) (plain' : 58 ∉ rest) :
    split (name ++ 58 :: rest) = (name, some rest) := by
  have front : ∀ unit ∈ name, (unit != 58) = true := by
    intro unit member
    simpa using fun same : unit = 58 => plain (same ▸ member)
  have back : ∀ unit ∈ rest, (unit != 58) = true := by
    intro unit member
    simpa using fun same : unit = 58 => plain' (same ▸ member)
  have dropped : (name ++ 58 :: rest).dropWhile (· != 58) = 58 :: rest := by
    rw [List.dropWhile_append_of_pos front]
    simp
  have taken : (name ++ 58 :: rest).takeWhile (· != 58) = name := by
    rw [List.takeWhile_append_of_pos front]
    simp
  rw [split, dropped]
  simp [taken, List.takeWhile_eq_self_iff.2 back]

theorem notMem_digits (n : Nat) : 58 ∉ digits n := by
  intro member
  obtain ⟨byte, member, same⟩ := List.mem_map.1 member
  have digit := Decimal.isDigit_iff.1 (Decimal.decimal_digits n byte member)
  have value : byte.toNat = 58 := by simpa using congrArg UInt16.toNat same
  omega

theorem number_digits (n : Nat) : number (digits n) = n := by
  have same : (digits n).map UInt16.toUInt8 = Decimal.decimal n := by
    simp [digits, Function.comp_def]
  rw [number, same, Decimal.positional_decimal]

theorem indexOf_registers : indexOf (units "registers") = 2 := by decide +kernel

theorem indexOf_stack : indexOf (units "stack") = 3 := by decide +kernel

theorem indexOf_memory : indexOf (units "memory") = 4 := by decide +kernel

/-- A key read back: its name space and its index. -/
theorem split_text (l : Location) :
    indexOf (split l.text).1 = l.space ∧ (split l.text).2.elim 0 number = l.index := by
  cases l with
  | pc => decide +kernel
  | halted => decide +kernel
  | registers i =>
      rw [Location.text, split_append (by decide +kernel) (notMem_digits i)]
      exact ⟨indexOf_registers, number_digits i⟩
  | stack i =>
      rw [Location.text, split_append (by decide +kernel) (notMem_digits i)]
      exact ⟨indexOf_stack, number_digits i⟩
  | memory i =>
      rw [Location.text, split_append (by decide +kernel) (notMem_digits i)]
      exact ⟨indexOf_memory, number_digits i⟩

theorem locationOrder_text (a b : Location) :
    locationOrder a.text b.text ≤ 0 ↔ ¬ b.Before a := by
  obtain ⟨spaceA, indexA⟩ := split_text a
  obtain ⟨spaceB, indexB⟩ := split_text b
  simp only [locationOrder, spaceA, indexA, spaceB, indexB, Location.Before]
  split_ifs with other <;> omega

/-! ## What a state has at a location -/

def reading (s : State) : Location → Option Datum
  | .pc => some (.number s.pc)
  | .halted => some (.boolean s.halted)
  | .registers i => s.registers[i]?.map Cell.datum
  | .stack i => s.stack[i]?.map Cell.datum
  | .memory a => (JsMap.get s.memory a).map Cell.datum

theorem Valid.distinct {s : State} (valid : Valid s) : (s.memory.map Prod.fst).Nodup :=
  (List.pairwise_map.2 valid.sorted).imp Nat.ne_of_lt

theorem get_memory {s : State} (valid : Valid s) (a : Nat) :
    JsMap.get (JsMap.ofEntries s.memory) a = JsMap.get s.memory a :=
  JsMap.get_ofEntries_of_nodup valid.distinct a

/-- The map of a snapshot's cells is its reading. -/
theorem get_snapshotCells {s : State} (valid : Valid s) (l : Location) :
    JsMap.get (snapshotCells s) l = (reading s l).map (Shown.mk true) := by
  refine @JsMap.get_ofEntries _ _ _ (snapshotEntries s)
    (fun l => (reading s l).map (Shown.mk true)) ?_ ?_ l
  · intro entry member
    simp only [snapshotEntries, List.cons_append, List.nil_append, List.mem_cons, List.mem_append,
      List.mem_mapIdx, List.mem_map] at member
    rcases member with rfl | rfl | (⟨i, inside, rfl⟩ | ⟨i, inside, rfl⟩) | ⟨row, member, rfl⟩
    · rfl
    · rfl
    · simp [reading, inside]
    · simp [reading, inside]
    · simp [reading, JsMap.get_of_mem valid.distinct member]
  · intro l shown read
    obtain ⟨datum, known, rfl⟩ := Option.map_eq_some_iff.1 read
    cases l with
    | pc =>
        cases known
        simp [snapshotEntries]
    | halted =>
        cases known
        simp [snapshotEntries]
    | registers i =>
        obtain ⟨cell, found, rfl⟩ := Option.map_eq_some_iff.1 known
        obtain ⟨inside, rfl⟩ := List.getElem?_eq_some_iff.1 found
        simp [snapshotEntries, List.mem_mapIdx, inside]
    | stack i =>
        obtain ⟨cell, found, rfl⟩ := Option.map_eq_some_iff.1 known
        obtain ⟨inside, rfl⟩ := List.getElem?_eq_some_iff.1 found
        simp [snapshotEntries, List.mem_mapIdx, inside]
    | memory a =>
        obtain ⟨cell, found, rfl⟩ := Option.map_eq_some_iff.1 known
        have member := JsMap.mem_of_get found
        simp only [snapshotEntries, List.mem_append, List.mem_map]
        exact .inr ⟨(a, cell), member, rfl⟩

/-! ## Marked cells -/

theorem changed_iff {before after : State} (validBefore : Valid before) (validAfter : Valid after)
    (l : Location) :
    changed (cellAt (snapshotCells before) l) (cellAt (snapshotCells after) l) = true
      ↔ reading before l ≠ reading after l := by
  rw [cellAt, cellAt, get_snapshotCells validBefore, get_snapshotCells validAfter]
  cases reading before l <;> cases reading after l <;> simp [changed]

theorem mem_snapshotCells {s : State} (valid : Valid s) {l : Location} :
    l ∈ (snapshotCells s).map Prod.fst ↔ (reading s l).isSome := by
  rw [← JsMap.get_isSome, get_snapshotCells valid, Option.isSome_map]

theorem map_location_stepCells (s : Step) :
    (stepCells s).map (·.location)
      = (JsMap.unique ((snapshotCells s.before).map Prod.fst
        ++ (snapshotCells s.after).map Prod.fst)).insertionSort
          fun a b => locationOrder a.text b.text ≤ 0 := by
  rw [stepCells, List.map_map]
  exact List.map_id _

/-- The marked cells are where the readings differ. -/
theorem mem_marked {s : Step} (validBefore : Valid s.before) (validAfter : Valid s.after)
    {l : Location} :
    l ∈ ((stepCells s).filter (·.changed)).map (·.location)
      ↔ reading s.before l ≠ reading s.after l := by
  rw [← changed_iff validBefore validAfter]
  simp only [stepCells, List.mem_map, List.mem_filter]
  constructor
  · rintro ⟨_, ⟨⟨l, -, rfl⟩, marked⟩, rfl⟩
    exact marked
  · intro marked
    refine ⟨_, ⟨⟨l, ?_, rfl⟩, marked⟩, rfl⟩
    rw [changed_iff validBefore validAfter] at marked
    rw [List.mem_insertionSort, JsMap.mem_unique, List.mem_append, mem_snapshotCells validBefore,
      mem_snapshotCells validAfter]
    cases before : reading s.before l with
    | some datum => exact .inl rfl
    | none =>
        cases after : reading s.after l with
        | some datum => exact .inr rfl
        | none => exact absurd (before.trans after.symm) marked

theorem sorted_marked (s : Step) :
    (((stepCells s).filter (·.changed)).map (·.location)).Pairwise Location.Before := by
  refine List.Pairwise.sublist (List.Sublist.map _ List.filter_sublist) ?_
  rw [map_location_stepCells]
  have total : Std.Total fun a b : Location => locationOrder a.text b.text ≤ 0 := by
    constructor
    intro a b
    rw [locationOrder_text, locationOrder_text, Location.Before, Location.Before]
    omega
  have trans : IsTrans _ fun a b : Location => locationOrder a.text b.text ≤ 0 := by
    constructor
    intro a b c first second
    rw [locationOrder_text, Location.Before] at *
    omega
  have order := List.pairwise_insertionSort
    (fun a b : Location => locationOrder a.text b.text ≤ 0)
    (JsMap.unique ((snapshotCells s.before).map Prod.fst ++ (snapshotCells s.after).map Prod.fst))
  have distinct := (List.perm_insertionSort
    (fun a b : Location => locationOrder a.text b.text ≤ 0) _).nodup_iff.2 (JsMap.unique_nodup
      ((snapshotCells s.before).map Prod.fst ++ (snapshotCells s.after).map Prod.fst))
  refine (order.and distinct).imp fun both => ?_
  rw [locationOrder_text, Location.before_or_eq] at both
  exact both.1.resolve_right both.2

/-! ## Listed changes -/

theorem filterMap_ite {α β : Type} (p : α → Prop) [DecidablePred p] (f : α → β) (l : List α) :
    l.filterMap (fun a => if p a then some (f a) else none) = (l.filter p).map f := by
  induction l with
  | nil => rfl
  | cons a l ih =>
      rw [List.filterMap_cons, ih]
      by_cases holds : p a <;> simp [holds]

/-- The addresses of two memories, increasing. -/
def addresses (before after : List (Nat × Cell)) : List Nat :=
  (JsMap.unique ((JsMap.ofEntries before).map Prod.fst
    ++ (JsMap.ofEntries after).map Prod.fst)).insertionSort (· ≤ ·)

theorem addresses_sorted (before after : List (Nat × Cell)) :
    (addresses before after).Pairwise (· < ·) := by
  have order := List.pairwise_insertionSort (α := Nat) (· ≤ ·)
    (JsMap.unique ((JsMap.ofEntries before).map Prod.fst ++ (JsMap.ofEntries after).map Prod.fst))
  have distinct := (List.perm_insertionSort (α := Nat) (· ≤ ·) _).nodup_iff.2 (JsMap.unique_nodup
    ((JsMap.ofEntries before).map Prod.fst ++ (JsMap.ofEntries after).map Prod.fst))
  exact (order.and distinct).imp fun both => Nat.lt_of_le_of_ne both.1 both.2

theorem mem_addresses {before after : List (Nat × Cell)} {a : Nat} :
    a ∈ addresses before after ↔ a ∈ before.map Prod.fst ∨ a ∈ after.map Prod.fst := by
  rw [addresses, List.mem_insertionSort, JsMap.mem_unique, List.mem_append,
    JsMap.mem_keys_ofEntries, JsMap.mem_keys_ofEntries]

theorem mem_addresses_of_ne {before after : List (Nat × Cell)} {a : Nat}
    (other : JsMap.get before a ≠ JsMap.get after a) : a ∈ addresses before after := by
  rw [mem_addresses, ← JsMap.get_isSome, ← JsMap.get_isSome]
  by_contra absent
  rw [not_or, Option.not_isSome_iff_eq_none, Option.not_isSome_iff_eq_none] at absent
  exact other (absent.1.trans absent.2.symm)

/-- A change of the memory at an address. -/
def memoryChange (before after : List (Nat × Cell)) (a : Nat) : Change :=
  { location := .memory a
    before := ((JsMap.get before a).map Cell.datum).getD .null
    after := ((JsMap.get after a).map Cell.datum).getD .null
    before_present := some (JsMap.get before a).isSome
    after_present := some (JsMap.get after a).isSome }

theorem memoryChanges_eq {before after : State} (validBefore : Valid before)
    (validAfter : Valid after) :
    memoryChanges before.memory after.memory
      = ((addresses before.memory after.memory).filter
        fun a => JsMap.get before.memory a ≠ JsMap.get after.memory a).map
          (memoryChange before.memory after.memory) := by
  rw [memoryChanges]
  simp only [get_memory validBefore, get_memory validAfter]
  rw [filterMap_ite, addresses]
  have same : ∀ a, ((JsMap.get before.memory a).isSome ≠ (JsMap.get after.memory a).isSome
      ∨ JsMap.get before.memory a ≠ JsMap.get after.memory a)
        ↔ JsMap.get before.memory a ≠ JsMap.get after.memory a := by
    intro a
    refine or_iff_right_of_imp fun apart equal => apart (by rw [equal])
  simp only [same]
  rfl

/-- A change of an array at an index. -/
def arrayChange (location : Nat → Location) (before after : List Cell) (i : Nat) : Change :=
  { location := location i
    before := (before[i]?.map Cell.datum).getD .null
    after := (after[i]?.map Cell.datum).getD .null
    before_present := some (i < before.length)
    after_present := some (i < after.length) }

theorem arrayChanges_eq (location : Nat → Location) (before after : List Cell) :
    arrayChanges location before after
      = ((List.range (max before.length after.length)).filter fun i => before[i]? ≠ after[i]?).map
        (arrayChange location before after) := by
  rw [arrayChanges, filterMap_ite]
  rfl

theorem mem_scalar {c : Prop} [Decidable c] {change : Change} {l : Location} :
    l ∈ (if c then [change] else []).map (·.location) ↔ c ∧ l = change.location := by
  split_ifs with holds <;> simp [holds]

theorem mem_arrayChanges {location : Nat → Location} {before after : List Cell} {l : Location} :
    l ∈ (arrayChanges location before after).map (·.location)
      ↔ ∃ i, before[i]? ≠ after[i]? ∧ l = location i := by
  simp only [arrayChanges_eq, List.map_map, List.mem_map, List.mem_filter, List.mem_range,
    decide_eq_true_eq, Function.comp_apply]
  constructor
  · rintro ⟨i, ⟨-, other⟩, rfl⟩
    exact ⟨i, other, rfl⟩
  · rintro ⟨i, other, rfl⟩
    refine ⟨i, ⟨?_, other⟩, rfl⟩
    by_contra beyond
    rw [List.getElem?_eq_none (by omega), List.getElem?_eq_none (by omega)] at other
    exact other rfl

theorem mem_memoryChanges {before after : State} (validBefore : Valid before)
    (validAfter : Valid after) {l : Location} :
    l ∈ (memoryChanges before.memory after.memory).map (·.location)
      ↔ ∃ a, JsMap.get before.memory a ≠ JsMap.get after.memory a ∧ l = .memory a := by
  simp only [memoryChanges_eq validBefore validAfter, List.map_map, List.mem_map, List.mem_filter,
    decide_eq_true_eq, Function.comp_apply]
  constructor
  · rintro ⟨a, ⟨-, other⟩, rfl⟩
    exact ⟨a, other, rfl⟩
  · rintro ⟨a, other, rfl⟩
    exact ⟨a, ⟨mem_addresses_of_ne other, other⟩, rfl⟩

theorem datum_injective : Function.Injective Cell.datum := by
  intro a b same
  cases a <;> cases b <;> simp_all [Cell.datum]

/-- The locations that differ, name space by name space. -/
theorem mem_effects {s : Step} (validBefore : Valid s.before) (validAfter : Valid s.after)
    {l : Location} :
    l ∈ (effects s).map (·.location) ↔ reading s.before l ≠ reading s.after l := by
  have cell := Option.map_injective datum_injective
  simp only [effects, List.map_append, List.mem_append, mem_scalar, mem_arrayChanges,
    mem_memoryChanges validBefore validAfter]
  cases l with
  | pc => simp [reading]
  | halted => simp [reading]
  | registers i => simp [reading, cell.eq_iff]
  | stack i => simp [reading, cell.eq_iff]
  | memory a => simp [reading, cell.eq_iff]

theorem sorted_arrayChanges {location : Nat → Location}
    (increases : ∀ i j, i < j → (location i).Before (location j)) (before after : List Cell) :
    ((arrayChanges location before after).map (·.location)).Pairwise Location.Before := by
  rw [arrayChanges_eq, List.map_map, List.pairwise_map]
  exact (List.pairwise_lt_range.filter _).imp fun less => increases _ _ less

theorem sorted_memoryChanges {before after : State} (validBefore : Valid before)
    (validAfter : Valid after) :
    ((memoryChanges before.memory after.memory).map (·.location)).Pairwise Location.Before := by
  rw [memoryChanges_eq validBefore validAfter, List.map_map, List.pairwise_map]
  exact ((addresses_sorted _ _).filter _).imp fun less => .inr ⟨rfl, less⟩

/-- A list of one name space behind a list of lower ones. -/
theorem sorted_append {lower upper : List Location} {n : Nat} (sorted : lower.Pairwise Location.Before)
    (sorted' : upper.Pairwise Location.Before) (below : ∀ l ∈ lower, l.space < n)
    (above : ∀ l ∈ upper, n ≤ l.space) : (lower ++ upper).Pairwise Location.Before := by
  rw [List.pairwise_append]
  exact ⟨sorted, sorted', fun l member l' member' =>
    .inl ((below l member).trans_le (above l' member'))⟩

theorem sorted_effects {s : Step} (validBefore : Valid s.before) (validAfter : Valid s.after) :
    ((effects s).map (·.location)).Pairwise Location.Before := by
  have scalar : ∀ {c : Prop} [Decidable c] {change : Change},
      ((if c then [change] else []).map (·.location)).Pairwise Location.Before := by
    intro c _ change
    split_ifs <;> simp
  have array : ∀ {location : Nat → Location} {k : Nat} {a b : List Cell},
      (∀ i, (location i).space = k) →
        ∀ l ∈ (arrayChanges location a b).map (·.location), l.space = k := by
    intro location k a b spaces l member
    obtain ⟨i, -, rfl⟩ := mem_arrayChanges.1 member
    exact spaces i
  have memory : ∀ l ∈ (memoryChanges s.before.memory s.after.memory).map (·.location),
      l.space = 4 := by
    intro l member
    obtain ⟨a, -, rfl⟩ := (mem_memoryChanges validBefore validAfter).1 member
    rfl
  have registers := @array Location.registers 2 s.before.registers s.after.registers fun _ => rfl
  have stack := @array Location.stack 3 s.before.stack s.after.stack fun _ => rfl
  have registers_lt : ∀ i j, i < j → (Location.registers i).Before (.registers j) :=
    fun _ _ less => .inr ⟨rfl, less⟩
  have stack_lt : ∀ i j, i < j → (Location.stack i).Before (.stack j) :=
    fun _ _ less => .inr ⟨rfl, less⟩
  simp only [effects, List.map_append]
  refine sorted_append (n := 4) (sorted_append (n := 3) (sorted_append (n := 2)
    (sorted_append (n := 1) scalar scalar ?_ ?_) (sorted_arrayChanges registers_lt _ _) ?_ ?_)
    (sorted_arrayChanges stack_lt _ _) ?_ ?_) (sorted_memoryChanges validBefore validAfter) ?_ ?_
  · intro l member
    rw [(mem_scalar.1 member).2]
    simp [Location.space]
  · intro l member
    rw [(mem_scalar.1 member).2]
    simp [Location.space]
  · intro l member
    rw [List.mem_append, mem_scalar, mem_scalar] at member
    rcases member with ⟨-, rfl⟩ | ⟨-, rfl⟩ <;> simp [Location.space]
  · exact fun l member => (registers l member).ge
  · intro l member
    rw [List.mem_append, List.mem_append, mem_scalar, mem_scalar] at member
    rcases member with (⟨-, rfl⟩ | ⟨-, rfl⟩) | member
    · simp [Location.space]
    · simp [Location.space]
    · simp [registers l member]
  · exact fun l member => (stack l member).ge
  · intro l member
    rw [List.mem_append, List.mem_append, List.mem_append, mem_scalar, mem_scalar] at member
    rcases member with ((⟨-, rfl⟩ | ⟨-, rfl⟩) | member) | member
    · simp [Location.space]
    · simp [Location.space]
    · simp [registers l member]
    · simp [stack l member]
  · exact fun l member => (memory l member).ge

/-- Both listings hold the same locations in the same order. -/
theorem effects_marked {s : Step} (validBefore : Valid s.before) (validAfter : Valid s.after) :
    (effects s).map (·.location) = ((stepCells s).filter (·.changed)).map (·.location) := by
  have irreflexive : Std.Irrefl Location.Before := by
    constructor
    intro a
    simp [Location.Before]
  have asymmetric : Std.Asymm Location.Before := by
    constructor
    intro a b
    simp only [Location.Before]
    omega
  refine List.Pairwise.eq_of_mem_iff (sorted_effects validBefore validAfter) (sorted_marked s) ?_
  intro l
  rw [mem_effects validBefore validAfter, mem_marked validBefore validAfter]

/-! ## Changes carried out -/

def Datum.cell : Datum → Cell
  | .number value => some value
  | _ => none

@[simp] theorem cell_datum (cell : Cell) : (Cell.datum cell).cell = cell := by
  cases cell <;> rfl

/-- An array with a cell set, appended or cut off. -/
def place (cells : List Cell) (i : Nat) (present : Bool) (cell : Cell) : List Cell :=
  if present then if i < cells.length then cells.set i cell else cells ++ [cell]
  else cells.take i

/-- A memory with a cell set or taken out. -/
def placeRow (memory : List (Nat × Cell)) (a : Nat) (present : Bool) (cell : Cell) :
    List (Nat × Cell) :=
  let others := memory.filter fun row => row.1 ≠ a
  if present then (others ++ [(a, cell)]).insertionSort fun x y => x.1 ≤ y.1 else others

/-- A listed change carried out on a state. -/
def apply (s : State) (change : Change) : State :=
  let present := change.after_present.getD true
  match change.location, change.after with
  | .pc, .number value => { s with pc := value.toNat }
  | .halted, .boolean value => { s with halted := value }
  | .registers i, value => { s with registers := place s.registers i present value.cell }
  | .stack i, value => { s with stack := place s.stack i present value.cell }
  | .memory a, value => { s with memory := placeRow s.memory a present value.cell }
  | _, _ => s

/-- An array of which the first cells are those of another. -/
def stage (before after : List Cell) (n : Nat) : List Cell :=
  if n ≤ after.length then after.take n ++ before.drop n else after

theorem stage_same {before after : List Cell} {n : Nat} (same : before[n]? = after[n]?) :
    stage before after (n + 1) = stage before after n := by
  rcases Nat.lt_or_ge n after.length with inside | beyond
  · have inside' : n < before.length := by
      by_contra beyond
      rw [List.getElem?_eq_none (by omega), eq_comm, List.getElem?_eq_none_iff] at same
      omega
    rw [stage, stage, if_pos (show n + 1 ≤ after.length from inside), if_pos inside.le, List.take_add_one,
      List.drop_eq_getElem_cons inside', ← same, List.getElem?_eq_getElem inside']
    simp
  · rw [stage, stage, if_neg (by omega)]
    split_ifs with last
    · have length : n = after.length := by omega
      subst length
      rw [List.getElem?_eq_none le_rfl, List.getElem?_eq_none_iff] at same
      rw [List.take_length, List.drop_eq_nil_of_le same, List.append_nil]
    · rfl

theorem stage_place {before after : List Cell} {n : Nat} (other : before[n]? ≠ after[n]?) :
    place (stage before after n) n (n < after.length) (after[n]?.join)
      = stage before after (n + 1) := by
  rcases Nat.lt_or_ge n after.length with inside | beyond
  · rw [stage, stage, if_pos (show n + 1 ≤ after.length from inside), if_pos inside.le, place,
      if_pos (by simpa using inside), List.take_add_one, List.getElem?_eq_getElem inside]
    split_ifs with known
    · have inside' : n < before.length := by
        simp only [List.length_append, List.length_take, List.length_drop] at known
        omega
      have front : (after.take n).length = n := by
        rw [List.length_take]
        omega
      rw [List.set_append_right _ _ front.le, front, Nat.sub_self,
        List.drop_eq_getElem_cons inside', List.set_cons_zero]
      simp only [Option.toList_some, Option.join_some, List.append_assoc, List.singleton_append]
    · have over_ : before.drop n = [] := by
        simp only [List.length_append, List.length_take, List.length_drop] at known
        exact List.drop_eq_nil_of_le (by omega)
      have over' : before.drop (n + 1) = [] := by
        rw [List.drop_eq_nil_iff] at over_ ⊢
        omega
      simp [over_, over']
  · rw [stage, stage, if_neg (show ¬ n + 1 ≤ after.length by omega), place,
      if_neg (by simpa using beyond)]
    split_ifs with last
    · have length : n = after.length := by omega
      subst length
      simp
    · exact List.take_of_length_le beyond

section Arrays

variable (location : Nat → Location) (view : State → List Cell) (put : State → List Cell → State)

/-- The changes of an array carried out give the other array. -/
theorem foldl_arrayChanges
    (acts : ∀ s before after i, apply s (arrayChange location before after i)
      = put s (place (view s) i (i < after.length) (after[i]?.join)))
    (view_put : ∀ s cells, view (put s cells) = cells)
    (put_put : ∀ s cells cells', put (put s cells) cells' = put s cells')
    (put_view : ∀ s, put s (view s) = s) (s : State) (after : List Cell) :
    (arrayChanges location (view s) after).foldl apply s = put s after := by
  have reached : ∀ n, (((List.range n).filter fun i => (view s)[i]? ≠ after[i]?).map
      (arrayChange location (view s) after)).foldl apply s = put s (stage (view s) after n) := by
    intro n
    induction n with
    | zero => simp [stage, put_view]
    | succ n ih =>
        rw [List.range_succ, List.filter_append, List.map_append, List.foldl_append, ih]
        by_cases same : (view s)[n]? = after[n]?
        · simp [same, stage_same]
        · simp [same, acts, view_put, put_put, stage_place]
  rw [arrayChanges_eq, reached, stage]
  split_ifs with inside
  · have length : max (view s).length after.length = after.length := by omega
    rw [length, List.take_length, List.drop_eq_nil_of_le (by omega), List.append_nil]
  · rfl

end Arrays

/-! ### Memories -/

theorem mem_placeRow {memory : List (Nat × Cell)} {a : Nat} {present : Bool} {cell : Cell}
    {row : Nat × Cell} :
    row ∈ placeRow memory a present cell
      ↔ (row ∈ memory ∧ row.1 ≠ a) ∨ (present = true ∧ row = (a, cell)) := by
  cases present <;> simp [placeRow]

theorem sorted_placeRow {memory : List (Nat × Cell)}
    (sorted : memory.Pairwise fun a b => a.1 < b.1) (a : Nat) (present : Bool) (cell : Cell) :
    (placeRow memory a present cell).Pairwise fun a b => a.1 < b.1 := by
  have others := sorted.filter fun row => row.1 ≠ a
  cases present with
  | false => simpa [placeRow] using others
  | true =>
      refine sorted_insert (List.pairwise_map.2 others) ?_
      simp

theorem mem_memory {s : State} (valid : Valid s) {row : Nat × Cell} :
    row ∈ s.memory ↔ JsMap.get s.memory row.1 = some row.2 :=
  ⟨JsMap.get_of_mem valid.distinct, JsMap.mem_of_get⟩

/-- The changes of a memory at some addresses carried out: those rows are the later ones. -/
theorem foldl_memoryChange {before after s : State} (validBefore : Valid before)
    (validAfter : Valid after) (same : s.memory = before.memory) (changes : List Nat) :
    ∃ memory, (changes.map (memoryChange before.memory after.memory)).foldl apply s
        = { s with memory }
      ∧ memory.Pairwise (fun a b => a.1 < b.1)
      ∧ ∀ row, row ∈ memory
        ↔ (row.1 ∈ changes ∧ row ∈ after.memory) ∨ (row.1 ∉ changes ∧ row ∈ before.memory) := by
  induction changes using List.reverseRecOn with
  | nil =>
      refine ⟨before.memory, by simp [← same], validBefore.sorted, by simp⟩
  | append_singleton changes a ih =>
      obtain ⟨memory, reached, sorted, rows⟩ := ih
      refine ⟨placeRow memory a (JsMap.get after.memory a).isSome (JsMap.get after.memory a).join,
        ?_, sorted_placeRow sorted _ _ _, fun row => ?_⟩
      · rw [List.map_append, List.foldl_append, reached]
        cases found : JsMap.get after.memory a with
        | none => simp [apply, memoryChange, found, Datum.cell]
        | some cell => simp [apply, memoryChange, found]
      · rw [mem_placeRow, rows]
        by_cases here : row.1 = a
        · subst here
          have stored : ((JsMap.get after.memory row.1).isSome = true
              ∧ row = (row.1, (JsMap.get after.memory row.1).join)) ↔ row ∈ after.memory := by
            rw [mem_memory validAfter]
            cases found : JsMap.get after.memory row.1 with
            | none => simp
            | some cell => simp [Prod.ext_iff, eq_comm]
          rw [stored]
          simp
        · have other : row ≠ (a, (JsMap.get after.memory a).join) := by
            rintro rfl
            exact here rfl
          simp [here, other]

/-- The changes of a memory carried out give the other memory. -/
theorem foldl_memoryChanges {before after s : State} (validBefore : Valid before)
    (validAfter : Valid after) (same : s.memory = before.memory) :
    (memoryChanges before.memory after.memory).foldl apply s
      = { s with memory := after.memory } := by
  rw [memoryChanges_eq validBefore validAfter]
  obtain ⟨memory, reached, sorted, rows⟩ := foldl_memoryChange validBefore validAfter same
    ((addresses before.memory after.memory).filter
      fun a => JsMap.get before.memory a ≠ JsMap.get after.memory a)
  rw [reached]
  congr 1
  have irreflexive : Std.Irrefl fun a b : Nat × Cell => a.1 < b.1 := ⟨fun _ => Nat.lt_irrefl _⟩
  have asymmetric : Std.Asymm fun a b : Nat × Cell => a.1 < b.1 :=
    ⟨fun _ _ => Nat.lt_asymm⟩
  refine sorted.eq_of_mem_iff validAfter.sorted fun row => ?_
  rw [rows, List.mem_filter, decide_eq_true_iff]
  by_cases other : JsMap.get before.memory row.1 = JsMap.get after.memory row.1
  · rw [mem_memory validBefore, mem_memory validAfter, other]
    simp
  · simp [other, mem_addresses_of_ne other]

/-! ### Whole steps -/

theorem foldl_scalar {c : Prop} [Decidable c] (s : State) (change : Change) :
    (if c then [change] else []).foldl apply s = if c then apply s change else s := by
  split_ifs <;> rfl

/-- All changes of a step carried out on the state before it give the state after it. -/
theorem foldl_effects {s : Step} (validBefore : Valid s.before) (validAfter : Valid s.after) :
    (effects s).foldl apply s.before = s.after := by
  have pc : (if s.before.pc ≠ s.after.pc then
      [({ location := .pc, before := .number s.before.pc, after := .number s.after.pc } : Change)]
      else []).foldl apply s.before = { s.before with pc := s.after.pc } := by
    rw [foldl_scalar]
    split_ifs with other
    · rfl
    · rw [← not_ne_iff.1 other]
  have halted : (if s.before.halted ≠ s.after.halted then
      [({ location := .halted, before := .boolean s.before.halted
          after := .boolean s.after.halted } : Change)]
      else []).foldl apply { s.before with pc := s.after.pc }
        = { s.before with pc := s.after.pc, halted := s.after.halted } := by
    rw [foldl_scalar]
    split_ifs with other
    · rfl
    · rw [← not_ne_iff.1 other]
  have cell : ∀ (cells : List Cell) (i : Nat), ((cells[i]?.map Cell.datum).getD .null).cell
      = cells[i]?.join := by
    intro cells i
    cases cells[i]? with
    | none => rfl
    | some cell => exact cell_datum cell
  have registers := foldl_arrayChanges .registers State.registers (fun s registers => { s with registers })
    (by intro s before after i; simp [apply, arrayChange, cell]) (fun _ _ => rfl)
    (fun _ _ _ => rfl) (fun _ => rfl)
    { s.before with pc := s.after.pc, halted := s.after.halted } s.after.registers
  have stack := foldl_arrayChanges .stack State.stack (fun s stack => { s with stack })
    (by intro s before after i; simp [apply, arrayChange, cell]) (fun _ _ => rfl)
    (fun _ _ _ => rfl) (fun _ => rfl)
    { s.before with pc := s.after.pc, halted := s.after.halted, registers := s.after.registers }
    s.after.stack
  rw [effects, List.foldl_append, List.foldl_append, List.foldl_append, List.foldl_append, pc,
    halted, registers, stack]
  exact foldl_memoryChanges validBefore validAfter rfl

theorem shown_injective :
    Function.Injective fun cell : Option Cell => (cell.isSome, (cell.map Cell.datum).getD .null) := by
  intro a b same
  cases a <;> cases b <;> simp_all [datum_injective.eq_iff]

theorem arrayChange_differs {location : Nat → Location} {before after : List Cell} {i : Nat}
    (other : before[i]? ≠ after[i]?) :
    ((arrayChange location before after i).before_present,
        (arrayChange location before after i).before)
      ≠ ((arrayChange location before after i).after_present,
        (arrayChange location before after i).after) := by
  have present : ∀ cells : List Cell, decide (i < cells.length) = cells[i]?.isSome := by
    intro cells
    by_cases inside : i < cells.length <;> simp [inside]
  intro same
  simp only [arrayChange, present, Prod.mk.injEq, Option.some.injEq] at same
  exact other (shown_injective (Prod.ext same.1 same.2))

/-- No listed change is one of a value to itself. -/
theorem effects_differ {s : Step} (validBefore : Valid s.before) (validAfter : Valid s.after) :
    ∀ change ∈ effects s,
      (change.before_present, change.before) ≠ (change.after_present, change.after) := by
  intro change member
  simp only [effects, arrayChanges_eq, memoryChanges_eq validBefore validAfter, List.mem_append,
    List.mem_map, List.mem_filter, decide_eq_true_eq] at member
  rcases member with (((member | member) | ⟨i, ⟨-, other⟩, rfl⟩) | ⟨i, ⟨-, other⟩, rfl⟩)
    | ⟨a, ⟨-, other⟩, rfl⟩
  · split_ifs at member with other
    · rw [List.mem_singleton.1 member]
      simpa using other
    · cases member
  · split_ifs at member with other
    · rw [List.mem_singleton.1 member]
      simpa using other
    · cases member
  · exact arrayChange_differs other
  · exact arrayChange_differs other
  · intro same
    simp only [memoryChange, Prod.mk.injEq, Option.some.injEq] at same
    exact other (shown_injective (Prod.ext same.1 same.2))

/-- A selected step reports its effects and its cells. -/
theorem selectedStep_eq_ok {v : Trace} {sequence : Value} {report : StepReport}
    (selected : selectedStep v sequence = .ok report) :
    report.step ∈ v.steps ∧ report.changes = effects report.step
      ∧ report.cells = stepCells report.step := by
  simp only [selectedStep, Fallible.bind_eq_ok, demand_eq_ok] at selected
  obtain ⟨_, -, retained, found, same⟩ := selected
  cases same
  exact ⟨List.mem_of_getElem? found, rfl, rfl⟩

/-- Between two accepted states the listed changes are lossless and none is idle; in the
report of a step of an accepted trace they stand where the marked cells do. -/
theorem effects_lossless :
    (∀ (before after : Value) (s : Step), state before = .ok s.before → state after = .ok s.after →
      (effects s).foldl apply s.before = s.after
        ∧ (∀ change ∈ effects s,
          (change.before_present, change.before) ≠ (change.after_present, change.after))
        ∧ (effects s).map (·.location.text)
          = ((stepCells s).filter (·.changed)).map (·.location.text))
      ∧ ∀ (input : Value) (v : Trace) (sequence : Value) (report : StepReport),
        trace input = .ok v → selectedStep v sequence = .ok report →
          report.changes = effects report.step
            ∧ report.changes.map (·.location.text)
              = (report.cells.filter (·.changed)).map (·.location.text) := by
  have marked : ∀ {s : Step}, Valid s.before → Valid s.after → (effects s).map (·.location.text)
      = ((stepCells s).filter (·.changed)).map (·.location.text) := by
    intro s validBefore validAfter
    have same := congrArg (List.map Location.text) (effects_marked validBefore validAfter)
    rwa [List.map_map, List.map_map] at same
  constructor
  · intro before after s read read'
    have validBefore := state_sound read
    have validAfter := state_sound read'
    exact ⟨foldl_effects validBefore validAfter, effects_differ validBefore validAfter,
      marked validBefore validAfter⟩
  · intro input v sequence report accepted selected
    obtain ⟨member, changes, cells⟩ := selectedStep_eq_ok selected
    have valid := trace_sound accepted report.step member
    refine ⟨changes, ?_⟩
    rw [changes, cells]
    exact marked valid.before valid.after

theorem effects_lossless_fixture :
    (effects { fixtureStep with after := { fixtureState with stack := [], pc := 2 } }).foldl apply
        fixtureState = { fixtureState with stack := [], pc := 2 }
      ∧ ∃ report, selectedStep fixture (.number (.integer 0)) = .ok report
        ∧ report.changes.map (·.location.text)
          = (report.cells.filter (·.changed)).map (·.location.text) := by
  refine ⟨(effects_lossless.1 fixtureState.value
    ({ fixtureState with stack := [], pc := 2 } : State).value
    { fixtureStep with after := { fixtureState with stack := [], pc := 2 } }
    (by decide +kernel) (by decide +kernel)).1, ?_⟩
  have selected : selectedStep fixture (.number (.integer 0)) = .ok _ := rfl
  exact ⟨_, selected, (effects_lossless.2 _ _ _ _ trace_fixture selected).2⟩

end Reb.Vm.Semantics
