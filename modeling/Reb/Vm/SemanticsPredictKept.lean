/-
# Vm.SemanticsPredictKept -- a prediction is a valid state and leaves its step alone

`Predicted` computes on states what `predict` does to the objects of a clone.  The clone's
objects are all behind the heap it was made on and no two of them are shared
(`Layout`), so every change is one of the state and of nothing else.
-/
import Reb.Vm.SemanticsPredict

namespace Reb.Vm.Semantics

open Reb.Theory
open Reb.Theory.Heap hiding Program
open Reb.Theory.Heap.Program (run_read run_bind_ok run_bind_error run_bind_eq_ok)

set_option autoImplicit false

/-! ## Predictions as values -/

namespace Predicted

abbrev Computed (α : Type) := Heap.Program String State α

def unsupported {α : Type} : Computed α := Heap.Program.fail unsupportedMessage

/-- What can be read of the state, or nothing. -/
def reads {α : Type} (view : State → Option α) : Computed α :=
  ⟨fun s => ((view s).elim (.error unsupportedMessage) .ok, s)⟩

def change (later : State → State) : Computed Unit := ⟨fun s => (.ok (), later s)⟩

def address (i : Int) : Computed Nat :=
  if 0 ≤ i ∧ i ≤ 65535 then pure i.toNat else unsupported

def register (i : Int) : Computed Int :=
  reads fun s => if 0 ≤ i then s.registers[i.toNat]?.join else none

def destination (i : Int) : Computed Nat :=
  reads fun s => if 0 ≤ i ∧ i < s.registers.length then some i.toNat else none

def setRegister (i : Nat) (value : Cell) : Computed Unit :=
  change fun s => { s with registers := s.registers.set i value }

def stack : Computed Int := do
  let value ← reads fun s => s.stack.getLast?.join
  change fun s => { s with stack := s.stack.dropLast }
  pure value

def push (value : Int) : Computed Unit := change fun s => { s with stack := s.stack ++ [some value] }

def stackLength : Computed Nat := reads fun s => some s.stack.length

def load (i : Int) : Computed Int :=
  reads fun s =>
    if 0 ≤ i ∧ i ≤ 65535 then (s.memory.find? fun row => row.1 = i.toNat).bind Prod.snd else none

/-- The first row of an address, with another value. -/
def assign (a : Nat) (value : Cell) : List (Nat × Cell) → List (Nat × Cell)
  | [] => []
  | row :: rest => if row.1 = a then (row.1, value) :: rest else row :: assign a value rest

/-- The memory with a value stored, while there is room. -/
def stored (a : Nat) (value : Int) (memory : List (Nat × Cell)) : Option (List (Nat × Cell)) :=
  if a ∈ memory.map Prod.fst then some (assign a (some value) memory)
  else if 256 ≤ memory.length then none
  else some ((memory ++ [(a, some value)]).insertionSort fun x y => x.1 ≤ y.1)

def store (a : Nat) (value : Int) : Computed Unit := do
  let memory ← reads fun s => stored a value s.memory
  change fun s => { s with memory }

def getPc : Computed Nat := reads fun s => some s.pc

def setPc (pc : Nat) : Computed Unit := change fun s => { s with pc }

def halt : Computed Unit := change fun s => { s with halted := true }

def perform (before_pc : Nat) : Operation → Computed Unit
  | .stack_const value => do
      if 128 ≤ (← stackLength) then unsupported else push value
  | .stack_add => do
      let right ← stack
      let left ← stack
      push (wrap (left + right))
  | .register_const i value => do
      setRegister (← destination i) value
  | .register_add i l r => do
      let left ← register l
      let right ← register r
      setRegister (← destination i) (wrap (left + right))
  | .load i a => do
      let value ← load a
      setRegister (← destination i) value
  | .store a i => do
      let a ← address a
      store a (← register i)
  | .jump a => do
      setPc (← address a)
  | .branch_zero i a => do
      let value ← register i
      let a ← address a
      if value = 0 then setPc a else pure ()
  | .halt => do
      setPc before_pc
      halt

end Predicted

/-! ## States in the heap -/

/-- A state object, its arrays and the cells of its memory; addresses may be shared. -/
structure Held (heap : List Object) (at_ : Nat) (fields : StateObject) (rows : List Nat)
    (s : State) : Prop where
  record : heap[at_]? = some (.state fields)
  pc : fields.pc = s.pc
  halted : fields.halted = s.halted
  registers : heap[fields.registers]? = some (.cells s.registers)
  stack : heap[fields.stack]? = some (.cells s.stack)
  memory : heap[fields.memory]? = some (.rows rows)
  cells : List.Forall₂ (fun row cell => heap[row]? = some (.row cell.1 cell.2)) rows s.memory

def Holds (heap : List Object) (at_ : Nat) (s : State) : Prop :=
  ∃ fields rows, Held heap at_ fields rows s

/-- A state of its own behind the heap `old`. -/
structure Layout (old heap : List Object) (at_ : Nat) (fields : StateObject) (rows : List Nat)
    (s : State) : Prop extends Held heap at_ fields rows s where
  apart : fields.registers ≠ fields.stack
  distinct : rows.Nodup
  fresh : ∀ a ∈ at_ :: fields.registers :: fields.stack :: fields.memory :: rows, old.length ≤ a

def Shows (old : List Object) (next : Nat) (s : State) (heap : List Object) : Prop :=
  old <+: heap ∧ ∃ fields rows, Layout old heap next fields rows s

namespace Held

variable {heap : List Object} {at_ : Nat} {fields : StateObject} {rows : List Nat} {s : State}

theorem mono {heap' : List Object} (held : Held heap at_ fields rows s) (kept : heap <+: heap') :
    Held heap' at_ fields rows s where
  record := getElem?_of_extends kept held.record
  pc := held.pc
  halted := held.halted
  registers := getElem?_of_extends kept held.registers
  stack := getElem?_of_extends kept held.stack
  memory := getElem?_of_extends kept held.memory
  cells := held.cells.imp fun _ _ found => getElem?_of_extends kept found

theorem readState (held : Held heap at_ fields rows s) :
    (readState at_).run heap = (.ok fields, heap) := run_read held.record rfl

theorem readRegisters (held : Held heap at_ fields rows s) :
    (readCells fields.registers).run heap = (.ok s.registers, heap) := run_read held.registers rfl

theorem readStack (held : Held heap at_ fields rows s) :
    (readCells fields.stack).run heap = (.ok s.stack, heap) := run_read held.stack rfl

theorem readRows (held : Held heap at_ fields rows s) :
    (readRows fields.memory).run heap = (.ok rows, heap) := run_read held.memory rfl

theorem readAll (held : Held heap at_ fields rows s) :
    (Heap.Program.readAll "TypeError" Object.row? rows).run heap = (.ok s.memory, heap) := by
  have read : (rows.mapM fun row => heap[row]?.bind Object.row?) = some s.memory :=
    Fallible.mapM_eq_some.2 (held.cells.imp fun _ _ found => by rw [found]; rfl)
  simp [Heap.Program.readAll, read]

theorem memory_run (held : Held heap at_ fields rows s) :
    (Semantics.memory at_).run heap = (.ok (rows.zip s.memory), heap) := by
  rw [Semantics.memory, run_bind_ok held.readState, run_bind_ok held.readRows,
    run_bind_ok held.readAll]
  rfl

end Held

/-! ## The clone -/

section Clone

variable {heap : List Object} {at_ : Nat} {s : State}

theorem forall₂_range' (cells : List (Nat × Cell)) (front back : List Object) :
    List.Forall₂ (fun row cell => (front ++ (cells.map (fun row => .row row.1 row.2) ++ back))[row]?
        = some (Object.row cell.1 cell.2)) (List.range' front.length cells.length) cells := by
  induction cells generalizing front with
  | nil => simp
  | cons cell cells ih =>
      rw [List.length_cons, List.range'_succ]
      refine .cons (by simp) ?_
      have rest := ih (front ++ [.row cell.1 cell.2])
      simpa using rest

/-- The clone is a state of its own behind the heap it was made on. -/
theorem clone_run (held : Holds heap at_ s) :
    ∃ next heap', (clone at_).run heap = (.ok next, heap') ∧ Shows heap next s heap' := by
  obtain ⟨fields, rows, held⟩ := held
  let objects := s.memory.map fun row => Object.row row.1 row.2
  let front := heap ++ [.cells s.registers] ++ [.cells s.stack]
  let fields' : StateObject := { fields with
    registers := heap.length
    stack := heap.length + 1
    memory := front.length + objects.length }
  have first := held.mono (List.prefix_append heap [.cells s.registers])
  have second := first.mono (List.prefix_append _ [.cells s.stack])
  refine ⟨front.length + objects.length + 1, front ++ objects ++ [.rows
    (List.range' front.length objects.length)] ++ [.state fields'], ?_, ?_, fields',
    List.range' front.length objects.length, ?_⟩
  · rw [clone, run_bind_ok held.readState, run_bind_ok held.readRegisters, run_bind_ok rfl,
      run_bind_ok first.readStack, run_bind_ok rfl, run_bind_ok second.readRows,
      run_bind_ok second.readAll, run_bind_ok rfl, run_bind_ok rfl]
    simp [Heap.Program.alloc, front, objects, fields']
    omega
  · simp [front, List.append_assoc]
  · refine ⟨⟨?_, held.pc, held.halted, ?_, ?_, ?_, ?_⟩, ?_, List.nodup_range', ?_⟩
    · rw [List.getElem?_append_right (by simp; omega)]
      simp
    · simp [front, objects, fields']
    · simp [front, objects, fields']
    · rw [List.getElem?_append_left (by simp [fields']), List.getElem?_append_right (by simp [fields'])]
      simp [fields']
    · have rows := forall₂_range' s.memory front
        ([.rows (List.range' front.length objects.length)] ++ [.state fields'])
      simpa [objects, List.append_assoc] using rows
    · simp [fields']
    · intro a member
      simp only [List.mem_cons, List.mem_range'_1] at member
      simp [front, objects, fields'] at member
      omega

end Clone

/-! ## The clone changed in place -/

section Changes

variable {old heap : List Object} {next : Nat} {fields : StateObject} {rows : List Nat} {s : State}

namespace Layout

/-- Another record with the same arrays. -/
theorem setRecord (layout : Layout old heap next fields rows s) (pc : Nat) (halted : Bool) :
    Layout old (heap.set next (.state { fields with pc, halted })) next { fields with pc, halted }
      rows { s with pc, halted } where
  record := getElem?_set_here layout.record _
  pc := rfl
  halted := rfl
  registers := getElem?_set_other layout.record layout.registers (by simp)
  stack := getElem?_set_other layout.record layout.stack (by simp)
  memory := getElem?_set_other layout.record layout.memory (by simp)
  cells := layout.cells.imp fun _ _ found => getElem?_set_other layout.record found (by simp)
  apart := layout.apart
  distinct := layout.distinct
  fresh := layout.fresh

theorem setRegisters (layout : Layout old heap next fields rows s) (registers : List Cell) :
    Layout old (heap.set fields.registers (.cells registers)) next fields rows
      { s with registers } where
  record := getElem?_set_other layout.registers layout.record (by simp)
  pc := layout.pc
  halted := layout.halted
  registers := getElem?_set_here layout.registers _
  stack := by
    rw [List.getElem?_set_ne layout.apart]
    exact layout.stack
  memory := getElem?_set_other layout.registers layout.memory (by simp)
  cells := layout.cells.imp fun _ _ found => getElem?_set_other layout.registers found (by simp)
  apart := layout.apart
  distinct := layout.distinct
  fresh := layout.fresh

theorem setStack (layout : Layout old heap next fields rows s) (stack : List Cell) :
    Layout old (heap.set fields.stack (.cells stack)) next fields rows { s with stack } where
  record := getElem?_set_other layout.stack layout.record (by simp)
  pc := layout.pc
  halted := layout.halted
  registers := by
    rw [List.getElem?_set_ne layout.apart.symm]
    exact layout.registers
  stack := getElem?_set_here layout.stack _
  memory := getElem?_set_other layout.stack layout.memory (by simp)
  cells := layout.cells.imp fun _ _ found => getElem?_set_other layout.stack found (by simp)
  apart := layout.apart
  distinct := layout.distinct
  fresh := layout.fresh

/-- Other cells in the memory array. -/
theorem setRows (layout : Layout old heap next fields rows s) {rows' : List Nat}
    {memory : List (Nat × Cell)}
    (cells : List.Forall₂ (fun row cell => heap[row]? = some (.row cell.1 cell.2)) rows' memory)
    (distinct : rows'.Nodup) (fresh : ∀ row ∈ rows', old.length ≤ row) :
    Layout old (heap.set fields.memory (.rows rows')) next fields rows' { s with memory } where
  record := getElem?_set_other layout.memory layout.record (by simp)
  pc := layout.pc
  halted := layout.halted
  registers := getElem?_set_other layout.memory layout.registers (by simp)
  stack := getElem?_set_other layout.memory layout.stack (by simp)
  memory := getElem?_set_here layout.memory _
  cells := cells.imp fun _ _ found => getElem?_set_other layout.memory found (by simp)
  apart := layout.apart
  distinct := distinct
  fresh := by
    have known := layout.fresh
    simp only [List.mem_cons, forall_eq_or_imp] at known ⊢
    exact ⟨known.1, known.2.1, known.2.2.1, known.2.2.2.1, fresh⟩

/-- Another value in one cell of the memory. -/
theorem setRow (layout : Layout old heap next fields rows s) {row a : Nat} {v v' : Cell}
    (found : heap[row]? = some (.row a v)) {memory : List (Nat × Cell)}
    (cells : List.Forall₂ (fun row' cell => (heap.set row (.row a v'))[row']?
      = some (.row cell.1 cell.2)) rows memory) :
    Layout old (heap.set row (.row a v')) next fields rows { s with memory } where
  record := getElem?_set_other found layout.record (by simp)
  pc := layout.pc
  halted := layout.halted
  registers := getElem?_set_other found layout.registers (by simp)
  stack := getElem?_set_other found layout.stack (by simp)
  memory := getElem?_set_other found layout.memory (by simp)
  cells := cells
  apart := layout.apart
  distinct := layout.distinct
  fresh := layout.fresh

theorem mono (layout : Layout old heap next fields rows s) (more : List Object) :
    Layout old (heap ++ more) next fields rows s :=
  { layout.toHeld.mono (List.prefix_append heap more) with
    apart := layout.apart
    distinct := layout.distinct
    fresh := layout.fresh }

end Layout

end Changes

/-! ## The changes are those of the state -/

section Simulation

variable (old : List Object) (next : Nat)

variable {old next}

theorem reads_sim {α : Type} {p : Program α} {view : State → Option α}
    (ran : ∀ {heap fields rows s}, Layout old heap next fields rows s →
      p.run heap = ((view s).elim (.error unsupportedMessage) .ok, heap)) :
    Simulates (Shows old next) p (Predicted.reads view) := by
  rintro s heap ⟨kept, fields, rows, layout⟩
  rw [ran layout]
  exact ⟨rfl, kept, fields, rows, layout⟩

theorem change_sim {p : Program Unit} {later : State → State}
    (ran : ∀ {heap fields rows s}, old <+: heap → Layout old heap next fields rows s →
      ∃ heap', p.run heap = (.ok (), heap') ∧ Shows old next (later s) heap') :
    Simulates (Shows old next) p (Predicted.change later) := by
  rintro s heap ⟨kept, fields, rows, layout⟩
  obtain ⟨heap', ran, shown⟩ := ran kept layout
  rw [ran]
  exact ⟨rfl, shown⟩

theorem unsupported_sim {α : Type} :
    Simulates (Shows old next) (unsupported : Program α) Predicted.unsupported := .fail _

theorem address_sim (i : Int) :
    Simulates (Shows old next) (address i) (Predicted.address i) :=
  .ite (.pure _) unsupported_sim

theorem register_sim (i : Int) :
    Simulates (Shows old next) (register next i) (Predicted.register i) := by
  apply reads_sim
  intro heap fields rows s layout
  rw [register, run_bind_ok layout.readState, run_bind_ok layout.readRegisters]
  by_cases known : 0 ≤ i
  · rw [if_pos known, if_pos known]
    rcases s.registers[i.toNat]? with _ | _ | value <;> rfl
  · rw [if_neg known, if_neg known]
    rfl

theorem destination_sim (i : Int) :
    Simulates (Shows old next) (destination next i) (Predicted.destination i) := by
  apply reads_sim
  intro heap fields rows s layout
  rw [destination, run_bind_ok layout.readState, run_bind_ok layout.readRegisters]
  by_cases inside : 0 ≤ i ∧ i < s.registers.length
  · rw [if_pos inside, if_pos inside]
    rfl
  · rw [if_neg inside, if_neg inside]
    rfl

theorem stackLength_sim :
    Simulates (Shows old next) (stackLength next) Predicted.stackLength := by
  apply reads_sim
  intro heap fields rows s layout
  rw [stackLength, run_bind_ok layout.readState, run_bind_ok layout.readStack]
  rfl

theorem getPc_sim : Simulates (Shows old next) (getPc next) Predicted.getPc := by
  apply reads_sim
  intro heap fields rows s layout
  rw [getPc, run_bind_ok layout.readState, layout.pc]
  rfl

theorem setPc_sim (pc : Nat) :
    Simulates (Shows old next) (setPc next pc) (Predicted.setPc pc) := by
  apply change_sim
  intro heap fields rows s kept layout
  rw [setPc, run_bind_ok layout.readState, ← layout.halted]
  exact ⟨_, rfl, prefix_set kept (layout.fresh next (by simp)) _, _, _, layout.setRecord pc _⟩

theorem halt_sim : Simulates (Shows old next) (halt next) Predicted.halt := by
  apply change_sim
  intro heap fields rows s kept layout
  rw [halt, run_bind_ok layout.readState, ← layout.pc]
  exact ⟨_, rfl, prefix_set kept (layout.fresh next (by simp)) _, _, _, layout.setRecord _ true⟩

theorem setRegister_sim (i : Nat) (value : Cell) :
    Simulates (Shows old next) (setRegister next i value) (Predicted.setRegister i value) := by
  apply change_sim
  intro heap fields rows s kept layout
  rw [setRegister, run_bind_ok layout.readState, run_bind_ok layout.readRegisters]
  exact ⟨_, rfl, prefix_set kept (layout.fresh fields.registers (by simp)) _, _, _,
    layout.setRegisters _⟩

theorem push_sim (value : Int) :
    Simulates (Shows old next) (push next value) (Predicted.push value) := by
  apply change_sim
  intro heap fields rows s kept layout
  rw [push, run_bind_ok layout.readState, run_bind_ok layout.readStack]
  exact ⟨_, rfl, prefix_set kept (layout.fresh fields.stack (by simp)) _, _, _, layout.setStack _⟩

theorem stack_sim : Simulates (Shows old next) (stack next) Predicted.stack := by
  rintro s heap ⟨kept, fields, rows, layout⟩
  rw [stack, run_bind_ok layout.readState, run_bind_ok layout.readStack, Predicted.stack]
  have read : (Predicted.reads fun s => s.stack.getLast?.join).run s
      = (s.stack.getLast?.join.elim (.error unsupportedMessage) .ok, s) := rfl
  rcases last : s.stack.getLast? with _ | _ | value
  · rw [last] at read
    rw [run_bind_error read]
    exact ⟨rfl, kept, fields, rows, layout⟩
  · rw [last] at read
    rw [run_bind_error read]
    exact ⟨rfl, kept, fields, rows, layout⟩
  · rw [last] at read
    rw [run_bind_ok read]
    exact ⟨rfl, prefix_set kept (layout.fresh fields.stack (by simp)) _, _, _, layout.setStack _⟩

/-- The first cell of an address, found by the rows. -/
theorem find?_zip {heap : List Object} {rows : List Nat} {memory : List (Nat × Cell)}
    (cells : List.Forall₂ (fun row cell => heap[row]? = some (.row cell.1 cell.2)) rows memory)
    (a : Nat) :
    ((rows.zip memory).find? fun row => row.2.1 = a).map Prod.snd
      = memory.find? fun cell => cell.1 = a := by
  induction cells with
  | nil => rfl
  | @cons row cell rows memory _ _ ih =>
      rw [List.zip_cons_cons, List.find?_cons, List.find?_cons]
      by_cases here : cell.1 = a
      · simp [here]
      · simpa [here] using ih

theorem load_sim (i : Int) : Simulates (Shows old next) (load next i) (Predicted.load i) := by
  apply reads_sim
  intro heap fields rows s layout
  rw [load, run_bind_ok layout.memory_run]
  have same := find?_zip layout.cells i.toNat
  by_cases empty : rows.zip s.memory = []
  · rw [if_pos empty, run_bind_ok (Heap.Program.run_pure _ _)]
    rw [empty] at same
    rw [← same]
    simp [unsupported]
  · rw [if_neg empty, address]
    by_cases inside : 0 ≤ i ∧ i ≤ 65535
    · rw [if_pos inside, if_pos inside, ← same]
      rw [run_bind_ok (Heap.Program.run_pure _ _), run_bind_ok (Heap.Program.run_pure _ _)]
      rcases (rows.zip s.memory).find? _ with _ | ⟨row, a, _ | value⟩ <;> rfl
    · rw [if_neg inside, if_neg inside]
      exact run_bind_error rfl

theorem set_elsewhere {heap : List Object} {rows : List Nat} {memory : List (Nat × Cell)}
    (cells : List.Forall₂ (fun row cell => heap[row]? = some (.row cell.1 cell.2)) rows memory)
    {other : Nat} (apart : other ∉ rows) (object : Object) :
    List.Forall₂ (fun row cell => (heap.set other object)[row]? = some (.row cell.1 cell.2)) rows
      memory := by
  induction cells with
  | nil => exact .nil
  | cons here _ ih =>
      rw [List.mem_cons, not_or] at apart
      refine .cons ?_ (ih apart.2)
      rw [List.getElem?_set_ne apart.1, here]

/-- The first cell of an address, written where it stands. -/
theorem set_found {heap : List Object} {rows : List Nat} {memory : List (Nat × Cell)} {a : Nat}
    (cells : List.Forall₂ (fun row cell => heap[row]? = some (.row cell.1 cell.2)) rows memory)
    (distinct : rows.Nodup) {row address : Nat} {v : Cell}
    (found : (rows.zip memory).find? (fun row => row.2.1 = a) = some (row, address, v)) (v' : Cell) :
    heap[row]? = some (.row address v) ∧ row ∈ rows ∧ a ∈ memory.map Prod.fst
      ∧ List.Forall₂ (fun row' cell => (heap.set row (.row address v'))[row']?
        = some (.row cell.1 cell.2)) rows (Predicted.assign a v' memory) := by
  induction cells with
  | nil => cases found
  | @cons first cell rows memory here rest ih =>
      obtain ⟨other, distinct⟩ := List.nodup_cons.1 distinct
      rw [List.zip_cons_cons, List.find?_cons] at found
      by_cases same : cell.1 = a
      · simp only [same, decide_true] at found
        cases found
        refine ⟨here, by simp, by simp [← same], ?_⟩
        rw [Predicted.assign, if_pos same]
        exact .cons (getElem?_set_here here _) (set_elsewhere rest other _)
      · simp only [same, decide_false] at found
        obtain ⟨at_, member, known, others⟩ := ih distinct found
        refine ⟨at_, by simp [member], by simp [known], ?_⟩
        rw [Predicted.assign, if_neg same]
        refine .cons ?_ others
        rw [List.getElem?_set_ne, here]
        rintro rfl
        exact other member

theorem rows_lt {heap : List Object} {rows : List Nat} {memory : List (Nat × Cell)}
    (cells : List.Forall₂ (fun row cell => heap[row]? = some (.row cell.1 cell.2)) rows memory) :
    ∀ row ∈ rows, row < heap.length := by
  induction cells with
  | nil => simp
  | cons here _ ih =>
      intro row member
      rcases List.mem_cons.1 member with rfl | member
      · exact (List.getElem?_eq_some_iff.1 here).1
      · exact ih row member

/-- The cells and the memory, sorted together. -/
theorem sorted_rows {heap : List Object} {rows : List Nat} {memory : List (Nat × Cell)}
    (cells : List.Forall₂ (fun row cell => heap[row]? = some (.row cell.1 cell.2)) rows memory)
    {row a : Nat} {v : Cell} (here : heap[row]? = some (.row a v)) :
    List.Forall₂ (fun row cell => heap[row]? = some (.row cell.1 cell.2))
        (((rows.zip memory ++ [(row, a, v)]).insertionSort fun x y => x.2.1 ≤ y.2.1).map Prod.fst)
        ((memory ++ [(a, v)]).insertionSort fun x y => x.1 ≤ y.1)
      ∧ (((rows.zip memory ++ [(row, a, v)]).insertionSort fun x y => x.2.1 ≤ y.2.1).map
        Prod.fst).Perm (rows ++ [row]) := by
  obtain ⟨lengths, found⟩ := List.forall₂_iff_zip.1 cells
  have values := List.map_insertionSort (fun x y : Nat × Nat × Cell => x.2.1 ≤ y.2.1)
    (fun x y : Nat × Cell => x.1 ≤ y.1) Prod.snd (rows.zip memory ++ [(row, a, v)])
    (fun _ _ _ _ => Iff.rfl)
  rw [List.map_append, List.map_snd_zip lengths.ge] at values
  change _ = List.insertionSort _ (memory ++ [(a, v)]) at values
  constructor
  · rw [← values, List.forall₂_map_left_iff, List.forall₂_map_right_iff,
      List.forall₂_same]
    intro x member
    rw [List.mem_insertionSort, List.mem_append, List.mem_singleton] at member
    rcases member with member | rfl
    · exact found member
    · exact here
  · refine ((List.perm_insertionSort _ _).map Prod.fst).trans ?_
    rw [List.map_append, List.map_fst_zip lengths.le]
    rfl

theorem store_sim (a : Nat) (value : Int) :
    Simulates (Shows old next) (store next a value) (Predicted.store a value) := by
  rintro s heap ⟨kept, fields, rows, layout⟩
  rw [store, run_bind_ok layout.memory_run, Predicted.store]
  have same := find?_zip layout.cells a
  have read : (Predicted.reads fun s => Predicted.stored a value s.memory).run s
      = ((Predicted.stored a value s.memory).elim (.error unsupportedMessage) .ok, s) := rfl
  have count : (rows.zip s.memory).length = s.memory.length := by
    rw [List.length_zip, layout.cells.length_eq, Nat.min_self]
  cases found : (rows.zip s.memory).find? fun row => row.2.1 = a with
  | some row =>
      obtain ⟨row, address, v⟩ := row
      obtain ⟨at_, member, known, cells⟩ :=
        set_found layout.cells layout.distinct found (some value)
      rw [Predicted.stored, if_pos known] at read
      rw [run_bind_ok read]
      exact ⟨rfl, prefix_set kept (layout.fresh row (by simp [member])) _, _, _,
        layout.setRow at_ cells⟩
  | none =>
      rw [found, Option.map_none, eq_comm, List.find?_eq_none] at same
      have absent : a ∉ s.memory.map Prod.fst := by
        intro member
        obtain ⟨cell, listed, rfl⟩ := List.mem_map.1 member
        exact same cell listed (by simp)
      rw [Predicted.stored, if_neg absent] at read
      dsimp only
      rw [count]
      by_cases full : 256 ≤ s.memory.length
      · rw [if_pos full] at read ⊢
        rw [run_bind_error read]
        exact ⟨rfl, kept, fields, rows, layout⟩
      · rw [if_neg full] at read ⊢
        rw [run_bind_ok read]
        have later := layout.mono [.row a (some value)]
        obtain ⟨cells, order⟩ := sorted_rows later.cells
          (show (heap ++ [Object.row a (some value)])[heap.length]? = some (.row a (some value)) by
            simp)
        have below := rows_lt layout.cells
        rw [run_bind_ok rfl, run_bind_ok later.readState]
        refine ⟨rfl, prefix_set (kept.trans (List.prefix_append _ _))
          (layout.fresh fields.memory (by simp)) _, _, _, later.setRows cells ?_ ?_⟩
        · rw [order.nodup_iff, List.nodup_append_comm, List.singleton_append, List.nodup_cons]
          exact ⟨fun member => Nat.lt_irrefl _ (below _ member), layout.distinct⟩
        · intro row member
          rcases List.mem_append.1 (order.mem_iff.1 member) with member | last
          · exact layout.fresh row (by simp [member])
          · rw [List.mem_singleton.1 last]
            exact kept.length_le

theorem perform_sim (before_pc : Nat) (operation : Operation) :
    Simulates (Shows old next) (perform next before_pc operation)
      (Predicted.perform before_pc operation) := by
  cases operation with
  | stack_const value =>
      exact .bind stackLength_sim fun length => .ite unsupported_sim (push_sim value)
  | stack_add =>
      exact .bind stack_sim fun right => .bind stack_sim fun left => push_sim _
  | register_const i value =>
      exact .bind (destination_sim i) fun i => setRegister_sim i value
  | register_add i l r =>
      exact .bind (register_sim l) fun left => .bind (register_sim r) fun right =>
        .bind (destination_sim i) fun i => setRegister_sim i _
  | load i a =>
      exact .bind (load_sim a) fun value => .bind (destination_sim i) fun i => setRegister_sim i _
  | store a i =>
      exact .bind (address_sim a) fun a => .bind (register_sim i) fun value => store_sim a value
  | jump a => exact .bind (address_sim a) fun a => setPc_sim a
  | branch_zero i a =>
      exact .bind (register_sim i) fun value => .bind (address_sim a) fun a =>
        .ite (setPc_sim a) (.pure ())
  | halt => exact .bind (setPc_sim before_pc) fun _ => halt_sim

end Simulation

/-! ## Every operation keeps the bounds -/

/-- An operation that writes an operand writes one of 32 bits. -/
def Operation.Bounded : Operation → Prop
  | .stack_const value => int32 value = true
  | .register_const _ value => int32 value = true
  | _ => True

/-- A valid state, whatever its `pc`. -/
def Shaped (s : State) : Prop := Valid { s with pc := 0 }

theorem reads_triple {α : Type} {view : State → Option α} {P : State → Prop} {Q : α → State → Prop}
    (holds : ∀ {s a}, P s → view s = some a → Q a s) :
    Triple P (Predicted.reads view) Q := by
  intro s meets a s' ran
  cases seen : view s with
  | none => simp [Predicted.reads, seen] at ran
  | some b =>
      simp [Predicted.reads, seen] at ran
      obtain ⟨rfl, rfl⟩ := ran
      exact holds meets seen

theorem change_triple {later : State → State} {P : State → Prop} {Q : Unit → State → Prop}
    (holds : ∀ {s}, P s → Q () (later s)) : Triple P (Predicted.change later) Q := by
  intro s meets _ s' ran
  cases ran
  exact holds meets

theorem int32_wrap (value : Int) : int32 (wrap value) = true := by
  have lower := @Int.le_bmod value 4294967296 (by decide)
  have upper := @Int.bmod_lt value 4294967296 (by decide)
  rw [int32, wrap, Bool.and_eq_true]
  constructor
  · exact decide_eq_true (by omega)
  · exact decide_eq_true (by omega)

theorem bounded_some {value : Int} : Bounded (some value) ↔ int32 value = true :=
  ⟨fun bounded => bounded value rfl, fun bound _ same => Option.some.inj same ▸ bound⟩

theorem register_triple (i : Int) :
    Triple Shaped (Predicted.register i) fun value s => Shaped s ∧ int32 value = true := by
  apply reads_triple
  intro s value shaped found
  split_ifs at found with known
  refine ⟨shaped, bounded_some.1 (shaped.register_cells _ ?_)⟩
  rw [Option.join_eq_some_iff] at found
  exact List.mem_of_getElem? found

theorem destination_triple (i : Int) :
    Triple Shaped (Predicted.destination i) fun _ s => Shaped s :=
  reads_triple fun shaped _ => shaped

theorem setRegister_triple (i : Nat) {value : Int} (bound : int32 value = true) :
    Triple Shaped (Predicted.setRegister i value) fun _ s => Shaped s := by
  apply change_triple
  intro s shaped
  refine { shaped with registers := ?_, register_cells := ?_ }
  · simpa using shaped.registers
  · intro cell member
    rcases List.mem_or_eq_of_mem_set member with member | rfl
    · exact shaped.register_cells cell member
    · exact bounded_some.2 bound

theorem stack_triple :
    Triple Shaped Predicted.stack fun value s =>
      (Shaped s ∧ s.stack.length < 128) ∧ int32 value = true := by
  have top : Triple Shaped (Predicted.reads fun s => s.stack.getLast?.join) fun value s =>
      (Shaped s ∧ s.stack ≠ []) ∧ int32 value = true := by
    apply reads_triple
    intro s value shaped found
    rw [Option.join_eq_some_iff] at found
    have member := List.mem_of_getLast? found
    exact ⟨⟨shaped, List.ne_nil_of_mem member⟩, bounded_some.1 (shaped.stack_cells _ member)⟩
  refine .bind top fun value => .assume fun bound => .bind (Q := fun _ s =>
    Shaped s ∧ s.stack.length < 128) (change_triple ?_) fun _ => .pure _ fun s kept => ⟨kept, bound⟩
  rintro s ⟨shaped, some⟩
  have room : s.stack.length ≤ 128 := shaped.stack
  have more := List.length_pos_iff.2 some
  refine ⟨{ shaped with stack := ?_, stack_cells := ?_ }, ?_⟩
  · simp only [List.length_dropLast]
    omega
  · exact fun cell member => shaped.stack_cells cell (List.mem_of_mem_dropLast member)
  · simp only [List.length_dropLast]
    omega

theorem push_triple {value : Int} (bound : int32 value = true) :
    Triple (fun s => Shaped s ∧ s.stack.length < 128) (Predicted.push value) fun _ s =>
      Shaped s := by
  apply change_triple
  rintro s ⟨shaped, room⟩
  refine { shaped with stack := ?_, stack_cells := ?_ }
  · simp only [List.length_append, List.length_singleton]
    omega
  · intro cell member
    rcases List.mem_append.1 member with member | last
    · exact shaped.stack_cells cell member
    · rw [List.mem_singleton.1 last]
      exact bounded_some.2 bound

theorem stackLength_triple :
    Triple Shaped Predicted.stackLength fun length s => Shaped s ∧ length = s.stack.length := by
  apply reads_triple
  intro s length shaped same
  exact ⟨shaped, (Option.some.inj same).symm⟩

theorem load_triple (i : Int) :
    Triple Shaped (Predicted.load i) fun value s => Shaped s ∧ int32 value = true := by
  apply reads_triple
  intro s value shaped found
  split_ifs at found with inside
  obtain ⟨row, found, known⟩ := Option.bind_eq_some_iff.1 found
  have bounded := (shaped.memory_cells row (List.mem_of_find?_eq_some found)).2
  rw [known] at bounded
  exact ⟨shaped, bounded_some.1 bounded⟩

theorem address_triple (i : Int) :
    Triple Shaped (Predicted.address i) fun a s => Shaped s ∧ a ≤ 65535 :=
  .ite (fun inside => .pure _ fun _ shaped => ⟨shaped, by omega⟩) fun _ => .fail _

theorem setPc_triple (pc : Nat) : Triple Shaped (Predicted.setPc pc) fun _ s => Shaped s :=
  change_triple fun shaped => shaped

theorem halt_triple : Triple Shaped Predicted.halt fun _ s => Shaped s :=
  change_triple fun shaped => { shaped with }

/-! ### Stored cells -/

theorem map_fst_assign (a : Nat) (v : Cell) (memory : List (Nat × Cell)) :
    (Predicted.assign a v memory).map Prod.fst = memory.map Prod.fst := by
  induction memory with
  | nil => rfl
  | cons row memory ih =>
      rw [Predicted.assign]
      split_ifs with here
      · rfl
      · rw [List.map_cons, ih, List.map_cons]

theorem mem_assign {a : Nat} {v : Cell} {memory : List (Nat × Cell)} {row : Nat × Cell}
    (member : row ∈ Predicted.assign a v memory) : row ∈ memory ∨ (row.1 = a ∧ row.2 = v) := by
  induction memory with
  | nil => exact .inl member
  | cons first memory ih =>
      rw [Predicted.assign] at member
      split_ifs at member with here
      · rcases List.mem_cons.1 member with rfl | member
        · exact .inr ⟨here, rfl⟩
        · exact .inl (by simp [member])
      · rcases List.mem_cons.1 member with rfl | member
        · exact .inl (by simp)
        · exact (ih member).imp (by simp +contextual) id

theorem store_triple {a : Nat} (small : a ≤ 65535) {value : Int} (bound : int32 value = true) :
    Triple Shaped (Predicted.store a value) fun _ s => Shaped s := by
  refine .bind (Q := fun memory s => Shaped s ∧ Shaped { s with memory })
    (reads_triple fun {s memory} shaped found => ⟨shaped, ?_⟩) fun memory =>
    change_triple fun shaped => shaped.2
  rw [Predicted.stored] at found
  have increasing : (s.memory.map Prod.fst).Pairwise (· < ·) := List.pairwise_map.2 shaped.sorted
  split_ifs at found with known full
  · cases found
    refine { shaped with memory := ?_, memory_cells := ?_, sorted := ?_ }
    · rw [← List.length_map Prod.fst, map_fst_assign, List.length_map]
      exact shaped.memory
    · intro row member
      rcases mem_assign member with member | ⟨rfl, stored⟩
      · exact shaped.memory_cells row member
      · exact ⟨small, stored ▸ bounded_some.2 bound⟩
    · rw [← @List.pairwise_map _ _ Prod.fst (· < ·), map_fst_assign]
      exact increasing
  · cases found
    refine { shaped with memory := ?_, memory_cells := ?_, sorted := ?_ }
    · rw [List.length_insertionSort, List.length_append]
      exact Nat.not_le.1 full
    · intro row member
      rw [List.mem_insertionSort, List.mem_append, List.mem_singleton] at member
      rcases member with member | rfl
      · exact shaped.memory_cells row member
      · exact ⟨small, bounded_some.2 bound⟩
    · exact sorted_insert increasing known

theorem perform_triple (before_pc : Nat) {operation : Operation} (bounded : operation.Bounded) :
    Triple Shaped (Predicted.perform before_pc operation) fun _ s => Shaped s := by
  cases operation with
  | stack_const value =>
      refine .bind stackLength_triple fun length => .ite (fun _ => .fail _) fun room => ?_
      rintro s ⟨shaped, rfl⟩
      exact push_triple bounded ⟨shaped, Nat.not_le.1 room⟩
  | stack_add =>
      exact .bind stack_triple fun right => .assume fun _ =>
        .bind (fun _ shaped => stack_triple shaped.1) fun left => .assume fun _ =>
        push_triple (int32_wrap _)
  | register_const i value =>
      exact .bind (destination_triple i) fun i => setRegister_triple i bounded
  | register_add i l r =>
      exact .bind (register_triple l) fun left => .assume fun _ =>
        .bind (register_triple r) fun right => .assume fun _ =>
        .bind (destination_triple i) fun i => setRegister_triple i (int32_wrap _)
  | load i a =>
      exact .bind (load_triple a) fun value => .assume fun bound =>
        .bind (destination_triple i) fun i => setRegister_triple i bound
  | store a i =>
      exact .bind (address_triple a) fun a => .assume fun small =>
        .bind (register_triple i) fun value => .assume fun bound => store_triple small bound
  | jump a => exact .bind (address_triple a) fun a => .assume fun _ => setPc_triple a
  | branch_zero i a =>
      exact .bind (register_triple i) fun value => .assume fun _ =>
        .bind (address_triple a) fun a => .assume fun _ =>
        .ite (fun _ => setPc_triple a) fun _ => .pure _ fun _ shaped => shaped
  | halt => exact .bind (setPc_triple before_pc) fun _ => halt_triple

/-! ## Predictions -/

/-- A step object over its operands and the state before it. -/
def HoldsStep (heap : List Object) (at_ : Nat) (s : Step) : Prop :=
  ∃ fields : StepObject, heap[at_]? = some (.step fields)
    ∧ fields.instruction_size = s.instruction_size
    ∧ heap[fields.operands]? = some (.operands s.operands) ∧ Holds heap fields.before s.before

theorem Holds.mono {heap heap' : List Object} {at_ : Nat} {s : State} (holds : Holds heap at_ s)
    (kept : heap <+: heap') : Holds heap' at_ s := by
  obtain ⟨fields, rows, held⟩ := holds
  exact ⟨fields, rows, held.mono kept⟩

theorem HoldsStep.mono {heap heap' : List Object} {at_ : Nat} {s : Step}
    (holds : HoldsStep heap at_ s) (kept : heap <+: heap') : HoldsStep heap' at_ s := by
  obtain ⟨fields, found, size, operands, before⟩ := holds
  exact ⟨fields, getElem?_of_extends kept found, size, getElem?_of_extends kept operands,
    before.mono kept⟩

namespace Predicted

/-- What is predicted from the state before a step; the answer is the clone. -/
def predict (next before_pc instruction_size : Nat) (operands : List Int)
    (operation architecture : String) : Computed Nat := do
  setPc ((← getPc) + instruction_size)
  if (operation.startsWith "stack_" ∧ architecture ≠ "stack")
      ∨ (operation.startsWith "register_" ∧ architecture ≠ "register") then unsupported
  else
    match Operation.named operation operands with
    | none => unsupported
    | some operation => do
        perform before_pc operation
        if 65535 < (← getPc) then unsupported else pure next

end Predicted

theorem named_bounded {operation : String} {operands : List Int} {named : Operation}
    (bounds : ∀ operand ∈ operands, int32 operand = true)
    (found : Operation.named operation operands = some named) : named.Bounded := by
  unfold Operation.named at found
  split at found
  all_goals cases found
  all_goals simp_all [Operation.Bounded]

theorem predict_triple (next before_pc size : Nat) {operands : List Int}
    (bounds : ∀ operand ∈ operands, int32 operand = true) (operation architecture : String) :
    Triple Shaped (Predicted.predict next before_pc size operands operation architecture)
      fun answer s => answer = next ∧ Valid s := by
  refine .bind (Q := fun _ s => Shaped s) (reads_triple fun shaped _ => shaped) fun pc =>
    .bind (setPc_triple _) fun _ => .ite (fun _ => .fail _) fun _ => ?_
  cases found : Operation.named operation operands with
  | none => exact .fail _
  | some operation =>
      refine .bind (perform_triple before_pc (named_bounded bounds found)) fun _ =>
        .bind (Q := fun pc s => Shaped s ∧ pc = s.pc)
          (reads_triple fun shaped same => ⟨shaped, (Option.some.inj same).symm⟩) fun pc =>
        .ite (fun _ => .fail _) fun small => .pure next ?_
      rintro s ⟨shaped, rfl⟩
      exact ⟨rfl, { shaped with pc := Nat.not_lt.1 small }⟩

theorem predictNext_sim {old : List Object} {before : Nat} {s : State} (holds : Holds old before s)
    (next size : Nat) (operands : List Int) (operation architecture : String) :
    Simulates (Shows old next) (predictNext next before size operands operation architecture)
      (Predicted.predict next s.pc size operands operation architecture) := by
  have before_sim : Simulates (Shows old next) (getPc before)
      (pure s.pc : Predicted.Computed Nat) := by
    rintro value heap ⟨kept, shown⟩
    obtain ⟨fields, rows, held⟩ := holds.mono kept
    rw [getPc, run_bind_ok held.readState, held.pc]
    exact ⟨rfl, kept, shown⟩
  refine .bind getPc_sim fun pc => .bind (setPc_sim (pc + size)) fun _ => .ite unsupported_sim ?_
  cases Operation.named operation operands with
  | none => exact unsupported_sim
  | some operation =>
      exact .bind (f := pure s.pc) (g := fun pc => do
        Predicted.perform pc operation
        if 65535 < (← Predicted.getPc) then Predicted.unsupported else pure next) before_sim
        fun pc => .bind (perform_sim pc operation) fun _ => .bind getPc_sim fun pc =>
        .ite unsupported_sim (.pure next)

/-- `predict` does to the objects of a clone what is predicted of the state. -/
theorem predict_run {heap : List Object} {at_ : Nat} {s : Step} (holds : HoldsStep heap at_ s)
    (operation architecture : String) :
    ∃ next, ∀ answer later, (Predicted.predict next s.before.pc s.instruction_size s.operands
        operation architecture).run s.before = (answer, later) →
      ((predict at_ operation architecture).run heap).1 = answer
        ∧ Shows heap next later ((predict at_ operation architecture).run heap).2 := by
  obtain ⟨fields, found, size, operands, before⟩ := holds
  obtain ⟨next, heap', cloned, shown⟩ := clone_run before
  refine ⟨next, fun answer later computed => ?_⟩
  have agrees := predictNext_sim before next s.instruction_size s.operands operation architecture
    shown
  rw [computed] at agrees
  have step : (Heap.Program.read "TypeError" Object.step? at_).run heap = (.ok fields, heap) :=
    run_read found rfl
  have values : (Heap.Program.read "TypeError" Object.operands? fields.operands).run heap'
      = (.ok s.operands, heap') := run_read (getElem?_of_extends shown.1 operands) rfl
  rw [predict, run_bind_ok step, run_bind_ok cloned, run_bind_ok values, size]
  exact agrees

/-- Whatever is predicted is a state the module accepts, and the objects a prediction was
made from are as they were. -/
theorem predict_kept {input : Js.Value} {v : Trace} (accepted : trace input = .ok v) {s : Step}
    (member : s ∈ v.steps) {heap : List Object} {at_ : Nat} (holds : HoldsStep heap at_ s)
    (operation architecture : String) :
    let (answer, heap') := (predict at_ operation architecture).run heap
    heap <+: heap' ∧ HoldsStep heap' at_ s
      ∧ ∀ next, answer = .ok next → ∃ later, Holds heap' next later ∧ state later.value = .ok later := by
  have valid := trace_sound accepted s member
  obtain ⟨next, agrees⟩ := predict_run holds operation architecture
  rcases computed : (Predicted.predict next s.before.pc s.instruction_size s.operands operation
    architecture).run s.before with ⟨answer, later⟩
  obtain ⟨same, kept, fields, rows, layout⟩ := agrees answer later computed
  refine ⟨kept, holds.mono kept, fun next' given => ?_⟩
  have shaped : Shaped s.before := { valid.before with pc := by simp }
  rw [same] at given
  subst given
  obtain ⟨named, bounds⟩ := predict_triple _ _ _ valid.operands _ _ shaped computed
  exact ⟨later, named ▸ ⟨fields, rows, layout.toHeld⟩, (state_value_iff later).2 bounds⟩

/-! ### A step of one constant -/

def fixtureHeap : List Object :=
  [.cells [some 1], .cells [none], .row 4 none, .rows [2],
    .state { pc := 0, halted := false, registers := 0, stack := 1, memory := 3 }, .operands [7],
    .step { operands := 5, instruction_size := 2, before := 4 }]

theorem fixture_holds : HoldsStep fixtureHeap 6 fixtureStep :=
  ⟨{ operands := 5, instruction_size := 2, before := 4 }, rfl, rfl, rfl,
    { pc := 0, halted := false, registers := 0, stack := 1, memory := 3 }, [2],
    ⟨rfl, rfl, rfl, rfl, rfl, rfl, .cons rfl .nil⟩⟩

theorem predict_kept_fixture :
    ∃ heap' later, (predict 6 "stack_const" "stack").run fixtureHeap = (.ok 11, heap')
      ∧ fixtureHeap <+: heap' ∧ HoldsStep heap' 6 fixtureStep ∧ Holds heap' 11 later
      ∧ state later.value = .ok later := by
  have answered : ((predict 6 "stack_const" "stack").run fixtureHeap).1 = .ok 11 := by
    decide +kernel
  obtain ⟨kept, step, valid⟩ := predict_kept trace_fixture (List.mem_singleton.2 rfl) fixture_holds
    "stack_const" "stack"
  obtain ⟨later, held, read⟩ := valid 11 answered
  exact ⟨_, later, Prod.ext answered rfl, kept, step, held, read⟩

end Reb.Vm.Semantics
