/-
# Vm.SemanticsPredict -- hypothesis prediction over the objects of a step

`predict` clones the state before the step and changes the clone in place.  The objects a
checked step is made of live in a heap: records, register files, stacks, the memory array
and its cells, each at an address of its own or shared.
-/
import Reb.Theory.HeapProgram
import Reb.Vm.SemanticsTrace

namespace Reb.Vm.Semantics

open Reb.Theory

set_option autoImplicit false

/-- A state object: its numbers and the addresses of its arrays. -/
structure StateObject where
  pc : Nat
  halted : Bool
  registers : Nat
  stack : Nat
  memory : Nat
  deriving DecidableEq, Repr

/-- The fields of a step that `predict` reads. -/
structure StepObject where
  operands : Nat
  instruction_size : Nat
  before : Nat
  deriving DecidableEq, Repr

inductive Object where
  | step (fields : StepObject)
  | operands (values : List Int)
  | state (fields : StateObject)
  | cells (values : List Cell)
  | rows (rows : List Nat)
  | row (address : Nat) (value : Cell)
  deriving DecidableEq, Repr

namespace Object

def step? : Object → Option StepObject
  | .step fields => some fields
  | _ => none

def operands? : Object → Option (List Int)
  | .operands values => some values
  | _ => none

def state? : Object → Option StateObject
  | .state fields => some fields
  | _ => none

def cells? : Object → Option (List Cell)
  | .cells values => some values
  | _ => none

def rows? : Object → Option (List Nat)
  | .rows items => some items
  | _ => none

def row? : Object → Option (Nat × Cell)
  | .row address value => some (address, value)
  | _ => none

end Object

abbrev Program (α : Type) := Heap.Program String (List Object) α

open Heap.Program (read readAll alloc allocAll write)

/-- The record and its array of registers. -/
def readState (state : Nat) : Program StateObject := read "TypeError" Object.state? state

def readCells (cells : Nat) : Program (List Cell) := read "TypeError" Object.cells? cells

def readRows (rows : Nat) : Program (List Nat) := read "TypeError" Object.rows? rows

/-- `JSON.parse(JSON.stringify(v))` of a state. -/
def clone (state : Nat) : Program Nat := do
  let fields ← readState state
  let registers ← alloc (.cells (← readCells fields.registers))
  let stack ← alloc (.cells (← readCells fields.stack))
  let rows ← readAll "TypeError" Object.row? (← readRows fields.memory)
  let memory ← alloc (.rows (← allocAll (rows.map fun row => .row row.1 row.2)))
  alloc (.state { fields with registers, stack, memory })

def unsupportedMessage : String := "Unsupported or unknown operand/state"

def unsupported {α : Type} : Program α := Heap.Program.fail unsupportedMessage

def address (i : Int) : Program Nat :=
  if 0 ≤ i ∧ i ≤ 65535 then pure i.toNat else unsupported

/-- `|0` -/
def wrap (value : Int) : Int := value.bmod 4294967296

section Next

variable (next : Nat)

def register (i : Int) : Program Int := do
  let cells ← readCells (← readState next).registers
  match if 0 ≤ i then cells[i.toNat]? else none with
  | some (some value) => pure value
  | _ => unsupported

def destination (i : Int) : Program Nat := do
  let cells ← readCells (← readState next).registers
  if 0 ≤ i ∧ i < cells.length then pure i.toNat else unsupported

/-- `next.registers[i] = value` -/
def setRegister (i : Nat) (value : Cell) : Program Unit := do
  let fields ← readState next
  let cells ← readCells fields.registers
  write fields.registers (.cells (cells.set i value))

/-- `stack()`: the popped value. -/
def stack : Program Int := do
  let fields ← readState next
  let cells ← readCells fields.stack
  match cells.getLast? with
  | some (some value) => do
      write fields.stack (.cells cells.dropLast)
      pure value
  | _ => unsupported

def push (value : Int) : Program Unit := do
  let fields ← readState next
  let cells ← readCells fields.stack
  write fields.stack (.cells (cells ++ [some value]))

def stackLength : Program Nat := do
  let cells ← readCells (← readState next).stack
  pure cells.length

/-- The cells of the memory array with their addresses in the heap. -/
def memory : Program (List (Nat × Nat × Cell)) := do
  let rows ← readRows (← readState next).memory
  let cells ← readAll "TypeError" Object.row? rows
  pure (rows.zip cells)

def load (i : Int) : Program Int := do
  let rows ← memory next
  -- The callback checks the operand, so an empty memory does not.
  let found ← if rows = [] then pure none else do
    let address ← address i
    pure (rows.find? fun row => row.2.1 = address)
  match found with
  | some (_, _, some value) => pure value
  | _ => unsupported

def store (a : Nat) (value : Int) : Program Unit := do
  let rows ← memory next
  match rows.find? fun row => row.2.1 = a with
  | some (row, address, _) => write row (.row address (some value))
  | none =>
      if 256 ≤ rows.length then unsupported
      else do
        let row ← alloc (.row a (some value))
        let sorted := (rows ++ [(row, a, some value)]).insertionSort fun x y => x.2.1 ≤ y.2.1
        write (← readState next).memory (.rows (sorted.map Prod.fst))

def getPc : Program Nat := do
  pure (← readState next).pc

def setPc (pc : Nat) : Program Unit := do
  let fields ← readState next
  write next (.state { fields with pc })

def halt : Program Unit := do
  let fields ← readState next
  write next (.state { fields with halted := true })

end Next

/-- An operation with its operands. -/
inductive Operation where
  | stack_const (value : Int)
  | stack_add
  | register_const (i value : Int)
  | register_add (i left right : Int)
  | load (i address : Int)
  | store (address i : Int)
  | jump (address : Int)
  | branch_zero (i address : Int)
  | halt
  deriving DecidableEq, Repr

/-- The case of the `switch`, by its name and its `arity`. -/
def Operation.named (operation : String) (operands : List Int) : Option Operation :=
  match operation, operands with
  | "stack_const", [value] => some (.stack_const value)
  | "stack_add", [] => some .stack_add
  | "register_const", [i, value] => some (.register_const i value)
  | "register_add", [i, left, right] => some (.register_add i left right)
  | "load", [i, address] => some (.load i address)
  | "store", [address, i] => some (.store address i)
  | "jump", [address] => some (.jump address)
  | "branch_zero", [i, address] => some (.branch_zero i address)
  | "halt", [] => some .halt
  | _, _ => none

/-- The body of a case, on the clone at `next`. -/
def perform (next before_pc : Nat) : Operation → Program Unit
  | .stack_const value => do
      if 128 ≤ (← stackLength next) then unsupported else push next value
  | .stack_add => do
      let right ← stack next
      let left ← stack next
      push next (wrap (left + right))
  | .register_const i value => do
      setRegister next (← destination next i) value
  | .register_add i l r => do
      let left ← register next l
      let right ← register next r
      setRegister next (← destination next i) (wrap (left + right))
  | .load i a => do
      let value ← load next a
      setRegister next (← destination next i) value
  | .store a i => do
      let a ← address a
      store next a (← register next i)
  | .jump a => do
      setPc next (← address a)
  | .branch_zero i a => do
      let value ← register next i
      let a ← address a
      if value = 0 then setPc next a else pure ()
  | .halt => do
      setPc next before_pc
      halt next

/-- `predict` behind its reads of the step. -/
def predictNext (next before instruction_size : Nat) (operands : List Int)
    (operation architecture : String) : Program Nat := do
  setPc next ((← getPc next) + instruction_size)
  if (operation.startsWith "stack_" ∧ architecture ≠ "stack")
      ∨ (operation.startsWith "register_" ∧ architecture ≠ "register") then unsupported
  else
    match Operation.named operation operands with
    | none => unsupported
    | some operation => do
        perform next (← getPc before) operation
        if 65535 < (← getPc next) then unsupported else pure next

def predict (step : Nat) (operation architecture : String) : Program Nat := do
  let fields ← read "TypeError" Object.step? step
  let next ← clone fields.before
  let operands ← read "TypeError" Object.operands? fields.operands
  predictNext next fields.before fields.instruction_size operands operation architecture

end Reb.Vm.Semantics
