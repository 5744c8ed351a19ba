/-
# Vm.SemanticsTrace -- what `vm_semantics.js` accepts as a trace

`state` and `trace` read a parsed document into the record they have checked it to be;
`State.value` is the document of a state.  A state is accepted exactly when it is `Valid`
(`state_value_iff`), and every state of an accepted trace is (`trace_states`).
-/
import Reb.Theory.Fallible
import Reb.Theory.JsValue

namespace Reb.Vm.Semantics

open Reb.Theory
open Reb.Theory.Js

set_option autoImplicit false

/-- A cell: an integer, or `null` where the value is unknown. -/
abbrev Cell := Option Int

structure State where
  pc : Nat
  halted : Bool
  registers : List Cell
  stack : List Cell
  memory : List (Nat × Cell)
  deriving DecidableEq, Repr

def fail {α : Type} (message : String) : Except String α := .error message

/-- What a check that failed says. -/
def demand {α : Type} (answer : Option α) (message : String) : Except String α :=
  match answer with
  | some answer => .ok answer
  | none => fail message

/-- A check that fails where the condition holds. -/
def refuse (condition : Prop) [Decidable condition] (message : String) : Except String Unit :=
  if condition then fail message else .ok ()

def int32 (value : Int) : Bool := -2147483648 ≤ value && value ≤ 2147483647

def integer : Value → Option Int
  | .number number => number.integer?.filter int32
  | _ => none

def count : Value → Option Nat
  | .number number => (number.safeInteger?.filter (0 ≤ ·)).map Int.toNat
  | _ => none

def value : Value → Option Cell
  | .null => some none
  | v => (integer v).map some

def isLabelUnit (unit : UInt16) : Bool :=
  (65 ≤ unit && unit ≤ 90) || (97 ≤ unit && unit ≤ 122) || (48 ≤ unit && unit ≤ 57)
    || unit == 95 || unit == 46 || unit == 58 || unit == 45

/-- `/^[A-Za-z0-9_.:-]{1,128}$/` -/
def label (v : Value) : Option Text :=
  v.text?.filter fun text => 1 ≤ text.length && text.length ≤ 128 && text.all isLabelUnit

def isHexUnit (unit : UInt16) : Bool := (97 ≤ unit && unit ≤ 102) || (48 ≤ unit && unit ≤ 57)

/-- The loop over `v.memory` behind the address `previous`. -/
def cells : Int → List Value → Option (List (Nat × Cell))
  | _, [] => some []
  | previous, .array [address, v] :: rest => do
      let address ← count address
      guard (address ≤ 65535 ∧ previous < address)
      let v ← value v
      let rest ← cells address rest
      some ((address, v) :: rest)
  | _, _ => none

def state (v : Value) : Except String State :=
  match v.exact ["pc", "halted", "registers", "stack", "memory"] with
  | some [pc, .bool halted, .array registers, .array stack, .array memory] => do
      let shape := do
        let pc ← count pc
        guard (pc ≤ 65535 ∧ registers.length ≤ 64 ∧ stack.length ≤ 128 ∧ memory.length ≤ 256)
        some (pc, ← registers.mapM value, ← stack.mapM value)
      let (pc, registers, stack) ← demand shape "Invalid bounded VM state"
      let memory ← demand (cells (-1) memory) "Memory must contain sorted unique bounded addresses"
      return { pc, halted, registers, stack, memory }
  | _ => fail "Invalid bounded VM state"

/-! ## Traces -/

structure Identity where
  trace_id : Text
  investigation_id : Text
  finding_id : Text
  artifact_id : Text
  artifact_sha256 : Text
  scope_id : Text
  backend : Text
  deriving DecidableEq, Repr

structure Coverage where
  complete : Bool
  dropped_steps : Nat
  limitations : List Text
  deriving DecidableEq, Repr

structure Step where
  sequence : Nat
  opcode : Text
  operands : List Int
  instruction_size : Nat
  before : State
  after : State
  evidence_refs : List Text
  deriving DecidableEq, Repr

structure Trace where
  identity : Identity
  architecture : Text
  coverage : Coverage
  steps : List Step
  deriving DecidableEq, Repr

mutual

/-- `check`, with the count of the nodes seen. -/
def check (depth nodes : Nat) (v : Value) : Except String Nat :=
  if nodes + 1 > 600000 ∨ depth > 64 then fail "Trace structure exceeds bounds"
  else
    match v with
    | .number number =>
        if number.safeInteger?.isNone ∨ number = .negativeZero then
          fail "Trace numbers must be exact safe integers"
        else .ok (nodes + 1)
    | .array items => checkItems (depth + 1) (nodes + 1) items
    | .object members => checkMembers (depth + 1) (nodes + 1) members
    | _ => .ok (nodes + 1)

def checkItems (depth nodes : Nat) : List Value → Except String Nat
  | [] => .ok nodes
  | item :: items => do checkItems depth (← check depth nodes item) items

def checkMembers (depth nodes : Nat) : List (String × Value) → Except String Nat
  | [] => .ok nodes
  | (_, item) :: members => do checkMembers depth (← check depth nodes item) members

end

def identity (v : Value) : Option Identity := do
  match ← v.exact ["trace_id", "investigation_id", "finding_id", "artifact_id", "artifact_sha256",
      "scope_id", "backend"] with
  | [trace_id, investigation_id, finding_id, artifact_id, .string artifact_sha256, scope_id,
      .string backend] =>
      guard (backend ∈ ["fixture", "native", "cdp", "external"].map units)
      guard (artifact_sha256.length = 64 ∧ artifact_sha256.all isHexUnit)
      some { trace_id := ← label trace_id, investigation_id := ← label investigation_id
             finding_id := ← label finding_id, artifact_id := ← label artifact_id
             artifact_sha256, scope_id := ← label scope_id, backend }
  | _ => none

def limitation (v : Value) : Option Text := v.text?.filter (·.length ≤ 256)

def coverage (v : Value) : Option Coverage := do
  match ← v.exact ["complete", "dropped_steps", "limitations"] with
  | [.bool complete, dropped_steps, .array limitations] =>
      guard (limitations.length ≤ 16)
      some { complete, dropped_steps := ← count dropped_steps
             limitations := ← limitations.mapM limitation }
  | _ => none

/-- `/^[a-f0-9]{2}(?:[a-f0-9]{2}){0,7}$/` -/
def opcode (text : Text) : Bool :=
  2 ≤ text.length && text.length ≤ 16 && text.length % 2 == 0 && text.all isHexUnit

def step (v : Value) : Except String Step := do
  match v.exact ["sequence", "opcode", "operands", "instruction_size", "before", "after",
      "evidence_refs"] with
  | some [sequence, .string code, .array operands, instruction_size, before, after,
      .array evidence_refs] => do
      let shape := do
        let sequence ← count sequence
        guard (opcode code ∧ operands.length ≤ 8)
        let operands ← operands.mapM integer
        let size ← integer instruction_size
        guard (1 ≤ size ∧ size ≤ 64)
        guard (1 ≤ evidence_refs.length ∧ evidence_refs.length ≤ 8)
        some (sequence, operands, size.toNat, ← evidence_refs.mapM label)
      let (sequence, operands, instruction_size, evidence_refs) ←
        demand shape "Invalid bounded VM step"
      let before ← state before
      let after ← state after
      return { sequence, opcode := code, operands, instruction_size, before, after, evidence_refs }
  | _ => fail "Invalid bounded VM step"

/-- What a step must keep of the step before it. -/
def follows (complete : Bool) (previous : Option Step) (next : Step) : Except String Unit :=
  match previous with
  | none => .ok ()
  | some previous => do
      refuse (next.sequence ≤ previous.sequence) "Steps must have increasing unique sequence IDs"
      refuse (next.sequence = previous.sequence + 1 ∧ previous.after ≠ next.before)
        "Adjacent supplied states disagree"
      refuse (next.sequence ≠ previous.sequence + 1 ∧ complete)
        "Complete coverage cannot contain sequence gaps"

/-- The loop over `v.steps` behind the step `previous`. -/
def steps (complete : Bool) : Option Step → List Value → Except String (List Step)
  | _, [] => .ok []
  | previous, v :: rest => do
      let next ← step v
      follows complete previous next
      refuse next.before.halted "A halted state cannot execute a step"
      let rest ← steps complete (some next) rest
      return next :: rest

/-- A document is read back from its own text, so `v` is the document itself. -/
def trace (input : Value) : Except String Trace := do
  let _ ← check 0 0 input
  refuse (encodedLength (stringify input) > 1048576) "Trace exceeds 1 MiB"
  match input.exact ["format", "identity", "architecture", "coverage", "steps"] with
  | some [.string format, identified, .string architecture, covered, .array retained] => do
      let shape := do
        guard (format = units "reb-vm-trace-v1")
        guard (architecture ∈ ["stack", "register"].map units)
        let identity ← identity identified
        let coverage ← coverage covered
        guard (retained.length ≤ 256 ∧ retained ≠ [])
        some (identity, coverage)
      let (identity, coverage) ←
        demand shape "Invalid reb-vm-trace-v1 identity, coverage or bounds"
      refuse (coverage.complete ∧ coverage.dropped_steps ≠ 0)
        "Complete coverage cannot include dropped steps"
      let steps ← steps coverage.complete none retained
      return { identity, architecture, coverage, steps }
  | _ => fail "Invalid reb-vm-trace-v1 identity, coverage or bounds"

/-! ## Valid states -/

def Bounded (cell : Cell) : Prop := ∀ n, cell = some n → int32 n = true

structure Valid (state : State) : Prop where
  pc : state.pc ≤ 65535
  registers : state.registers.length ≤ 64
  stack : state.stack.length ≤ 128
  memory : state.memory.length ≤ 256
  register_cells : ∀ cell ∈ state.registers, Bounded cell
  stack_cells : ∀ cell ∈ state.stack, Bounded cell
  memory_cells : ∀ row ∈ state.memory, row.1 ≤ 65535 ∧ Bounded row.2
  sorted : state.memory.Pairwise fun a b => a.1 < b.1

def Cell.value : Cell → Value
  | none => .null
  | some n => .number (.integer n)

def rowValue (row : Nat × Cell) : Value := .array [.number (.integer row.1), Cell.value row.2]

/-- The document of a state. -/
def State.value (state : State) : Value :=
  .object [("pc", .number (.integer state.pc)), ("halted", .bool state.halted),
    ("registers", .array (state.registers.map Cell.value)),
    ("stack", .array (state.stack.map Cell.value)),
    ("memory", .array (state.memory.map rowValue))]

theorem integer_bounded {v : Value} {n : Int} (read : integer v = some n) : int32 n = true := by
  cases v with
  | number number => exact (Option.filter_eq_some_iff.1 read).2
  | _ => cases read

theorem value_bounded {v : Value} {cell : Cell} (read : value v = some cell) : Bounded cell := by
  intro n same
  subst same
  cases v with
  | null => cases read
  | number number =>
      obtain ⟨m, read, same⟩ := Option.map_eq_some_iff.1 read
      exact Option.some.inj same ▸ integer_bounded read
  | _ => cases read

theorem value_value {cell : Cell} (bounded : Bounded cell) : value cell.value = some cell := by
  cases cell with
  | none => rfl
  | some n => simp [Cell.value, value, integer, Number.integer?, bounded n rfl]

theorem cells_sound {previous : Int} {vs : List Value} {rows : List (Nat × Cell)}
    (read : cells previous vs = some rows) :
    rows.length = vs.length ∧ (∀ row ∈ rows, previous < row.1 ∧ row.1 ≤ 65535 ∧ Bounded row.2)
      ∧ rows.Pairwise fun a b => a.1 < b.1 := by
  fun_induction cells previous vs generalizing rows with
  | case1 => simp_all
  | case2 previous address v rest ih =>
      simp only [Option.bind_eq_bind, Option.bind_eq_some_iff, Option.guard_eq_some'] at read
      obtain ⟨address, -, -, ⟨small, above⟩, cell, reads, rows, more, same⟩ := read
      cases same
      obtain ⟨lengths, bounds, sorted⟩ := ih address more
      refine ⟨by simp [lengths], ?_, List.pairwise_cons.2 ⟨fun row member => ?_, sorted⟩⟩
      · intro row member
        rcases List.mem_cons.1 member with rfl | member
        · exact ⟨above, small, value_bounded reads⟩
        · obtain ⟨later, bound, bounded⟩ := bounds row member
          exact ⟨above.trans later, bound, bounded⟩
      · exact_mod_cast (bounds row member).1
  | case3 => cases read

theorem count_integer {n : Nat} (small : n ≤ 65535) : count (.number (.integer n)) = some n := by
  simp [count, Number.safeInteger?, Number.integer?, maxSafeInteger]
  omega

theorem cells_rows {previous : Int} {rows : List (Nat × Cell)}
    (bounds : ∀ row ∈ rows, previous < row.1 ∧ row.1 ≤ 65535 ∧ Bounded row.2)
    (sorted : rows.Pairwise fun a b => a.1 < b.1) :
    cells previous (rows.map rowValue) = some rows := by
  induction rows generalizing previous with
  | nil => rfl
  | cons row rows ih =>
      obtain ⟨above, small, bounded⟩ := bounds row (by simp)
      obtain ⟨least, sorted⟩ := List.pairwise_cons.1 sorted
      have counted := count_integer small
      have more := @ih row.1 (fun later member => ⟨by exact_mod_cast least later member,
        (bounds later (by simp [member])).2⟩) sorted
      simp [cells, rowValue, counted, small, above, value_value bounded, more]

@[simp] theorem demand_eq_ok {α : Type} {answer : Option α} {message : String} {a : α} :
    demand answer message = .ok a ↔ answer = some a := by
  cases answer <;> simp [demand, fail]

theorem mapM_value_value {cells : List Cell} (bounded : ∀ cell ∈ cells, Bounded cell) :
    (cells.map Cell.value).mapM value = some cells := by
  rw [Fallible.mapM_eq_some, List.forall₂_map_left_iff, List.forall₂_same]
  exact fun cell member => value_value (bounded cell member)

theorem state_sound {v : Value} {s : State} (read : state v = .ok s) : Valid s := by
  rw [state] at read
  split at read
  · simp only [Fallible.bind_eq_ok, demand_eq_ok, Option.bind_eq_bind, Option.bind_eq_some_iff,
      Option.guard_eq_some'] at read
    obtain ⟨⟨pc, registers, stack⟩, ⟨_, -, _, ⟨small, few, shallow, room⟩, _, reads, _, reads',
      shape⟩, memory, rows, same⟩ := read
    cases shape
    cases same
    obtain ⟨lengths, bounded⟩ := Fallible.forall_of_mapM value_bounded reads
    obtain ⟨lengths', bounded'⟩ := Fallible.forall_of_mapM value_bounded reads'
    obtain ⟨lengths'', bounds, sorted⟩ := cells_sound rows
    exact ⟨small, lengths ▸ few, lengths' ▸ shallow, lengths'' ▸ room, bounded, bounded',
      fun row member => (bounds row member).2, sorted⟩
  · cases read

theorem exact_value (s : State) :
    s.value.exact ["pc", "halted", "registers", "stack", "memory"]
      = some [.number (.integer s.pc), .bool s.halted, .array (s.registers.map Cell.value),
        .array (s.stack.map Cell.value), .array (s.memory.map rowValue)] := by
  rfl


theorem state_value_iff (s : State) : state s.value = .ok s ↔ Valid s := by
  refine ⟨state_sound, fun valid => ?_⟩
  have rows := @cells_rows (-1) _ (fun row member =>
    ⟨by omega, valid.memory_cells row member⟩) valid.sorted
  rw [state, exact_value]
  simp [count_integer valid.pc, valid.pc, valid.registers, valid.stack, valid.memory,
    mapM_value_value valid.register_cells, mapM_value_value valid.stack_cells, rows, demand, pure,
    Except.pure]

/-! ## Rows by address -/

/-- A new address sorted into increasing ones. -/
theorem sorted_insert {memory : List (Nat × Cell)} {row : Nat × Cell}
    (increasing : (memory.map Prod.fst).Pairwise (· < ·)) (absent : row.1 ∉ memory.map Prod.fst) :
    ((memory ++ [row]).insertionSort fun x y => x.1 ≤ y.1).Pairwise fun x y => x.1 < y.1 := by
  have total : Std.Total fun x y : Nat × Cell => x.1 ≤ y.1 := ⟨fun _ _ => Nat.le_total _ _⟩
  have trans : IsTrans _ fun x y : Nat × Cell => x.1 ≤ y.1 := ⟨fun _ _ _ => Nat.le_trans⟩
  have order := List.pairwise_insertionSort (fun x y : Nat × Cell => x.1 ≤ y.1) (memory ++ [row])
  have distinct : ((memory ++ [row]).map Prod.fst).Nodup := by
    rw [List.map_append, List.map_singleton, List.nodup_append_comm, List.singleton_append,
      List.nodup_cons]
    exact ⟨absent, increasing.imp Nat.ne_of_lt⟩
  have apart := ((List.perm_insertionSort (fun x y : Nat × Cell => x.1 ≤ y.1)
    (memory ++ [row])).map Prod.fst).nodup_iff.2 distinct
  exact (order.and (List.pairwise_map.1 apart)).imp fun both => Nat.lt_of_le_of_ne both.1 both.2

/-! ## Steps of a trace -/

/-- A step whose states are valid and whose operands and size are bounded. -/
structure Step.Valid (step : Step) : Prop where
  before : Semantics.Valid step.before
  after : Semantics.Valid step.after
  operands : ∀ operand ∈ step.operands, int32 operand = true
  size : 1 ≤ step.instruction_size ∧ step.instruction_size ≤ 64

theorem step_sound {v : Value} {s : Step} (read : step v = .ok s) : s.Valid := by
  rw [step] at read
  split at read
  · simp only [Fallible.bind_eq_ok, demand_eq_ok, Option.bind_eq_bind, Option.bind_eq_some_iff,
      Option.guard_eq_some'] at read
    obtain ⟨⟨sequence, operands, size, evidence_refs⟩, ⟨_, -, _, -, _, reads, n, -, _, sized, _, -,
      _, -, shape⟩, before, earlier, after, later, same⟩ := read
    cases shape
    cases same
    exact ⟨state_sound earlier, state_sound later,
      (Fallible.forall_of_mapM integer_bounded reads).2, by dsimp only; omega⟩
  · cases read

theorem steps_sound {complete : Bool} {previous : Option Step} {vs : List Value}
    {retained : List Step} (read : steps complete previous vs = .ok retained) :
    ∀ s ∈ retained, s.Valid := by
  induction vs generalizing previous retained with
  | nil =>
      cases read
      simp
  | cons v vs ih =>
      simp only [steps, Fallible.bind_eq_ok] at read
      obtain ⟨next, first, _, -, _, -, rest, others, same⟩ := read
      cases same
      intro s member
      rcases List.mem_cons.1 member with rfl | member
      · exact step_sound first
      · exact ih others s member

theorem trace_sound {input : Value} {v : Trace} (accepted : trace input = .ok v) :
    ∀ s ∈ v.steps, s.Valid := by
  simp only [trace, Fallible.bind_eq_ok] at accepted
  obtain ⟨_, -, _, -, accepted⟩ := accepted
  split at accepted
  · simp only [Fallible.bind_eq_ok] at accepted
    obtain ⟨_, -, _, -, retained, read, same⟩ := accepted
    cases same
    exact steps_sound read
  · cases accepted

/-! ### A trace of one step -/

def fixtureState : State :=
  { pc := 0, halted := false, registers := [some 1], stack := [none], memory := [(4, none)] }

def fixtureStep : Step :=
  { sequence := 0, opcode := units "0a", operands := [7], instruction_size := 2
    before := fixtureState, after := fixtureState, evidence_refs := [units "e1"] }

def fixture : Trace :=
  { identity :=
      { trace_id := units "t", investigation_id := units "i", finding_id := units "f"
        artifact_id := units "a", artifact_sha256 := List.replicate 64 48, scope_id := units "s"
        backend := units "fixture" }
    architecture := units "stack"
    coverage := { complete := true, dropped_steps := 0, limitations := [] }
    steps := [fixtureStep] }

def fixtureDocument : Value :=
  .object [("format", .string (units "reb-vm-trace-v1")),
    ("identity", .object [("trace_id", .string (units "t")),
      ("investigation_id", .string (units "i")), ("finding_id", .string (units "f")),
      ("artifact_id", .string (units "a")),
      ("artifact_sha256", .string (List.replicate 64 48)), ("scope_id", .string (units "s")),
      ("backend", .string (units "fixture"))]),
    ("architecture", .string (units "stack")),
    ("coverage", .object [("complete", .bool true), ("dropped_steps", .number (.integer 0)),
      ("limitations", .array [])]),
    ("steps", .array [.object [("sequence", .number (.integer 0)), ("opcode", .string (units "0a")),
      ("operands", .array [.number (.integer 7)]), ("instruction_size", .number (.integer 2)),
      ("before", fixtureState.value), ("after", fixtureState.value),
      ("evidence_refs", .array [.string (units "e1")])]])]

theorem trace_fixture : trace fixtureDocument = .ok fixture := by decide +kernel

end Reb.Vm.Semantics
