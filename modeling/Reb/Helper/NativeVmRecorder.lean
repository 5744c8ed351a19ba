/-
# Helper.NativeVmRecorder -- the fixed programs and what is kept of their run

The values, snapshots and steps of a guest program, and the recorder that keeps
at most 64 steps of one document until its deadline.  The storage is as the
source has it: eight slots whatever their count, a count beside them.  `Record`
has the source's order: who may record, then when, then what, then how much.

The register and the stack program compute twelve, store it, load it back, take
one branch of two and halt.  `next` is the dispatch on the program counter;
`executeOne` guards it, and its commit is the only place where the state or the
executed count changes.
-/
import Mathlib

namespace Reb.Helper

set_option autoImplicit false

/-! ## Guest state -/

inductive VmEvidence where
  | unknown | observed | inferred
  deriving DecidableEq, Repr

inductive VmLocation where
  | immediate | register | stack | memory
  deriving DecidableEq, Repr

inductive VmAccess where
  | read | write
  deriving DecidableEq, Repr

structure VmValue where
  bits : UInt64 := 0
  evidence : VmEvidence := .unknown
  deriving DecidableEq, Repr

structure VmMemoryCell where
  guestAddress : UInt64 := 0
  value : VmValue := {}
  deriving DecidableEq, Repr

structure VmSnapshot where
  pc : UInt64 := 0
  pcEvidence : VmEvidence := .unknown
  registerCount : UInt8 := 0
  stackCount : UInt8 := 0
  memoryCount : UInt8 := 0
  isPartial : Bool := false
  halted : Bool := false
  registers : Vector VmValue 8 := .replicate 8 {}
  stack : Vector VmValue 8 := .replicate 8 {}
  memory : Vector VmMemoryCell 8 := .replicate 8 {}
  deriving DecidableEq, Repr

structure VmOperand where
  location : VmLocation := .immediate
  index : UInt64 := 0
  value : VmValue := {}
  deriving DecidableEq, Repr

structure VmEffect where
  access : VmAccess := .read
  location : VmLocation := .register
  index : UInt64 := 0
  value : VmValue := {}
  deriving DecidableEq, Repr

structure VmStep where
  opcode : UInt32 := 0
  opcodeEvidence : VmEvidence := .unknown
  operandCount : UInt8 := 0
  effectCount : UInt8 := 0
  isPartial : Bool := false
  operands : Vector VmOperand 4 := .replicate 4 {}
  effects : Vector VmEffect 8 := .replicate 8 {}
  before : VmSnapshot := {}
  after : VmSnapshot := {}
  deriving DecidableEq, Repr

/-! ## What may be kept -/

def VmValue.valid (value : VmValue) : Bool := value.evidence != .unknown || value.bits == 0

/-- Unused storage cannot smuggle values into a retained snapshot. -/
def VmSnapshot.valid (state : VmSnapshot) : Bool :=
  (state.pcEvidence != .unknown || state.pc == 0)
    && state.registerCount ≤ 8 && state.stackCount ≤ 8 && state.memoryCount ≤ 8
    && (List.finRange 8).all fun i =>
      state.registers[i].valid && state.stack[i].valid && state.memory[i].value.valid
        && !(i.val ≥ state.registerCount.toNat && state.registers[i] != {})
        && !(i.val ≥ state.stackCount.toNat && state.stack[i] != {})
        && !(i.val ≥ state.memoryCount.toNat && state.memory[i] != {})
        && !(i.val < state.memoryCount.toNat && (List.finRange 8).any fun j =>
          j < i && state.memory[j].guestAddress == state.memory[i].guestAddress)

def VmLocation.valid : VmLocation → UInt64 → Bool
  | .immediate, index => index == 0
  | .register, index | .stack, index => index < 8
  | .memory, _ => true

def VmStep.valid (step : VmStep) : Bool :=
  (step.opcodeEvidence != .unknown || step.opcode == 0)
    && step.operandCount ≤ 4 && step.effectCount ≤ 8 && step.before.valid && step.after.valid
    && ((List.finRange 4).all fun i =>
      step.operands[i].location.valid step.operands[i].index && step.operands[i].value.valid
        && !(i.val ≥ step.operandCount.toNat && step.operands[i] != {}))
    && (List.finRange 8).all fun i =>
      step.effects[i].location != .immediate
        && step.effects[i].location.valid step.effects[i].index && step.effects[i].value.valid
        && !(i.val ≥ step.effectCount.toNat && step.effects[i] != {})

/-! ## The recorder -/

structure VmScope where
  sessionId : UInt64 := 0
  documentId : UInt64 := 0
  invocationId : UInt64 := 0
  expiresAt : UInt64 := 0
  deriving DecidableEq, Repr

structure VmRecordedStep where
  sequence : UInt64 := 0
  tick : UInt64 := 0
  step : VmStep := {}
  deriving DecidableEq, Repr

structure VmRecorderStats where
  attempted : UInt64 := 0
  recorded : UInt64 := 0
  full : UInt64 := 0
  malformed : UInt64 := 0
  wrongDocument : UInt64 := 0
  staleGeneration : UInt64 := 0
  exhausted : UInt64 := 0
  expired : UInt64 := 0
  isPartial : UInt64 := 0
  deriving DecidableEq, Repr

inductive VmRecordResult where
  | recorded | staleGeneration | exhausted | disabled | expired | wrongDocument | malformed | full
  deriving DecidableEq, Repr

structure NativeVmRecorder where
  records : List VmRecordedStep := []
  stats : VmRecorderStats := {}
  scope : VmScope := {}
  capacity : Nat := 64
  lastTick : UInt64 := 0
  generation : UInt64 := 0
  enabled : Bool := false
  deriving DecidableEq, Repr

/-- `none` when the counter is exhausted; the source then leaves it alone. -/
def advance? (counter : UInt64) : Option UInt64 :=
  if counter == 0xffffffffffffffff then none else some (counter + 1)

def advance (counter : UInt64) : UInt64 := (advance? counter).getD counter

namespace NativeVmRecorder

/-- Every enable attempt clears retained data and counters, including failures. -/
def enable (recorder : NativeVmRecorder) (scope : VmScope) (now : UInt64) :
    Bool × NativeVmRecorder :=
  let cleared : NativeVmRecorder :=
    { recorder with
      enabled := false, records := [], stats := {}, scope := {}, lastTick := now
      generation := advance recorder.generation }
  if (advance? recorder.generation).isNone then (false, cleared)
  else if scope.sessionId == 0 || scope.documentId == 0 || scope.invocationId == 0
      || scope.expiresAt ≤ now then (false, cleared)
  else (true, { cleared with scope, enabled := true })

/-- The part of `Record` after the step has been counted as attempted. -/
def keep (recorder : NativeVmRecorder) (now : UInt64) (step : VmStep) :
    VmRecordResult × NativeVmRecorder :=
  let stats := recorder.stats
  if !step.valid then
    (.malformed, { recorder with stats := { stats with malformed := advance stats.malformed } })
  else if recorder.records.length == recorder.capacity then
    (.full, { recorder with stats := { stats with full := advance stats.full } })
  else
    (.recorded, { recorder with
      records := recorder.records ++ [⟨stats.attempted, now, step⟩]
      stats := { stats with
        recorded := advance stats.recorded
        isPartial := if step.isPartial || step.before.isPartial || step.after.isPartial then
          advance stats.isPartial else stats.isPartial } })

def record (recorder : NativeVmRecorder) (documentId generation now : UInt64) (step : VmStep) :
    VmRecordResult × NativeVmRecorder :=
  let stats := recorder.stats
  if !recorder.enabled then (.disabled, recorder)
  else if generation != recorder.generation then
    (.staleGeneration,
      { recorder with stats := { stats with staleGeneration := advance stats.staleGeneration } })
  else if documentId != recorder.scope.documentId then
    (.wrongDocument,
      { recorder with stats := { stats with wrongDocument := advance stats.wrongDocument } })
  else if now ≥ recorder.scope.expiresAt || now < recorder.lastTick then
    (.expired, { recorder with
      enabled := false, stats := { stats with expired := advance stats.expired } })
  else if (advance? stats.attempted).isNone then
    (.exhausted, { recorder with
      enabled := false, lastTick := now
      stats := { stats with exhausted := advance stats.exhausted } })
  else
    { recorder with
      lastTick := now, stats := { stats with attempted := advance stats.attempted } }.keep now step

end NativeVmRecorder

end Reb.Helper

namespace Reb.Helper

/-! # The two fixed programs -/

inductive OwnedVmArchitecture where
  | register | stack
  deriving DecidableEq, Repr

inductive OwnedVmExecuteStatus where
  | committed | halted | budget | invalidState
  deriving DecidableEq, Repr

def ownedVmDispatchBudget : UInt64 := 16

def kPcs : Vector UInt64 10 := #v[0, 1, 2, 3, 4, 5, 6, 8, 10, 10]

def observed (value : UInt64) : VmValue := ⟨value, .observed⟩

namespace VmStep

def effect (step : VmStep) (access : VmAccess) (location : VmLocation) (index : UInt64)
    (value : VmValue) : VmStep :=
  { step with
    effects := step.effects.setIfInBounds step.effectCount.toNat ⟨access, location, index, value⟩
    effectCount := step.effectCount + 1 }

def operand (step : VmStep) (location : VmLocation) (index : UInt64) (value : VmValue) : VmStep :=
  { step with
    operands := step.operands.setIfInBounds step.operandCount.toNat ⟨location, index, value⟩
    operandCount := step.operandCount + 1 }

/-- A value taken as an operand is also reported as read. -/
def reads (step : VmStep) (location : VmLocation) (index : UInt64) (value : VmValue) : VmStep :=
  (step.operand location index value).effect .read location index value

end VmStep

structure OwnedVmFixture where
  architecture : OwnedVmArchitecture
  state : VmSnapshot
  executedCount : UInt64 := 0
  deriving DecidableEq, Repr

namespace OwnedVmFixture

def initialState (architecture : OwnedVmArchitecture) : VmSnapshot where
  pcEvidence := .observed
  registerCount := if architecture = .register then 3 else 0

def ofArchitecture (architecture : OwnedVmArchitecture) : OwnedVmFixture where
  architecture
  state := initialState architecture

/-! ## The exact reachable states -/

/-- The storage both programs have after `count` instructions. -/
def expectedSlots (architecture : OwnedVmArchitecture) (count : UInt64) (expected : VmSnapshot) :
    VmSnapshot :=
  match architecture with
  | .register =>
      let registers := expected.registers
      let registers :=
        if count ≥ 1 then registers.set 0 (observed (if count ≥ 3 then 12 else 7)) else registers
      let registers := if count ≥ 2 then registers.set 1 (observed 5) else registers
      { expected with registers := if count ≥ 5 then registers.set 2 (observed 12) else registers }
  | .stack =>
      if count == 1 then
        { expected with stackCount := 1, stack := expected.stack.set 0 (observed 7) }
      else if count == 2 then
        { expected with
          stackCount := 2, stack := (expected.stack.set 0 (observed 7)).set 1 (observed 5) }
      else if count == 3 || count ≥ 5 then
        { expected with stackCount := 1, stack := expected.stack.set 0 (observed 12) }
      else expected

/-- There are no user inputs or state writes: the whole snapshot, unused storage
included, is validated before a next state is computed. -/
def expected (fixture : OwnedVmFixture) : VmSnapshot :=
  let base := expectedSlots fixture.architecture fixture.executedCount
    { initialState fixture.architecture with
      pc := fixture.state.pc, halted := fixture.state.halted }
  if fixture.executedCount ≥ 4 then
    { base with memoryCount := 1, memory := base.memory.set 0 ⟨16, observed 12⟩ }
  else base

def validState (fixture : OwnedVmFixture) : Bool :=
  kPcs[fixture.executedCount.toNat]? == some fixture.state.pc
    && fixture.state.pcEvidence == .observed && !fixture.state.isPartial
    && fixture.state.halted == (fixture.executedCount == 9)
    && fixture.state == fixture.expected

/-! ## One instruction -/

/-- The slots an architecture computes in. -/
def slots (architecture : OwnedVmArchitecture) (state : VmSnapshot) : Vector VmValue 8 :=
  match architecture with
  | .register => state.registers
  | .stack => state.stack

def withSlots (architecture : OwnedVmArchitecture) (state : VmSnapshot)
    (slots : Vector VmValue 8) : VmSnapshot :=
  match architecture with
  | .register => { state with registers := slots }
  | .stack => { state with stack := slots }

/-- The next snapshot but for its program counter, the step but for what it leads to, and
the next program counter; `none` at a program counter the programs do not have. -/
def next (fixture : OwnedVmFixture) : Option (VmSnapshot × VmStep × UInt64) :=
  let state := fixture.state
  let pc := state.pc
  let architecture := fixture.architecture
  let stack := architecture == .stack
  let location : VmLocation := if stack then .stack else .register
  let slots := slots architecture state
  let write := withSlots architecture
  let step : VmStep :=
    { before := state, opcode := if pc < 2 then 1 else pc.toUInt32, opcodeEvidence := .observed }
  if pc < 2 then
    let value := observed (if pc == 0 then 7 else 5)
    let state := write state (slots.setIfInBounds pc.toNat value)
    some (if stack then { state with stackCount := state.stackCount + 1 } else state,
      (step.operand .immediate 0 value).effect .write location pc value, pc + 1)
  else if pc == 2 then
    let step := (step.reads location 0 slots[0]).reads location 1 slots[1]
    let sum := observed (slots[0].bits + slots[1].bits)
    let step := step.effect .write location 0 sum
    let slots := slots.set 0 sum
    if stack then
      some ({ write state (slots.set 1 {}) with stackCount := 1 },
        step.effect .write location 1 {}, pc + 1)
    else some (write state slots, step, pc + 1)
  else if pc == 3 then
    let state := { state with memoryCount := 1, memory := state.memory.set 0 ⟨16, slots[0]⟩ }
    let step := (step.reads location 0 slots[0]).effect .write .memory 16 slots[0]
    if stack then
      some ({ write state (slots.set 0 {}) with stackCount := 0 },
        step.effect .write location 0 {}, pc + 1)
    else some (state, step, pc + 1)
  else if pc == 4 then
    let loaded := state.memory[0].value
    let destination : Nat := if stack then 0 else 2
    let state := write state (slots.setIfInBounds destination loaded)
    some (if stack then { state with stackCount := 1 } else state,
      (step.reads .memory 16 loaded).effect .write location destination.toUInt64 loaded, pc + 1)
  else if pc == 5 || pc == 8 then
    let conditionSlot : Nat := if stack then 0 else 2
    let condition := if stack then slots[0] else slots[2]
    let step :=
      { step with opcode := if pc == 5 then 5 else 7 }.reads location conditionSlot.toUInt64
        condition
    let taken := if pc == 5 then condition.bits == 0 else condition.bits != 0
    some (state, step.operand .immediate 0 (observed 10), if taken then 10 else pc + 1)
  else if pc == 6 then
    some (state, { step with opcode := 6 }.operand .immediate 0 (observed 8), 8)
  else if pc == 10 then some ({ state with halted := true }, { step with opcode := 8 }, pc)
  else none

structure OwnedVmExecuteResult where
  status : OwnedVmExecuteStatus := .invalidState
  recorderResult : VmRecordResult := .disabled
  deriving DecidableEq, Repr

/-- The control owner always passes its recorder; recording happens after the commit and
cannot undo it. -/
def executeOne (fixture : OwnedVmFixture) (recorder : NativeVmRecorder)
    (documentId generation now : UInt64) :
    OwnedVmExecuteResult × OwnedVmFixture × NativeVmRecorder :=
  if fixture.executedCount ≥ ownedVmDispatchBudget then
    ({ status := .budget }, fixture, recorder)
  else if !fixture.validState then ({}, fixture, recorder)
  else if fixture.state.halted then ({ status := .halted }, fixture, recorder)
  else
    match fixture.next with
    | none => ({}, fixture, recorder)
    | some (next, step, nextPc) =>
        let next := { next with pc := nextPc }
        let (recorderResult, recorder) :=
          recorder.record documentId generation now { step with after := next }
        ({ status := .committed, recorderResult },
          { fixture with state := next, executedCount := fixture.executedCount + 1 }, recorder)

end OwnedVmFixture

end Reb.Helper
