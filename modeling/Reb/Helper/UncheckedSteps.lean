/-
# Helper.UncheckedSteps -- the recorder before anyone has looked at a step

A caller of the recorder hands it storage: an enumeration is whatever byte stands
there, named or not.  Here are the steps at that width, what `Valid` accepts of them,
and the recorder over them.
-/
import Reb.Helper.NativeVmRecorder

namespace Reb.Helper.Unchecked

set_option autoImplicit false

/-! ## Steps in storage -/

def kUnknown : UInt8 := 0
def kObserved : UInt8 := 1
def kInferred : UInt8 := 2

def kImmediate : UInt8 := 0
def kRegister : UInt8 := 1
def kStack : UInt8 := 2
def kMemory : UInt8 := 3

def kRead : UInt8 := 0
def kWrite : UInt8 := 1

structure VmValue where
  bits : UInt64 := 0
  evidence : UInt8 := kUnknown
  deriving DecidableEq, Repr

structure VmMemoryCell where
  guestAddress : UInt64 := 0
  value : VmValue := {}
  deriving DecidableEq, Repr

structure VmSnapshot where
  pc : UInt64 := 0
  pcEvidence : UInt8 := kUnknown
  registerCount : UInt8 := 0
  stackCount : UInt8 := 0
  memoryCount : UInt8 := 0
  isPartial : Bool := false
  halted : Bool := false
  registers : Vector VmValue 8 := .replicate 8 {}
  stack : Vector VmValue 8 := .replicate 8 {}
  memory : Vector VmMemoryCell 8 := .replicate 8 {}
  deriving DecidableEq, Repr

structure VmOperand where
  location : UInt8 := kImmediate
  index : UInt64 := 0
  value : VmValue := {}
  deriving DecidableEq, Repr

structure VmEffect where
  access : UInt8 := kRead
  location : UInt8 := kRegister
  index : UInt64 := 0
  value : VmValue := {}
  deriving DecidableEq, Repr

structure VmStep where
  opcode : UInt32 := 0
  opcodeEvidence : UInt8 := kUnknown
  operandCount : UInt8 := 0
  effectCount : UInt8 := 0
  isPartial : Bool := false
  operands : Vector VmOperand 4 := .replicate 4 {}
  effects : Vector VmEffect 8 := .replicate 8 {}
  before : VmSnapshot := {}
  after : VmSnapshot := {}
  deriving DecidableEq, Repr

/-! ## What may be kept -/

def validEvidence (evidence : UInt8) : Bool :=
  evidence == kUnknown || evidence == kObserved || evidence == kInferred

def VmValue.valid (value : VmValue) : Bool :=
  validEvidence value.evidence && (value.evidence != kUnknown || value.bits == 0)

/-- Unused storage cannot smuggle values into a retained snapshot. -/
def VmSnapshot.valid (state : VmSnapshot) : Bool :=
  validEvidence state.pcEvidence && (state.pcEvidence != kUnknown || state.pc == 0)
    && state.registerCount ≤ 8 && state.stackCount ≤ 8 && state.memoryCount ≤ 8
    && (List.finRange 8).all fun i =>
      (state.registers.get i).valid && (state.stack.get i).valid && (state.memory.get i).value.valid
        && !(i.val ≥ state.registerCount.toNat && state.registers.get i != {})
        && !(i.val ≥ state.stackCount.toNat && state.stack.get i != {})
        && !(i.val ≥ state.memoryCount.toNat && state.memory.get i != {})
        && !(i.val < state.memoryCount.toNat && (List.finRange 8).any fun j =>
          j < i && (state.memory.get j).guestAddress == (state.memory.get i).guestAddress)

def validLocation (location : UInt8) (index : UInt64) : Bool :=
  if location == kImmediate then index == 0
  else if location == kRegister || location == kStack then index < 8
  else location == kMemory

def VmOperand.valid (operand : VmOperand) : Bool :=
  validLocation operand.location operand.index && operand.value.valid

def VmEffect.valid (effect : VmEffect) : Bool :=
  (effect.access == kRead || effect.access == kWrite) && effect.location != kImmediate
    && validLocation effect.location effect.index && effect.value.valid

def VmStep.valid (step : VmStep) : Bool :=
  validEvidence step.opcodeEvidence && (step.opcodeEvidence != kUnknown || step.opcode == 0)
    && step.operandCount ≤ 4 && step.effectCount ≤ 8 && step.before.valid && step.after.valid
    && ((List.finRange 4).all fun i =>
      (step.operands.get i).valid && !(i.val ≥ step.operandCount.toNat && step.operands.get i != {}))
    && (List.finRange 8).all fun i =>
      (step.effects.get i).valid && !(i.val ≥ step.effectCount.toNat && step.effects.get i != {})

/-! ## The recorder -/

structure VmRecordedStep where
  sequence : UInt64 := 0
  tick : UInt64 := 0
  step : VmStep := {}
  deriving DecidableEq, Repr

def kNativeVmRecords : Nat := 64

structure Recorder where
  records : List VmRecordedStep := []
  stats : VmRecorderStats := {}
  scope : VmScope := {}
  capacity : Nat := kNativeVmRecords
  lastTick : UInt64 := 0
  generation : UInt64 := 0
  enabled : Bool := false
  deriving DecidableEq, Repr

namespace Recorder

def new (capacity : Nat) : Recorder :=
  { capacity := if capacity ≤ kNativeVmRecords then capacity else kNativeVmRecords }

/-- Every enable attempt clears retained data and counters, including failures. -/
def enable (recorder : Recorder) (scope : VmScope) (now : UInt64) : Bool × Recorder :=
  let cleared : Recorder :=
    { recorder with
      enabled := false, records := [], stats := {}, scope := {}, lastTick := now
      generation := advance recorder.generation }
  if (advance? recorder.generation).isNone then (false, cleared)
  else if scope.sessionId == 0 || scope.documentId == 0 || scope.invocationId == 0
      || scope.expiresAt ≤ now then (false, cleared)
  else (true, { cleared with scope, enabled := true })

def disable (recorder : Recorder) : Recorder := { recorder with enabled := false }

def invalidateDocument (recorder : Recorder) : Recorder := recorder.disable

/-- The part of `Record` after the step has been counted as attempted. -/
def keep (recorder : Recorder) (now : UInt64) (step : VmStep) : VmRecordResult × Recorder :=
  let stats := recorder.stats
  if !step.valid then
    (.malformed, { recorder with stats := { stats with malformed := advance stats.malformed } })
  else if recorder.records.length == recorder.capacity then
    (.full, { recorder with stats := { stats with full := advance stats.full } })
  else
    (.recorded, { recorder with
      records := recorder.records ++ [⟨stats.attempted, now, step⟩]
      stats := { stats with
        recorded := advance stats.recorded
        isPartial := if step.isPartial || step.before.isPartial || step.after.isPartial then
          advance stats.isPartial else stats.isPartial } })

def record (recorder : Recorder) (documentId generation now : UInt64) (step : VmStep) :
    VmRecordResult × Recorder :=
  let stats := recorder.stats
  if !recorder.enabled then (.disabled, recorder)
  else if generation != recorder.generation then
    (.staleGeneration,
      { recorder with stats := { stats with staleGeneration := advance stats.staleGeneration } })
  else if documentId != recorder.scope.documentId then
    (.wrongDocument,
      { recorder with stats := { stats with wrongDocument := advance stats.wrongDocument } })
  else if now ≥ recorder.scope.expiresAt || now < recorder.lastTick then
    (.expired, { recorder with
      enabled := false, stats := { stats with expired := advance stats.expired } })
  else if (advance? stats.attempted).isNone then
    (.exhausted, { recorder with
      enabled := false, lastTick := now
      stats := { stats with exhausted := advance stats.exhausted } })
  else
    { recorder with
      lastTick := now, stats := { stats with attempted := advance stats.attempted } }.keep now step

end Recorder

end Reb.Helper.Unchecked
