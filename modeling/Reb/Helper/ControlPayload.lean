/-
# Helper.ControlPayload -- the JSON of a reply, written here and read there

The helper writes its fixture and its recorder; the backend reads a view of
them with its own types.  Readers and writers are two programs: the readers
refuse unknown, repeated and missing members, and the two nullable members must
be present.  `readView_controlPayload` says which view the backend reads, and
`guest` is the backend's notion of a value of the helper's.
-/
import Reb.Debugger.NativeReply
import Reb.Helper.ControlMain
import Reb.Theory.Json

namespace Reb.Helper

set_option autoImplicit false

open Reb.Theory
open Json (decimal fields readArray readBool readDecimal readName readNullable readString readUInt32)

/-! ## What the helper writes -/

def VmEvidence.name : VmEvidence → String
  | .observed => "observed"
  | .inferred => "inferred"
  | .unknown => "unknown"

def VmLocation.name : VmLocation → String
  | .immediate => "immediate"
  | .register => "register"
  | .stack => "stack"
  | .memory => "memory"

def VmRecordResult.name : VmRecordResult → String
  | .recorded => "recorded"
  | .staleGeneration => "stale_generation"
  | .exhausted => "exhausted"
  | .disabled => "disabled"
  | .expired => "expired"
  | .wrongDocument => "wrong_document"
  | .malformed => "malformed"
  | .full => "full"

def ReplyState.name : ReplyState → String
  | .paused => "paused"
  | .halted => "halted"
  | .expired => "expired"
  | .stopped => "stopped"
  | .failed => "failed"

def VmValue.json (value : VmValue) : Json :=
  .object [("bits", decimal value.bits), ("evidence", .string value.evidence.name)]

def VmMemoryCell.json (cell : VmMemoryCell) : Json :=
  .object [("guest_address", decimal cell.guestAddress), ("value", cell.value.json)]

def VmSnapshot.json (state : VmSnapshot) : Json :=
  .object
    [("pc", decimal state.pc), ("pc_evidence", .string state.pcEvidence.name),
      ("partial", .bool state.isPartial), ("halted", .bool state.halted),
      ("registers",
        .array ((state.registers.toList.take state.registerCount.toNat).map VmValue.json)),
      ("stack", .array ((state.stack.toList.take state.stackCount.toNat).map VmValue.json)),
      ("memory", .array ((state.memory.toList.take state.memoryCount.toNat).map VmMemoryCell.json))]

def VmOperand.json (operand : VmOperand) : Json :=
  .object
    [("location", .string operand.location.name), ("index", decimal operand.index),
      ("value", operand.value.json)]

def VmEffect.json (effect : VmEffect) : Json :=
  .object
    [("access", .string (if effect.access = .read then "read" else "write")),
      ("location", .string effect.location.name), ("index", decimal effect.index),
      ("value", effect.value.json)]

def VmRecordedStep.json (record : VmRecordedStep) : Json :=
  let step := record.step
  .object
    [("sequence", decimal record.sequence), ("tick", decimal record.tick),
      ("opcode", .number step.opcode.toNat), ("opcode_evidence", .string step.opcodeEvidence.name),
      ("partial", .bool step.isPartial),
      ("operands", .array ((step.operands.toList.take step.operandCount.toNat).map VmOperand.json)),
      ("effects", .array ((step.effects.toList.take step.effectCount.toNat).map VmEffect.json)),
      ("before", step.before.json), ("after", step.after.json)]

def VmRecorderStats.json (stats : VmRecorderStats) : Json :=
  .object
    [("attempted", decimal stats.attempted), ("recorded", decimal stats.recorded),
      ("full", decimal stats.full), ("malformed", decimal stats.malformed),
      ("wrong_document", decimal stats.wrongDocument),
      ("stale_generation", decimal stats.staleGeneration), ("exhausted", decimal stats.exhausted),
      ("expired", decimal stats.expired), ("partial", decimal stats.isPartial)]

/-- The last record, where the instruction just answered was recorded. -/
def transition (recorder : NativeVmRecorder) (result : Option VmRecordResult) :
    Option VmRecordedStep :=
  if result = some .recorded then recorder.records.getLast? else none

def controlPayload (options : ControlOptions) (owner : Owner) (state : ReplyState)
    (result : Option VmRecordResult) : Json :=
  .object
    [("schema", .string "reb-owned-vm-helper-v1"),
      ("fixture", .string (if options.architecture = .stack then "stack" else "register")),
      ("program_id",
        .string (if options.architecture = .stack then "owned-stack-v1" else "owned-register-v1")),
      ("fixture_revision", .number 1), ("session_id", decimal options.sessionId),
      ("document_id", decimal options.documentId), ("invocation_id", decimal options.invocationId),
      ("run_generation", decimal options.runGeneration), ("state", .string state.name),
      ("executed_count", decimal owner.fixture.executedCount),
      ("retained_count", decimal owner.recorder.stats.recorded),
      ("snapshot", owner.fixture.state.json),
      ("transition", ((transition owner.recorder result).map VmRecordedStep.json).getD .null),
      ("recorder_result", (result.map fun result => Json.string result.name).getD .null),
      ("stats", owner.recorder.stats.json), ("tick_units", .string "monotonic-nanoseconds")]

/-! ## What the backend reads -/

section Readers

open Reb.Debugger

def readEvidence : Json → Option Evidence :=
  readName [("observed", .observed), ("inferred", .inferred), ("unknown", .unknown)]

def readGuestValue (json : Json) : Option GuestValue := do
  let [bits, evidence] ←
    json.fields ["bits", "evidence"]
    | none
  let bits ← readDecimal bits
  let evidence ← readEvidence evidence
  return { bits, evidence }

def readMemoryCell (json : Json) : Option MemoryCell := do
  let [guestAddress, value] ←
    json.fields ["guest_address", "value"]
    | none
  let guestAddress ← readDecimal guestAddress
  let value ← readGuestValue value
  return { guestAddress, value }

def readSnapshot (json : Json) : Option Snapshot := do
  let [pc, pcEvidence, isPartial, halted, registers, stack, memory] ←
    json.fields ["pc", "pc_evidence", "partial", "halted", "registers", "stack", "memory"]
    | none
  let pc ← readDecimal pc
  let pcEvidence ← readEvidence pcEvidence
  let isPartial ← readBool isPartial
  let halted ← readBool halted
  let registers ← readArray readGuestValue registers
  let stack ← readArray readGuestValue stack
  let memory ← readArray readMemoryCell memory
  return { pc, pcEvidence, isPartial, halted, registers, stack, memory }

def readLocation : Json → Option Location :=
  readName [("immediate", .immediate), ("register", .register), ("stack", .stack),
    ("memory", .memory)]

def readAccess : Json → Option Access := readName [("read", .read), ("write", .write)]

def readOperand (json : Json) : Option Operand := do
  let [location, index, value] ←
    json.fields ["location", "index", "value"]
    | none
  let location ← readLocation location
  let index ← readDecimal index
  let value ← readGuestValue value
  return { location, index, value }

def readEffect (json : Json) : Option Effect := do
  let [access, location, index, value] ←
    json.fields ["access", "location", "index", "value"]
    | none
  let access ← readAccess access
  let location ← readLocation location
  let index ← readDecimal index
  let value ← readGuestValue value
  return { access, location, index, value }

def readRecord (json : Json) : Option Record := do
  let [sequence, tick, opcode, opcodeEvidence, isPartial, operands, effects, before, after] ←
    json.fields
      ["sequence", "tick", "opcode", "opcode_evidence", "partial", "operands", "effects",
        "before", "after"]
    | none
  let sequence ← readDecimal sequence
  let tick ← readDecimal tick
  let opcode ← readUInt32 opcode
  let opcodeEvidence ← readEvidence opcodeEvidence
  let isPartial ← readBool isPartial
  let operands ← readArray readOperand operands
  let effects ← readArray readEffect effects
  let before ← readSnapshot before
  let after ← readSnapshot after
  return {
    sequence, tick, opcode, opcodeEvidence, isPartial, operands, effects, before, after }

def readRecorderStats (json : Json) : Option RecorderStats := do
  let [attempted, recorded, full, malformed, wrongDocument, staleGeneration, exhausted,
      expired, isPartial] ←
    json.fields
      ["attempted", "recorded", "full", "malformed", "wrong_document", "stale_generation",
        "exhausted", "expired", "partial"]
    | none
  let attempted ← readDecimal attempted
  let recorded ← readDecimal recorded
  let full ← readDecimal full
  let malformed ← readDecimal malformed
  let wrongDocument ← readDecimal wrongDocument
  let staleGeneration ← readDecimal staleGeneration
  let exhausted ← readDecimal exhausted
  let expired ← readDecimal expired
  let isPartial ← readDecimal isPartial
  return {
    attempted, recorded, full, malformed, wrongDocument, staleGeneration, exhausted, expired,
    isPartial }

def readFixture : Json → Option Fixture := readName [("register", .register), ("stack", .stack)]

def readRecorderResult : Json → Option RecorderResult :=
  readName
    [("recorded", .recorded), ("disabled", .disabled), ("stale_generation", .staleGeneration),
      ("wrong_document", .wrongDocument), ("expired", .expired), ("malformed", .malformed),
      ("full", .full), ("exhausted", .exhausted)]

def readNativeState : Json → Option NativeState :=
  readName
    [("paused", .paused), ("halted", .halted), ("expired", .expired), ("stopped", .stopped),
      ("failed", .failed)]

/-- The typed reader lets a nullable member be absent; a test of its own requires both. -/
def readView (json : Json) : Option NativeView := do
  let [schema, fixture, programId, fixtureRevision, sessionId, documentId, invocationId,
      runGeneration, state, executedCount, retainedCount, snapshot, transition,
      recorderResult, stats, tickUnits] ←
    json.fields
      ["schema", "fixture", "program_id", "fixture_revision", "session_id", "document_id",
        "invocation_id", "run_generation", "state", "executed_count", "retained_count",
        "snapshot", "transition", "recorder_result", "stats", "tick_units"]
    | none
  let schema ← readString schema
  let fixture ← readFixture fixture
  let programId ← readString programId
  let fixtureRevision ← readUInt32 fixtureRevision
  let sessionId ← readDecimal sessionId
  let documentId ← readDecimal documentId
  let invocationId ← readDecimal invocationId
  let runGeneration ← readDecimal runGeneration
  let state ← readNativeState state
  let executedCount ← readDecimal executedCount
  let retainedCount ← readDecimal retainedCount
  let snapshot ← readSnapshot snapshot
  let transition ← readNullable readRecord transition
  let recorderResult ← readNullable readRecorderResult recorderResult
  let stats ← readRecorderStats stats
  let tickUnits ← readString tickUnits
  return {
    schema, fixture, programId, fixtureRevision, sessionId, documentId, invocationId,
    runGeneration, state, executedCount, retainedCount, snapshot, transition, recorderResult,
    stats, tickUnits }

end Readers

/-! ## The backend's notion of the helper's values -/

section Views

open Reb.Debugger

def VmEvidence.guest : VmEvidence → Evidence
  | .observed => .observed
  | .inferred => .inferred
  | .unknown => .unknown

def VmLocation.guest : VmLocation → Location
  | .immediate => .immediate
  | .register => .register
  | .stack => .stack
  | .memory => .memory

def VmAccess.guest : VmAccess → Access
  | .read => .read
  | .write => .write

def VmRecordResult.guest : VmRecordResult → RecorderResult
  | .recorded => .recorded
  | .staleGeneration => .staleGeneration
  | .exhausted => .exhausted
  | .disabled => .disabled
  | .expired => .expired
  | .wrongDocument => .wrongDocument
  | .malformed => .malformed
  | .full => .full

def ReplyState.guest : ReplyState → NativeState
  | .paused => .paused
  | .halted => .halted
  | .expired => .expired
  | .stopped => .stopped
  | .failed => .failed

def OwnedVmArchitecture.guest : OwnedVmArchitecture → Fixture
  | .register => .register
  | .stack => .stack

def VmValue.guest (value : VmValue) : GuestValue := ⟨value.bits, value.evidence.guest⟩

def VmMemoryCell.guest (cell : VmMemoryCell) : MemoryCell := ⟨cell.guestAddress, cell.value.guest⟩

def VmSnapshot.guest (state : VmSnapshot) : Snapshot where
  pc := state.pc
  pcEvidence := state.pcEvidence.guest
  isPartial := state.isPartial
  halted := state.halted
  registers := (state.registers.toList.take state.registerCount.toNat).map VmValue.guest
  stack := (state.stack.toList.take state.stackCount.toNat).map VmValue.guest
  memory := (state.memory.toList.take state.memoryCount.toNat).map VmMemoryCell.guest

def VmOperand.guest (operand : VmOperand) : Operand :=
  ⟨operand.location.guest, operand.index, operand.value.guest⟩

def VmEffect.guest (effect : VmEffect) : Effect :=
  ⟨effect.access.guest, effect.location.guest, effect.index, effect.value.guest⟩

def VmRecordedStep.guest (record : VmRecordedStep) : Record where
  sequence := record.sequence
  tick := record.tick
  opcode := record.step.opcode
  opcodeEvidence := record.step.opcodeEvidence.guest
  isPartial := record.step.isPartial
  operands := (record.step.operands.toList.take record.step.operandCount.toNat).map VmOperand.guest
  effects := (record.step.effects.toList.take record.step.effectCount.toNat).map VmEffect.guest
  before := record.step.before.guest
  after := record.step.after.guest

def VmRecorderStats.guest (stats : VmRecorderStats) : RecorderStats where
  attempted := stats.attempted
  recorded := stats.recorded
  full := stats.full
  malformed := stats.malformed
  wrongDocument := stats.wrongDocument
  staleGeneration := stats.staleGeneration
  exhausted := stats.exhausted
  expired := stats.expired
  isPartial := stats.isPartial

def controlView (options : ControlOptions) (owner : Owner) (state : ReplyState)
    (result : Option VmRecordResult) : NativeView where
  schema := "reb-owned-vm-helper-v1"
  fixture := options.architecture.guest
  programId := options.architecture.guest.program
  fixtureRevision := 1
  sessionId := options.sessionId
  documentId := options.documentId
  invocationId := options.invocationId
  runGeneration := options.runGeneration
  state := state.guest
  executedCount := owner.fixture.executedCount
  retainedCount := owner.recorder.stats.recorded
  snapshot := owner.fixture.state.guest
  transition := (transition owner.recorder result).map VmRecordedStep.guest
  recorderResult := result.map VmRecordResult.guest
  stats := owner.recorder.stats.guest
  tickUnits := "monotonic-nanoseconds"

end Views

/-! ## What is written is read -/

@[simp] theorem readEvidence_name (evidence : VmEvidence) :
    readEvidence (.string evidence.name) = some evidence.guest := by
  cases evidence <;> rfl

@[simp] theorem readLocation_name (location : VmLocation) :
    readLocation (.string location.name) = some location.guest := by
  cases location <;> rfl

@[simp] theorem readAccess_name (access : VmAccess) :
    readAccess (.string (if access = .read then "read" else "write")) = some access.guest := by
  cases access <;> rfl

@[simp] theorem readRecorderResult_name (result : VmRecordResult) :
    readRecorderResult (.string result.name) = some result.guest := by
  cases result <;> rfl

@[simp] theorem readNativeState_name (state : ReplyState) :
    readNativeState (.string state.name) = some state.guest := by
  cases state <;> rfl

@[simp] theorem readFixture_name (architecture : OwnedVmArchitecture) :
    readFixture (.string (if architecture = .stack then "stack" else "register"))
      = some architecture.guest := by
  cases architecture <;> rfl

@[simp] theorem programId_name (architecture : OwnedVmArchitecture) :
    (if architecture = .stack then "owned-stack-v1" else "owned-register-v1")
      = architecture.guest.program := by
  cases architecture <;> rfl

@[simp] theorem readGuestValue_json (value : VmValue) :
    readGuestValue value.json = some value.guest := by
  rw [readGuestValue, VmValue.json, Json.fields_object]
  · simp [VmValue.guest]
  · rfl
  · decide

@[simp] theorem readMemoryCell_json (cell : VmMemoryCell) :
    readMemoryCell cell.json = some cell.guest := by
  rw [readMemoryCell, VmMemoryCell.json, Json.fields_object]
  · simp [VmMemoryCell.guest]
  · rfl
  · decide

@[simp] theorem readSnapshot_json (state : VmSnapshot) :
    readSnapshot state.json = some state.guest := by
  rw [readSnapshot, VmSnapshot.json, Json.fields_object]
  · simp [-List.map_take, VmSnapshot.guest, readBool,
      Json.readArray_map readGuestValue_json, Json.readArray_map readMemoryCell_json]
  · rfl
  · decide

@[simp] theorem readOperand_json (operand : VmOperand) :
    readOperand operand.json = some operand.guest := by
  rw [readOperand, VmOperand.json, Json.fields_object]
  · simp [VmOperand.guest]
  · rfl
  · decide

@[simp] theorem readEffect_json (effect : VmEffect) :
    readEffect effect.json = some effect.guest := by
  rw [readEffect, VmEffect.json, Json.fields_object]
  · simp [VmEffect.guest]
  · rfl
  · decide

@[simp] theorem readRecord_json (record : VmRecordedStep) :
    readRecord record.json = some record.guest := by
  rw [readRecord, VmRecordedStep.json, Json.fields_object]
  · simp [-List.map_take, VmRecordedStep.guest, readBool,
      Json.readArray_map readOperand_json, Json.readArray_map readEffect_json]
  · rfl
  · decide

@[simp] theorem readRecorderStats_json (stats : VmRecorderStats) :
    readRecorderStats stats.json = some stats.guest := by
  rw [readRecorderStats, VmRecorderStats.json, Json.fields_object]
  · simp [VmRecorderStats.guest]
  · rfl
  · decide

@[simp] theorem readTransition_json (record : Option VmRecordedStep) :
    readNullable readRecord ((record.map VmRecordedStep.json).getD .null)
      = some (record.map VmRecordedStep.guest) := by
  cases record with
  | none => rfl
  | some record =>
      show (readRecord record.json).map some = _
      rw [readRecord_json]
      rfl

@[simp] theorem readResult_json (result : Option VmRecordResult) :
    readNullable readRecorderResult ((result.map fun result => Json.string result.name).getD .null)
      = some (result.map VmRecordResult.guest) := by
  cases result with
  | none => rfl
  | some result =>
      show (readRecorderResult (.string result.name)).map some = _
      rw [readRecorderResult_name]
      rfl

/-- The backend reads every reply of the helper, as the view of the helper's own state. -/
theorem readView_controlPayload (options : ControlOptions) (owner : Owner) (state : ReplyState)
    (result : Option VmRecordResult) :
    readView (controlPayload options owner state result)
      = some (controlView options owner state result) := by
  rw [readView, controlPayload, Json.fields_object]
  · -- Member by member, in the order of the reader.
    refine Option.bind_eq_some_iff.2 ⟨_, rfl, Option.bind_eq_some_iff.2 ⟨_, rfl, ?_⟩⟩
    refine Option.bind_eq_some_iff.2 ⟨_, readFixture_name _, ?_⟩
    refine Option.bind_eq_some_iff.2 ⟨_, congrArg some (programId_name _), ?_⟩
    refine Option.bind_eq_some_iff.2 ⟨_, Json.readUInt32_number 1, ?_⟩
    refine Option.bind_eq_some_iff.2 ⟨_, Json.readDecimal_decimal _, ?_⟩
    refine Option.bind_eq_some_iff.2 ⟨_, Json.readDecimal_decimal _, ?_⟩
    refine Option.bind_eq_some_iff.2 ⟨_, Json.readDecimal_decimal _, ?_⟩
    refine Option.bind_eq_some_iff.2 ⟨_, Json.readDecimal_decimal _, ?_⟩
    refine Option.bind_eq_some_iff.2 ⟨_, readNativeState_name _, ?_⟩
    refine Option.bind_eq_some_iff.2 ⟨_, Json.readDecimal_decimal _, ?_⟩
    refine Option.bind_eq_some_iff.2 ⟨_, Json.readDecimal_decimal _, ?_⟩
    refine Option.bind_eq_some_iff.2 ⟨_, readSnapshot_json _, ?_⟩
    refine Option.bind_eq_some_iff.2 ⟨_, readTransition_json _, ?_⟩
    refine Option.bind_eq_some_iff.2 ⟨_, readResult_json _, ?_⟩
    refine Option.bind_eq_some_iff.2 ⟨_, readRecorderStats_json _, ?_⟩
    exact Option.bind_eq_some_iff.2 ⟨_, rfl, rfl⟩
  · rfl
  · decide

end Reb.Helper
