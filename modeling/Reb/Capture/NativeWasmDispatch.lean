/-
# Capture.NativeWasmDispatch -- WebAssembly observations in the browser overlay

`common/native_wasm_dispatch.h`: the payloads the browser encodes, the
observations a renderer hands over, and the input predicates both the host and
the capture sink apply to them.  `common/native_js_invocation.h` supplies the
JavaScript context rule.
-/
import Reb.Capture.PayloadBytes
import Reb.Capture.WasmDispatch

namespace Reb.Capture

set_option autoImplicit false

/-! ## Limits -/

def kNativeArtifactMaxUrlBytes : Nat := 8192
def kNativeArtifactMaxContentBytes : Nat := 16 * 1024 * 1024
def kNativeWasmDispatchSampleBudget : UInt32 := 16
def kNativeWasmIndirectSampleBudget : UInt32 := 16
def kNativeWasmIndirectResolutionCount : UInt32 := 5
/-- `kLimit` of the input predicates, also `kNativeWasmFunctionIndexLimit`. -/
def kNativeWasmFunctionIndexLimit : UInt32 := 16777216
def kNativeWasmExecutionReasonCount : UInt8 := 6
def kNativeWasmExecutionBoundsCount : UInt8 := 7
def kNativeWasmExecutionFunctionKnown : UInt8 := 1
def kNativeWasmExecutionOffsetKnown : UInt8 := 2
def kNativeWasmExecutionNoSample : UInt32 := 0xffffffff

namespace NativeWasmIndirectResolution

def resolved : UInt32 := 0

end NativeWasmIndirectResolution

namespace NativeWasmExecutionKind

def stillExecuting : UInt8 := 1

end NativeWasmExecutionKind

namespace NativeWasmExecutionReason

def outOfBounds : UInt8 := 3

end NativeWasmExecutionReason

namespace NativeWasmExecutionStream

def none : UInt8 := 0

end NativeWasmExecutionStream

def isValidNativeJsInvocationContext (state : UInt8) (invocationId : UInt32) : Bool :=
  state ≤ 3 && ((state == 2) == (invocationId != 0))

/-! ## Payloads -/

structure NativeWasmDispatchObservationPayload where
  protocolVersion : UInt16 := 2
  payloadSize : UInt16 := 128
  functionIndex : UInt32 := 0
  moduleByteOffset : UInt32 := 0
  selector : UInt32 := 0
  tableCount : UInt32 := 0
  sampleIndex : UInt32 := 0
  jsInvocationState : UInt8 := 0
  jsInvocationReserved : Vector UInt8 3 := Vector.replicate 3 0
  jsInvocationId : UInt32 := 0
  callerKind : UInt8 := kWasmDirectCallerUnknown
  callerReserved : Vector UInt8 3 := Vector.replicate 3 0
  callerFunctionIndex : UInt32 := 0
  reserved : Vector UInt8 88 := Vector.replicate 88 0
  deriving DecidableEq, Repr

def encodeNativeWasmDispatchObservationPayload (value : NativeWasmDispatchObservationPayload) :
    List UInt8 :=
  let out := emptyPayload
  let out := put out 0 value.protocolVersion.toUInt64 2
  let out := put out 2 value.payloadSize.toUInt64 2
  let out := put out 4 value.functionIndex.toUInt64 4
  let out := put out 8 value.moduleByteOffset.toUInt64 4
  let out := put out 12 value.selector.toUInt64 4
  let out := put out 16 value.tableCount.toUInt64 4
  let out := put out 20 value.sampleIndex.toUInt64 4
  let out := put out 24 value.jsInvocationState.toUInt64 1
  let out := copyTo out 25 value.jsInvocationReserved.toList
  let out := put out 28 value.jsInvocationId.toUInt64 4
  let out := put out 32 value.callerKind.toUInt64 1
  let out := copyTo out 33 value.callerReserved.toList
  let out := put out 36 value.callerFunctionIndex.toUInt64 4
  copyTo out 40 value.reserved.toList

structure NativeWasmIndirectObservationPayload where
  protocolVersion : UInt16 := 2
  payloadSize : UInt16 := 128
  functionIndex : UInt32 := 0
  moduleByteOffset : UInt32 := 0
  tableIndex : UInt32 := 0
  slot : UInt32 := 0
  calleeFunctionIndex : UInt32 := 0
  resolution : UInt32 := 0
  sampleIndex : UInt32 := 0
  jsInvocationState : UInt8 := 0
  jsInvocationReserved : Vector UInt8 3 := Vector.replicate 3 0
  jsInvocationId : UInt32 := 0
  reserved : Vector UInt8 88 := Vector.replicate 88 0
  deriving DecidableEq, Repr

def encodeNativeWasmIndirectObservationPayload (value : NativeWasmIndirectObservationPayload) :
    List UInt8 :=
  let out := emptyPayload
  let out := put out 0 value.protocolVersion.toUInt64 2
  let out := put out 2 value.payloadSize.toUInt64 2
  let out := put out 4 value.functionIndex.toUInt64 4
  let out := put out 8 value.moduleByteOffset.toUInt64 4
  let out := put out 12 value.tableIndex.toUInt64 4
  let out := put out 16 value.slot.toUInt64 4
  let out := put out 20 value.calleeFunctionIndex.toUInt64 4
  let out := put out 24 value.resolution.toUInt64 4
  let out := put out 28 value.sampleIndex.toUInt64 4
  let out := put out 32 value.jsInvocationState.toUInt64 1
  let out := copyTo out 33 value.jsInvocationReserved.toList
  let out := put out 36 value.jsInvocationId.toUInt64 4
  copyTo out 40 value.reserved.toList

/-- The overlay's record has no version, size or reserved members; the encoder
supplies the first two and leaves the rest zero. -/
structure NativeWasmExecutionOutcomePayload where
  kind : UInt8 := 0
  reason : UInt8 := 0
  bounds : UInt8 := 0
  known : UInt8 := 0
  functionIndex : UInt32 := 0
  moduleByteOffset : UInt32 := 0
  invocationId : UInt32 := 0
  relatedSampleIndex : UInt32 := kNativeWasmExecutionNoSample
  relatedStream : UInt8 := 0
  jsInvocationState : UInt8 := 0
  jsInvocationId : UInt32 := 0
  deriving DecidableEq, Repr

def encodeNativeWasmExecutionOutcomePayload (value : NativeWasmExecutionOutcomePayload) :
    List UInt8 :=
  let out := emptyPayload
  let out := put out 0 (1 : UInt16).toUInt64 2
  let out := put out 2 (128 : UInt16).toUInt64 2
  let out := put out 4 value.kind.toUInt64 1
  let out := put out 5 value.reason.toUInt64 1
  let out := put out 6 value.bounds.toUInt64 1
  let out := put out 7 value.known.toUInt64 1
  let out := put out 8 value.functionIndex.toUInt64 4
  let out := put out 12 value.moduleByteOffset.toUInt64 4
  let out := put out 16 value.invocationId.toUInt64 4
  let out := put out 20 value.relatedSampleIndex.toUInt64 4
  let out := put out 24 value.relatedStream.toUInt64 1
  let out := put out 28 value.jsInvocationState.toUInt64 1
  put out 32 value.jsInvocationId.toUInt64 4

/-! ## Observations -/

structure NativeWasmDispatchObservation where
  header : EventHeader := {}
  executionContextId : UInt64 := 0
  documentTokenHigh : UInt64 := 0
  documentTokenLow : UInt64 := 0
  functionIndex : UInt32 := 0
  moduleByteOffset : UInt32 := 0
  selector : UInt32 := 0
  tableCount : UInt32 := 0
  sampleIndex : UInt32 := 0
  jsInvocationState : UInt8 := 0
  jsInvocationId : UInt32 := 0
  callerObserved : Bool := false
  callerKind : UInt8 := kWasmDirectCallerUnknown
  callerFunctionIndex : UInt32 := 0
  sourceUrl : List UInt8 := []
  moduleBytes : List UInt8 := []
  deriving DecidableEq, Repr

structure NativeWasmIndirectObservation where
  header : EventHeader := {}
  executionContextId : UInt64 := 0
  documentTokenHigh : UInt64 := 0
  documentTokenLow : UInt64 := 0
  functionIndex : UInt32 := 0
  moduleByteOffset : UInt32 := 0
  tableIndex : UInt32 := 0
  slot : UInt32 := 0
  calleeFunctionIndex : UInt32 := 0
  /-- `kUnresolved` until the host stores the renderer's number. -/
  resolution : UInt32 := 4
  sampleIndex : UInt32 := 0
  jsInvocationState : UInt8 := 0
  jsInvocationId : UInt32 := 0
  sourceUrl : List UInt8 := []
  moduleBytes : List UInt8 := []
  deriving DecidableEq, Repr

structure NativeWasmExecutionObservation where
  header : EventHeader := {}
  executionContextId : UInt64 := 0
  documentTokenHigh : UInt64 := 0
  documentTokenLow : UInt64 := 0
  invocationId : UInt32 := 0
  functionIndex : UInt32 := 0
  moduleByteOffset : UInt32 := 0
  relatedSampleIndex : UInt32 := kNativeWasmExecutionNoSample
  kind : UInt8 := 0
  reason : UInt8 := 0
  bounds : UInt8 := 0
  known : UInt8 := 0
  relatedStream : UInt8 := NativeWasmExecutionStream.none
  jsInvocationState : UInt8 := 0
  jsInvocationId : UInt32 := 0
  sourceUrl : List UInt8 := []
  moduleBytes : List UInt8 := []
  deriving DecidableEq, Repr

/-! ## Input predicates -/

def wasmMagic : List UInt8 := [0, 97, 115, 109, 1, 0, 0, 0]

/-- The loop of `ReadNativeWasmU32` from its `i`-th byte: the immediate and the
offset after it, with V8's overflow rejection in the fifth byte. -/
def readNativeWasmU32From (bytes : List UInt8) : Nat → Nat → UInt32 → Option (UInt32 × Nat)
  | 0, _, _ => none
  | left + 1, offset, value =>
      let i := 4 - left
      match bytes[offset]? with
      | none => none
      | some byte =>
          if i == 4 && (byte &&& 0xf0) != 0 then none
          else
            let value := value ||| (byte &&& 0x7f).toUInt32 <<< (7 * i).toUInt32
            if (byte &&& 0x80) == 0 then some (value, offset + 1)
            else readNativeWasmU32From bytes left (offset + 1) value

def readNativeWasmU32 (bytes : List UInt8) (offset : Nat) : Option (UInt32 × Nat) :=
  readNativeWasmU32From bytes 5 offset 0

/-- The identity checks the three predicates open with. -/
def validNativeWasmIdentity (executionContextId frameId documentTokenHigh
    documentTokenLow : UInt64) (sourceUrl : List UInt8) : Bool :=
  executionContextId != 0 && frameId != 0 && (documentTokenHigh != 0 || documentTokenLow != 0) &&
    sourceUrl != [] && sourceUrl.length ≤ kNativeArtifactMaxUrlBytes

/-- A module of admissible size that opens with the WebAssembly magic. -/
def validNativeWasmModule (bytes : List UInt8) : Bool :=
  wasmMagic.length ≤ bytes.length && bytes.length ≤ kNativeArtifactMaxContentBytes &&
    bytes.take 8 == wasmMagic

def isValidNativeWasmDispatchInput (value : NativeWasmDispatchObservation) : Bool :=
  let bytes := value.moduleBytes
  if !(validNativeWasmIdentity value.executionContextId value.header.frameId
      value.documentTokenHigh value.documentTokenLow value.sourceUrl &&
      validNativeWasmModule bytes) || value.moduleByteOffset < 8 ||
      bytes.length ≤ value.moduleByteOffset.toNat ||
      bytes[value.moduleByteOffset.toNat]? != some 0x0e ||
      kNativeWasmDispatchSampleBudget ≤ value.sampleIndex ||
      !isValidNativeJsInvocationContext value.jsInvocationState value.jsInvocationId then false
  else
    -- An unwalked record can carry neither an unknown caller nor a named one.
    let callerClear := value.callerKind == kWasmDirectCallerUnknown &&
      value.callerFunctionIndex == 0
    let callerOk := callerClear || (value.callerObserved &&
      value.callerKind == kWasmDirectCallerSameInstance && value.callerFunctionIndex < 16777216)
    if !callerOk then false
    else
      -- The observed arm count must be the immediate's.
      match readNativeWasmU32 bytes (value.moduleByteOffset.toNat + 1) with
      | none => false
      | some (count, _) => count == value.tableCount

def isValidNativeWasmIndirectInput (value : NativeWasmIndirectObservation) : Bool :=
  let bytes := value.moduleBytes
  if !(validNativeWasmIdentity value.executionContextId value.header.frameId
      value.documentTokenHigh value.documentTokenLow value.sourceUrl &&
      validNativeWasmModule bytes) || value.moduleByteOffset < 8 ||
      bytes.length ≤ value.moduleByteOffset.toNat ||
      (bytes[value.moduleByteOffset.toNat]? != some 0x11 &&
        bytes[value.moduleByteOffset.toNat]? != some 0x13) ||
      kNativeWasmFunctionIndexLimit ≤ value.functionIndex ||
      kNativeWasmFunctionIndexLimit ≤ value.tableIndex ||
      kNativeWasmIndirectResolutionCount ≤ value.resolution ||
      kNativeWasmFunctionIndexLimit ≤ value.calleeFunctionIndex ||
      (value.resolution != NativeWasmIndirectResolution.resolved &&
        value.calleeFunctionIndex != 0) ||
      kNativeWasmIndirectSampleBudget ≤ value.sampleIndex ||
      !isValidNativeJsInvocationContext value.jsInvocationState value.jsInvocationId then false
  else
    -- Type index, then table index; the observed table must be the immediate's.
    match readNativeWasmU32 bytes (value.moduleByteOffset.toNat + 1) with
    | none => false
    | some (_, offset) =>
        match readNativeWasmU32 bytes offset with
        | none => false
        | some (tableIndex, _) => tableIndex == value.tableIndex

def isValidNativeWasmExecutionInput (value : NativeWasmExecutionObservation) : Bool :=
  let bytes := value.moduleBytes
  let functionKnown := (value.known &&& kNativeWasmExecutionFunctionKnown) != 0
  let offsetKnown := (value.known &&& kNativeWasmExecutionOffsetKnown) != 0
  if !validNativeWasmIdentity value.executionContextId value.header.frameId
      value.documentTokenHigh value.documentTokenLow value.sourceUrl ||
      value.invocationId == 0 || (value.known &&& ~~~3) != 0 || 1 < value.kind ||
      2 < value.relatedStream ||
      !isValidNativeJsInvocationContext value.jsInvocationState value.jsInvocationId then false
  else if (if functionKnown then kNativeWasmFunctionIndexLimit ≤ value.functionIndex
      else value.functionIndex != 0) then false
  else if (if offsetKnown then value.moduleByteOffset < 8 ||
        kNativeWasmFunctionIndexLimit ≤ value.moduleByteOffset
      else value.moduleByteOffset != 0) then false
  else if bytes != [] && (!validNativeWasmModule bytes ||
      (offsetKnown && bytes.length ≤ value.moduleByteOffset.toNat)) then false
  else if (if value.kind == NativeWasmExecutionKind.stillExecuting then
        value.reason != 0 || value.bounds != 0
      else kNativeWasmExecutionReasonCount ≤ value.reason) then false
  else if (if value.reason == NativeWasmExecutionReason.outOfBounds then
        kNativeWasmExecutionBoundsCount ≤ value.bounds
      else value.bounds != 0) then false
  else if value.relatedStream == NativeWasmExecutionStream.none then
    value.relatedSampleIndex == kNativeWasmExecutionNoSample
  else value.relatedSampleIndex < kNativeWasmIndirectSampleBudget

/-! ## What the core reads back -/

/-- The core's record with the same members. -/
def NativeWasmDispatchObservationPayload.toCore (value : NativeWasmDispatchObservationPayload) :
    WasmDispatchObservationPayload :=
  { protocolVersion := value.protocolVersion
    payloadSize := value.payloadSize
    functionIndex := value.functionIndex
    moduleByteOffset := value.moduleByteOffset
    selector := value.selector
    tableCount := value.tableCount
    sampleIndex := value.sampleIndex
    jsInvocationState := value.jsInvocationState
    jsInvocationReserved := value.jsInvocationReserved.toList
    jsInvocationId := value.jsInvocationId
    callerKind := value.callerKind
    callerReserved := value.callerReserved.toList
    callerFunctionIndex := value.callerFunctionIndex
    reserved := value.reserved.toList }

@[simp] theorem length_encodeNativeWasmDispatchObservationPayload
    (value : NativeWasmDispatchObservationPayload) :
    (encodeNativeWasmDispatchObservationPayload value).length = 128 := by
  simp [encodeNativeWasmDispatchObservationPayload]

theorem decode_encodeNativeWasmDispatch (value : NativeWasmDispatchObservationPayload) :
    decodeWasmDispatchObservationPayload (encodeNativeWasmDispatchObservationPayload value) =
      some value.toCore := by
  rw [decodeWasmDispatchObservationPayload, if_neg (by simp)]
  simp [encodeNativeWasmDispatchObservationPayload, NativeWasmDispatchObservationPayload.toCore]

def NativeWasmIndirectObservationPayload.toCore (value : NativeWasmIndirectObservationPayload) :
    WasmIndirectObservationPayload :=
  { protocolVersion := value.protocolVersion
    payloadSize := value.payloadSize
    functionIndex := value.functionIndex
    moduleByteOffset := value.moduleByteOffset
    tableIndex := value.tableIndex
    slot := value.slot
    calleeFunctionIndex := value.calleeFunctionIndex
    resolution := value.resolution
    sampleIndex := value.sampleIndex
    jsInvocationState := value.jsInvocationState
    jsInvocationReserved := value.jsInvocationReserved.toList
    jsInvocationId := value.jsInvocationId
    reserved := value.reserved.toList }

@[simp] theorem length_encodeNativeWasmIndirectObservationPayload
    (value : NativeWasmIndirectObservationPayload) :
    (encodeNativeWasmIndirectObservationPayload value).length = 128 := by
  simp [encodeNativeWasmIndirectObservationPayload]

theorem decode_encodeNativeWasmIndirect (value : NativeWasmIndirectObservationPayload) :
    decodeWasmIndirectObservationPayload (encodeNativeWasmIndirectObservationPayload value) =
      some value.toCore := by
  rw [decodeWasmIndirectObservationPayload, if_neg (by simp)]
  simp [encodeNativeWasmIndirectObservationPayload, NativeWasmIndirectObservationPayload.toCore]

/-- The members the overlay's record lacks read as version 1, size 128 and zero. -/
def NativeWasmExecutionOutcomePayload.toCore (value : NativeWasmExecutionOutcomePayload) :
    WasmExecutionOutcomePayload :=
  { protocolVersion := 1
    payloadSize := 128
    kind := value.kind
    reason := value.reason
    bounds := value.bounds
    known := value.known
    functionIndex := value.functionIndex
    moduleByteOffset := value.moduleByteOffset
    invocationId := value.invocationId
    relatedSampleIndex := value.relatedSampleIndex
    relatedStream := value.relatedStream
    reservedAfterStream := List.replicate 3 0
    jsInvocationState := value.jsInvocationState
    reservedAfterJsState := List.replicate 3 0
    jsInvocationId := value.jsInvocationId
    reserved := List.replicate 92 0 }

@[simp] theorem length_encodeNativeWasmExecutionOutcomePayload
    (value : NativeWasmExecutionOutcomePayload) :
    (encodeNativeWasmExecutionOutcomePayload value).length = 128 := by
  simp [encodeNativeWasmExecutionOutcomePayload]

theorem decode_encodeNativeWasmExecution (value : NativeWasmExecutionOutcomePayload) :
    decodeWasmExecutionOutcomePayload (encodeNativeWasmExecutionOutcomePayload value) =
      some value.toCore := by
  rw [decodeWasmExecutionOutcomePayload, if_neg (by simp)]
  simp [encodeNativeWasmExecutionOutcomePayload, NativeWasmExecutionOutcomePayload.toCore]
  exact ⟨getU16_put _ 0 1 (by simp), getU16_put _ 2 128 (by simp)⟩

end Reb.Capture
