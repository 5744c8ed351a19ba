/-
# Capture.WasmDispatch -- WebAssembly dispatch payloads

`include/reb/wasm_guest.hpp`: a guest activation and one dispatch inside it, as an adapter
interprets them.  `include/reb/wasm_dispatch.hpp`: `br_table` and `call_indirect`
observations, the outcome that follows one host-visible call, and the two compact identities
kept for an execution a budget refused.
-/
import Reb.Capture.JsInvocation

namespace Reb.Capture

set_option autoImplicit false

def kWasmGuestSiteLimit : UInt32 := 8
def kWasmGuestIndexLimit : UInt32 := 16777216

/-- `wasm_guest_detail::Envelope`. -/
def wasmGuestEnvelope (event : EventRecord) : Bool :=
  let h := event.header
  h.protocolVersion == kEventProtocolVersion && h.category == .vm && h.payloadSize == 128 &&
    h.flags == 0 && h.sessionId != 0 && h.sequenceNumber != 0 && h.processId != 0 &&
    h.threadId != 0 && h.monotonicTimeNs != 0 && h.frameId != 0 && h.artifactId != 0

structure WasmGuestDispatchPayload where
  protocolVersion : UInt16
  payloadSize : UInt16
  functionIndex : UInt32
  moduleByteOffset : UInt32
  selector : UInt32
  tableCount : UInt32
  sampleIndex : UInt32
  instanceId : UInt64
  invocationId : UInt64
  guestPc : UInt64
  rawPcBits : UInt64
  bytecodeArtifactId : UInt64
  memoryBase : UInt64
  memoryLength : UInt32
  pcLocalIndex : UInt32
  pcAdjustment : Int64
  memoryIndex : UInt32
  opcode : UInt32
  recipeSha256 : List UInt8
  deriving DecidableEq, Repr

def decodeWasmGuestDispatchPayload (bytes : List UInt8) : Option WasmGuestDispatchPayload :=
  if bytes.length ≠ 128 then none
  else some
    { protocolVersion := getU16 bytes 0
      payloadSize := getU16 bytes 2
      functionIndex := getU32 bytes 4
      moduleByteOffset := getU32 bytes 8
      selector := getU32 bytes 12
      tableCount := getU32 bytes 16
      sampleIndex := getU32 bytes 20
      instanceId := getU64 bytes 24
      invocationId := getU64 bytes 32
      guestPc := getU64 bytes 40
      rawPcBits := getU64 bytes 48
      bytecodeArtifactId := getU64 bytes 56
      memoryBase := getU64 bytes 64
      memoryLength := getU32 bytes 72
      pcLocalIndex := getU32 bytes 76
      pcAdjustment := (getU64 bytes 80).toInt64
      memoryIndex := getU32 bytes 88
      opcode := getU32 bytes 92
      recipeSha256 := slice bytes 96 32 }

structure WasmGuestInvocationPayload where
  protocolVersion : UInt16
  payloadSize : UInt16
  functionIndex : UInt32
  instanceId : UInt64
  invocationId : UInt64
  adapterArtifactId : UInt64
  recipeSha256 : List UInt8
  parentInvocationId : UInt64
  parentDispatchSequenceNumber : UInt64
  siteIndex : UInt32
  jsInvocationState : UInt8
  jsInvocationReserved : List UInt8
  jsInvocationId : UInt32
  reserved : List UInt8
  deriving DecidableEq, Repr

def decodeWasmGuestInvocationPayload (bytes : List UInt8) : Option WasmGuestInvocationPayload :=
  if bytes.length ≠ 128 then none
  else some
    { protocolVersion := getU16 bytes 0
      payloadSize := getU16 bytes 2
      functionIndex := getU32 bytes 4
      instanceId := getU64 bytes 8
      invocationId := getU64 bytes 16
      adapterArtifactId := getU64 bytes 24
      recipeSha256 := slice bytes 32 32
      parentInvocationId := getU64 bytes 64
      parentDispatchSequenceNumber := getU64 bytes 72
      siteIndex := getU32 bytes 80
      jsInvocationState := getU8 bytes 84
      jsInvocationReserved := slice bytes 85 3
      jsInvocationId := getU32 bytes 88
      reserved := slice bytes 92 36 }

def isValidWasmGuestDispatch (event : EventRecord) : Bool :=
  wasmGuestEnvelope event && event.header.type == .wasmGuestDispatch &&
    event.header.parentEventId != 0 &&
    event.header.parentEventId < event.header.sequenceNumber &&
    match decodeWasmGuestDispatchPayload event.inlinePayload.toList with
    | none => false
    | some value =>
        value.protocolVersion == 1 && value.payloadSize == 128 &&
        value.functionIndex < kWasmGuestIndexLimit && 8 ≤ value.moduleByteOffset &&
        value.moduleByteOffset < kWasmGuestIndexLimit &&
        value.tableCount < kWasmGuestIndexLimit && value.sampleIndex < 256 &&
        value.instanceId != 0 && value.invocationId != 0 && value.bytecodeArtifactId != 0 &&
        value.bytecodeArtifactId != event.header.artifactId && value.memoryLength != 0 &&
        value.memoryLength ≤ 65536 && value.guestPc < value.memoryLength.toUInt64 &&
        value.memoryBase ≤ 0xffffffffffffffff - value.memoryLength.toUInt64 &&
        value.recipeSha256.any (· != 0)

def isValidWasmGuestInvocation (event : EventRecord) : Bool :=
  wasmGuestEnvelope event && event.header.type == .wasmGuestInvocation &&
    event.header.parentEventId == 0 &&
    match decodeWasmGuestInvocationPayload event.inlinePayload.toList with
    | none => false
    | some value =>
        1 ≤ value.protocolVersion && value.protocolVersion ≤ 4 && value.payloadSize == 128 &&
        value.functionIndex < kWasmGuestIndexLimit && value.instanceId != 0 &&
        value.invocationId != 0 && value.parentInvocationId != value.invocationId &&
        -- Version 2 added the parent dispatch, 3 the site, 4 the JavaScript context.
        (2 ≤ value.protocolVersion || value.parentDispatchSequenceNumber == 0) &&
        (3 ≤ value.protocolVersion || value.siteIndex == 0) &&
        (value.protocolVersion == 4 ||
          (value.jsInvocationState == 0 && value.jsInvocationId == 0)) &&
        isValidJsInvocationContext value.jsInvocationState value.jsInvocationId &&
        allZero value.jsInvocationReserved && value.siteIndex < kWasmGuestSiteLimit &&
        (value.parentDispatchSequenceNumber == 0 ||
          (value.parentInvocationId != 0 &&
            value.parentDispatchSequenceNumber < event.header.sequenceNumber)) &&
        value.adapterArtifactId != 0 && value.adapterArtifactId != event.header.artifactId &&
        value.recipeSha256.any (· != 0) && allZero value.reserved

/-! ## Physical dispatch -/

def kWasmDirectCallerUnknown : UInt8 := 0
def kWasmDirectCallerSameInstance : UInt8 := 1
/-- `16U * 1024U * 1024U`. -/
def kWasmFieldLimit : UInt32 := 16777216
def kWasmIndirectResolutionCount : UInt32 := 5
def kWasmExecutionReasonCount : UInt8 := 6
def kWasmExecutionBoundsCount : UInt8 := 7
def kWasmExecutionFunctionKnown : UInt8 := 1
def kWasmExecutionOffsetKnown : UInt8 := 2
def kWasmExecutionNoSample : UInt32 := 0xffffffff
def kWasmOverflowKindIdentity : UInt8 := 1
def kWasmOverflowKindOmitted : UInt8 := 2
def kWasmOverflowRingLimit : UInt16 := 32

/-- The header checks the five records share; they differ in type, payload size
and in whether the record names the artifact of its module. -/
def wasmEnvelope (event : EventRecord) (type : EventType) (payloadSize : UInt32)
    (hasArtifact : Bool) : Bool :=
  let h := event.header
  h.protocolVersion == kEventProtocolVersion && h.category == .vm && h.type == type &&
    h.payloadSize == payloadSize && h.flags == 0 && h.sessionId != 0 && h.sequenceNumber != 0 &&
    h.processId != 0 && h.threadId != 0 && h.monotonicTimeNs != 0 && h.frameId != 0 &&
    (h.artifactId != 0) == hasArtifact && h.parentEventId == 0

def validModuleOffset (offset : UInt32) : Bool := 8 ≤ offset && offset < kWasmFieldLimit

/-! ## `br_table` -/

structure WasmDispatchObservationPayload where
  protocolVersion : UInt16
  payloadSize : UInt16
  functionIndex : UInt32
  moduleByteOffset : UInt32
  selector : UInt32
  tableCount : UInt32
  sampleIndex : UInt32
  jsInvocationState : UInt8
  jsInvocationReserved : List UInt8
  jsInvocationId : UInt32
  callerKind : UInt8
  callerReserved : List UInt8
  callerFunctionIndex : UInt32
  reserved : List UInt8
  deriving DecidableEq, Repr

def decodeWasmDispatchObservationPayload (bytes : List UInt8) :
    Option WasmDispatchObservationPayload :=
  if bytes.length ≠ 128 then none
  else some
    { protocolVersion := getU16 bytes 0
      payloadSize := getU16 bytes 2
      functionIndex := getU32 bytes 4
      moduleByteOffset := getU32 bytes 8
      selector := getU32 bytes 12
      tableCount := getU32 bytes 16
      sampleIndex := getU32 bytes 20
      jsInvocationState := getU8 bytes 24
      jsInvocationReserved := slice bytes 25 3
      jsInvocationId := getU32 bytes 28
      callerKind := getU8 bytes 32
      callerReserved := slice bytes 33 3
      callerFunctionIndex := getU32 bytes 36
      reserved := slice bytes 40 88 }

/-- Versions 1 and 2 did not walk a caller; version 3 records one. -/
def validDirectCaller (value : WasmDispatchObservationPayload) : Bool :=
  (value.protocolVersion < 3 && value.callerKind == 0 && value.callerFunctionIndex == 0) ||
    (value.protocolVersion == 3 &&
      ((value.callerKind == kWasmDirectCallerUnknown && value.callerFunctionIndex == 0) ||
        (value.callerKind == kWasmDirectCallerSameInstance &&
          value.callerFunctionIndex < kWasmFieldLimit)))

def isValidWasmDispatchObservation (event : EventRecord) : Bool :=
  wasmEnvelope event .wasmDispatchObservation 128 true &&
    match decodeWasmDispatchObservationPayload event.inlinePayload.toList with
    | none => false
    | some value =>
        (value.protocolVersion == 1 || value.protocolVersion == 2 ||
          value.protocolVersion == 3) && value.payloadSize == 128 &&
        value.functionIndex < kWasmFieldLimit && value.tableCount < kWasmFieldLimit &&
        validModuleOffset value.moduleByteOffset && value.sampleIndex < 16 &&
        -- Version 1 reserved the context bytes, so it can only be not_observed.
        (2 ≤ value.protocolVersion ||
          (value.jsInvocationState == 0 && value.jsInvocationId == 0)) &&
        isValidJsInvocationContext value.jsInvocationState value.jsInvocationId &&
        allZero value.jsInvocationReserved && allZero value.callerReserved &&
        allZero value.reserved && validDirectCaller value

/-! ## `call_indirect` -/

structure WasmIndirectObservationPayload where
  protocolVersion : UInt16
  payloadSize : UInt16
  functionIndex : UInt32
  moduleByteOffset : UInt32
  tableIndex : UInt32
  slot : UInt32
  calleeFunctionIndex : UInt32
  resolution : UInt32
  sampleIndex : UInt32
  jsInvocationState : UInt8
  jsInvocationReserved : List UInt8
  jsInvocationId : UInt32
  reserved : List UInt8
  deriving DecidableEq, Repr

def decodeWasmIndirectObservationPayload (bytes : List UInt8) :
    Option WasmIndirectObservationPayload :=
  if bytes.length ≠ 128 then none
  else some
    { protocolVersion := getU16 bytes 0
      payloadSize := getU16 bytes 2
      functionIndex := getU32 bytes 4
      moduleByteOffset := getU32 bytes 8
      tableIndex := getU32 bytes 12
      slot := getU32 bytes 16
      calleeFunctionIndex := getU32 bytes 20
      resolution := getU32 bytes 24
      sampleIndex := getU32 bytes 28
      jsInvocationState := getU8 bytes 32
      jsInvocationReserved := slice bytes 33 3
      jsInvocationId := getU32 bytes 36
      reserved := slice bytes 40 88 }

def isValidWasmIndirectObservation (event : EventRecord) : Bool :=
  wasmEnvelope event .wasmIndirectObservation 128 true &&
    match decodeWasmIndirectObservationPayload event.inlinePayload.toList with
    | none => false
    | some value =>
        (value.protocolVersion == 1 || value.protocolVersion == 2) && value.payloadSize == 128 &&
        (value.protocolVersion == 2 ||
          (value.jsInvocationState == 0 && value.jsInvocationId == 0)) &&
        isValidJsInvocationContext value.jsInvocationState value.jsInvocationId &&
        allZero value.jsInvocationReserved && value.functionIndex < kWasmFieldLimit &&
        value.tableIndex < kWasmFieldLimit && value.calleeFunctionIndex < kWasmFieldLimit &&
        validModuleOffset value.moduleByteOffset &&
        value.resolution < kWasmIndirectResolutionCount &&
        -- Resolution 0 is kResolved; nothing else names a callee.
        (value.resolution == 0 || value.calleeFunctionIndex == 0) &&
        value.sampleIndex < 16 && allZero value.reserved

/-! ## Execution outcome -/

structure WasmExecutionOutcomePayload where
  protocolVersion : UInt16
  payloadSize : UInt16
  kind : UInt8
  reason : UInt8
  bounds : UInt8
  known : UInt8
  functionIndex : UInt32
  moduleByteOffset : UInt32
  invocationId : UInt32
  relatedSampleIndex : UInt32
  relatedStream : UInt8
  reservedAfterStream : List UInt8
  jsInvocationState : UInt8
  reservedAfterJsState : List UInt8
  jsInvocationId : UInt32
  reserved : List UInt8
  deriving DecidableEq, Repr

def decodeWasmExecutionOutcomePayload (bytes : List UInt8) :
    Option WasmExecutionOutcomePayload :=
  if bytes.length ≠ 128 then none
  else some
    { protocolVersion := getU16 bytes 0
      payloadSize := getU16 bytes 2
      kind := getU8 bytes 4
      reason := getU8 bytes 5
      bounds := getU8 bytes 6
      known := getU8 bytes 7
      functionIndex := getU32 bytes 8
      moduleByteOffset := getU32 bytes 12
      invocationId := getU32 bytes 16
      relatedSampleIndex := getU32 bytes 20
      relatedStream := getU8 bytes 24
      reservedAfterStream := slice bytes 25 3
      jsInvocationState := getU8 bytes 28
      reservedAfterJsState := slice bytes 29 3
      jsInvocationId := getU32 bytes 32
      reserved := slice bytes 36 92 }

/-- The checks after the envelope.  A clear known bit stores integer 0; a
still-executing record (kind 1) names no reason; only `out_of_bounds` (reason 3)
names a bounds class. -/
def validExecutionOutcome (value : WasmExecutionOutcomePayload) : Bool :=
  let functionKnown := (value.known &&& kWasmExecutionFunctionKnown) != 0
  let offsetKnown := (value.known &&& kWasmExecutionOffsetKnown) != 0
  (if functionKnown then value.functionIndex < kWasmFieldLimit else value.functionIndex == 0) &&
    (if offsetKnown then validModuleOffset value.moduleByteOffset
      else value.moduleByteOffset == 0) &&
    (if value.kind == 1 then value.reason == 0 && value.bounds == 0
      else value.reason < kWasmExecutionReasonCount) &&
    (if value.reason == 3 then value.bounds < kWasmExecutionBoundsCount
      else value.bounds == 0) &&
    (if value.relatedStream == 0 then value.relatedSampleIndex == kWasmExecutionNoSample
      else value.relatedSampleIndex < 16)

def isValidWasmExecutionOutcome (event : EventRecord) : Bool :=
  wasmEnvelope event .wasmExecutionOutcome 128 true &&
    match decodeWasmExecutionOutcomePayload event.inlinePayload.toList with
    | none => false
    | some value =>
        value.protocolVersion == 1 && value.payloadSize == 128 &&
        isValidJsInvocationContext value.jsInvocationState value.jsInvocationId &&
        value.invocationId != 0 && value.kind ≤ 1 && (value.known &&& ~~~3) == 0 &&
        value.relatedStream ≤ 2 && allZero value.reservedAfterStream &&
        allZero value.reservedAfterJsState && allZero value.reserved &&
        validExecutionOutcome value

/-! ## Overflow identities -/

structure WasmDispatchOverflowPayload where
  protocolVersion : UInt16
  payloadSize : UInt16
  kind : UInt8
  reserved0 : UInt8
  ringIndex : UInt16
  functionIndex : UInt32
  moduleByteOffset : UInt32
  selector : UInt32
  armCount : UInt32
  omittedCount : UInt32
  reserved1 : UInt32
  deriving DecidableEq, Repr

def decodeWasmDispatchOverflowPayload (bytes : List UInt8) :
    Option WasmDispatchOverflowPayload :=
  if bytes.length ≠ 32 then none
  else some
    { protocolVersion := getU16 bytes 0
      payloadSize := getU16 bytes 2
      kind := getU8 bytes 4
      reserved0 := getU8 bytes 5
      ringIndex := getU16 bytes 6
      functionIndex := getU32 bytes 8
      moduleByteOffset := getU32 bytes 12
      selector := getU32 bytes 16
      armCount := getU32 bytes 20
      omittedCount := getU32 bytes 24
      reserved1 := getU32 bytes 28 }

structure WasmIndirectOverflowPayload where
  protocolVersion : UInt16
  payloadSize : UInt16
  kind : UInt8
  reserved0 : UInt8
  ringIndex : UInt16
  functionIndex : UInt32
  moduleByteOffset : UInt32
  tableIndex : UInt32
  slot : UInt32
  resolution : UInt32
  omittedCount : UInt32
  reserved1 : UInt64
  deriving DecidableEq, Repr

def decodeWasmIndirectOverflowPayload (bytes : List UInt8) :
    Option WasmIndirectOverflowPayload :=
  if bytes.length ≠ 40 then none
  else some
    { protocolVersion := getU16 bytes 0
      payloadSize := getU16 bytes 2
      kind := getU8 bytes 4
      reserved0 := getU8 bytes 5
      ringIndex := getU16 bytes 6
      functionIndex := getU32 bytes 8
      moduleByteOffset := getU32 bytes 12
      tableIndex := getU32 bytes 16
      slot := getU32 bytes 20
      resolution := getU32 bytes 24
      omittedCount := getU32 bytes 28
      reserved1 := getU64 bytes 32 }

def overflowTailIsZero (event : EventRecord) (payloadSize : Nat) : Bool :=
  allZero (event.inlinePayload.toList.drop payloadSize)

def isValidWasmDispatchOverflow (event : EventRecord) : Bool :=
  wasmEnvelope event .wasmDispatchOverflow 32 false && overflowTailIsZero event 32 &&
    match decodeWasmDispatchOverflowPayload (event.inlinePayload.toList.take 32) with
    | none => false
    | some value =>
        value.protocolVersion == 1 && value.payloadSize == 32 && value.reserved0 == 0 &&
        value.reserved1 == 0 &&
        if value.kind == kWasmOverflowKindIdentity then
          value.omittedCount == 0 && value.ringIndex < kWasmOverflowRingLimit &&
            value.functionIndex < kWasmFieldLimit && value.armCount < kWasmFieldLimit &&
            validModuleOffset value.moduleByteOffset
        else
          value.kind == kWasmOverflowKindOmitted && value.ringIndex == 0 &&
            value.functionIndex == 0 && value.moduleByteOffset == 0 && value.selector == 0 &&
            value.armCount == 0 && 1 ≤ value.omittedCount

def isValidWasmIndirectOverflow (event : EventRecord) : Bool :=
  wasmEnvelope event .wasmIndirectOverflow 40 false && overflowTailIsZero event 40 &&
    match decodeWasmIndirectOverflowPayload (event.inlinePayload.toList.take 40) with
    | none => false
    | some value =>
        value.protocolVersion == 1 && value.payloadSize == 40 && value.reserved0 == 0 &&
        value.reserved1 == 0 &&
        if value.kind == kWasmOverflowKindIdentity then
          value.omittedCount == 0 && value.ringIndex < kWasmOverflowRingLimit &&
            value.functionIndex < kWasmFieldLimit && value.tableIndex < kWasmFieldLimit &&
            validModuleOffset value.moduleByteOffset &&
            value.resolution < kWasmIndirectResolutionCount
        else
          value.kind == kWasmOverflowKindOmitted && value.ringIndex == 0 &&
            value.functionIndex == 0 && value.moduleByteOffset == 0 && value.tableIndex == 0 &&
            value.slot == 0 && value.resolution == 0 && 1 ≤ value.omittedCount

end Reb.Capture
