/-
# Capture.NativeJsPayloads -- the overlay's JavaScript records

`common/native_js_dispatch.h` and `common/native_js_invocation.h`: the four
payloads the renderer writes, with the predicate it checks each against and the
headers it accepts.  Only the dispatch record has a decoder in the overlay.
-/
import Reb.Capture.JsEncoding
import Reb.Capture.NativeWasmDispatch

namespace Reb.Capture

set_option autoImplicit false

open Reb.Theory.LittleEndian

/-! ## Constants -/

namespace NativeJsDispatchShape

end NativeJsDispatchShape

namespace NativeJsDispatchSelectorKind

def integer : UInt8 := 1
def boolean : UInt8 := 7

end NativeJsDispatchSelectorKind

def kNativeJsInvocationValueKindLimit : UInt8 := 14
structure NativeJsDispatchObservationPayload where
  protocolVersion : UInt16 := 1
  payloadSize : UInt16 := 128
  shape : UInt8 := 0
  selectorKind : UInt8 := 0
  siteSlot : UInt8 := 0
  flags : UInt8 := 0
  scriptId : UInt32 := 0
  anchorOffset : UInt32 := 0
  sourceLength : UInt32 := 0
  selectorLow32 : UInt32 := 0
  handlerScriptId : UInt32 := 0
  handlerStart : UInt32 := 0
  handlerEnd : UInt32 := 0
  activationId : UInt32 := 0
  parentActivationId : UInt32 := 0
  siteSampleIndex : UInt16 := 0
  sampleIndex : UInt16 := 0
  sourceSha256 : Vector UInt8 32 := Vector.replicate 32 0
  reserved : Vector UInt8 48 := Vector.replicate 48 0
  deriving DecidableEq, Repr

namespace NativeJsInvocation

def validKind (kind : UInt8) : Bool := 1 ≤ kind && kind ≤ kNativeJsInvocationValueKindLimit

def validLowBits (kind : UInt8) (low32 : UInt32) : Bool :=
  kind == 1 || (if kind == 7 then low32 ≤ 1 else low32 == 0)

def envelope (header : EventHeader) (type : EventType) : Bool :=
  header.protocolVersion == kEventProtocolVersion && header.headerSize == kEventHeaderSize &&
    header.category == .vm && header.type == type && header.payloadSize == 128 &&
    header.flags == 0 && header.sessionId != 0 && header.sequenceNumber != 0 &&
    header.monotonicTimeNs != 0 && header.processId != 0 && header.threadId != 0 &&
    header.artifactId == 0 && header.parentEventId == 0 && header.navigationId == 0

end NativeJsInvocation

structure NativeJsInvocationStartPayload where
  protocolVersion : UInt16 := 1
  payloadSize : UInt16 := 128
  siteSlot : UInt8 := 0
  flags : UInt8 := 0
  argumentCount : UInt16 := 0
  scriptId : UInt32 := 0
  anchorOffset : UInt32 := 0
  sourceLength : UInt32 := 0
  invocationId : UInt32 := 0
  parentInvocationId : UInt32 := 0
  siteSampleIndex : UInt16 := 0
  sampleIndex : UInt16 := 0
  argumentKinds : Vector UInt8 8 := Vector.replicate 8 0
  argumentLow32 : Vector UInt32 8 := Vector.replicate 8 0
  sourceSha256 : Vector UInt8 32 := Vector.replicate 32 0
  documentId : UInt64 := 0
  reserved : Vector UInt8 16 := Vector.replicate 16 0
  deriving DecidableEq, Repr

structure NativeJsInvocationSettlePayload where
  protocolVersion : UInt16 := 1
  payloadSize : UInt16 := 128
  siteSlot : UInt8 := 0
  outcome : UInt8 := 0
  via : UInt8 := 0
  valueKind : UInt8 := 0
  invocationId : UInt32 := 0
  valueLength : UInt32 := 0
  digestState : UInt8 := 0
  digestEncoding : UInt8 := 0
  flags : UInt8 := 0
  reserved0 : UInt8 := 0
  digestByteLength : UInt32 := 0
  rollingHash : UInt64 := 0
  valueSha256 : Vector UInt8 32 := Vector.replicate 32 0
  documentId : UInt64 := 0
  reserved : Vector UInt8 56 := Vector.replicate 56 0
  deriving DecidableEq, Repr

structure NativeJsInvocationRequestPayload where
  protocolVersion : UInt16 := 1
  payloadSize : UInt16 := 128
  state : UInt8 := 0
  reserved0 : Vector UInt8 3 := Vector.replicate 3 0
  invocationId : UInt32 := 0
  sampleIndex : UInt16 := 0
  reserved1 : UInt16 := 0
  reserved : Vector UInt8 112 := Vector.replicate 112 0
  deriving DecidableEq, Repr

def NativeJsDispatchObservationPayload.toCore (value : NativeJsDispatchObservationPayload) :
    JsDispatchObservationPayload :=
  { protocolVersion := value.protocolVersion
    payloadSize := value.payloadSize
    shape := value.shape
    selectorKind := value.selectorKind
    siteSlot := value.siteSlot
    flags := value.flags
    scriptId := value.scriptId
    anchorOffset := value.anchorOffset
    sourceLength := value.sourceLength
    selectorLow32 := value.selectorLow32
    handlerScriptId := value.handlerScriptId
    handlerStart := value.handlerStart
    handlerEnd := value.handlerEnd
    activationId := value.activationId
    parentActivationId := value.parentActivationId
    siteSampleIndex := value.siteSampleIndex
    sampleIndex := value.sampleIndex
    sourceSha256 := value.sourceSha256.toList
    reserved := value.reserved.toList }

def NativeJsInvocationStartPayload.toCore (value : NativeJsInvocationStartPayload) :
    JsInvocationStartPayload :=
  { protocolVersion := value.protocolVersion
    payloadSize := value.payloadSize
    siteSlot := value.siteSlot
    flags := value.flags
    argumentCount := value.argumentCount
    scriptId := value.scriptId
    anchorOffset := value.anchorOffset
    sourceLength := value.sourceLength
    invocationId := value.invocationId
    parentInvocationId := value.parentInvocationId
    siteSampleIndex := value.siteSampleIndex
    sampleIndex := value.sampleIndex
    argumentKinds := value.argumentKinds.toList
    argumentLow32 := value.argumentLow32.toList
    sourceSha256 := value.sourceSha256.toList
    documentId := value.documentId
    reserved := value.reserved.toList }

def NativeJsInvocationSettlePayload.toCore (value : NativeJsInvocationSettlePayload) :
    JsInvocationSettlePayload :=
  { protocolVersion := value.protocolVersion
    payloadSize := value.payloadSize
    siteSlot := value.siteSlot
    outcome := value.outcome
    via := value.via
    valueKind := value.valueKind
    invocationId := value.invocationId
    valueLength := value.valueLength
    digestState := value.digestState
    digestEncoding := value.digestEncoding
    flags := value.flags
    reserved0 := value.reserved0
    digestByteLength := value.digestByteLength
    rollingHash := value.rollingHash
    valueSha256 := value.valueSha256.toList
    documentId := value.documentId
    reserved := value.reserved.toList }

def NativeJsInvocationRequestPayload.toCore (value : NativeJsInvocationRequestPayload) :
    JsInvocationRequestPayload :=
  { protocolVersion := value.protocolVersion
    payloadSize := value.payloadSize
    state := value.state
    reserved0 := value.reserved0.toList
    invocationId := value.invocationId
    sampleIndex := value.sampleIndex
    reserved1 := value.reserved1
    reserved := value.reserved.toList }

theorem NativeJsDispatchObservationPayload.sized (value : NativeJsDispatchObservationPayload) :
    value.toCore.Sized :=
  ⟨Vector.length_toList, Vector.length_toList⟩

theorem NativeJsInvocationStartPayload.sized (value : NativeJsInvocationStartPayload) :
    value.toCore.Sized :=
  ⟨Vector.length_toList, Vector.length_toList, Vector.length_toList, Vector.length_toList⟩

theorem NativeJsInvocationSettlePayload.sized (value : NativeJsInvocationSettlePayload) :
    value.toCore.Sized :=
  ⟨Vector.length_toList, Vector.length_toList⟩

theorem NativeJsInvocationRequestPayload.sized (value : NativeJsInvocationRequestPayload) :
    value.toCore.Sized :=
  ⟨Vector.length_toList, Vector.length_toList⟩

/-! The two encoders write the same bytes. -/

end Reb.Capture
