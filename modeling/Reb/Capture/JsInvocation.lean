/-
# Capture.JsInvocation -- JavaScript invocation payloads

The three invocation records of `include/reb/js_invocation.hpp`: start, settle
and request.  Each payload is decoded from the 128 inline bytes and checked on
its own; the event-level predicates add the envelope the three share.
-/
import Reb.Capture.Event

namespace Reb.Capture

set_option autoImplicit false

def kJsInvocationSiteLimit : UInt8 := 8
def kJsInvocationSampleBudget : UInt16 := 256
def kJsInvocationSiteSampleBudget : UInt16 := 64
def kJsInvocationRequestBudget : UInt16 := 256
def kJsInvocationArgumentLimit : Nat := 8
def kJsInvocationDigestByteLimit : UInt32 := 1048576
def kJsInvocationValueKindLimit : UInt8 := 14

namespace JsInvocationValueKind

def integer : UInt8 := 1
def string : UInt8 := 3
def boolean : UInt8 := 7
def array : UInt8 := 11
def arrayBuffer : UInt8 := 12
def arrayBufferView : UInt8 := 13

end JsInvocationValueKind

namespace JsInvocationContextState

def inside : UInt8 := 2
def unknown : UInt8 := 3

end JsInvocationContextState

def kJsInvocationParentUnknown : UInt8 := 1
def kJsInvocationArgumentsTruncated : UInt8 := 2
def kJsInvocationStartKnownFlags : UInt8 :=
  kJsInvocationParentUnknown ||| kJsInvocationArgumentsTruncated
def kJsInvocationLossyUtf8 : UInt8 := 1

namespace JsInvocation

/-- `js_invocation_detail::Envelope`. -/
def envelope (event : EventRecord) (type : EventType) : Bool :=
  let h := event.header
  h.protocolVersion == kEventProtocolVersion && h.category == .vm && h.type == type &&
    h.payloadSize == 128 && h.flags == 0 && h.sessionId != 0 && h.sequenceNumber != 0 &&
    h.processId != 0 && h.threadId != 0 && h.monotonicTimeNs != 0 && h.artifactId == 0 &&
    h.parentEventId == 0 && h.navigationId == 0

def validKind (kind : UInt8) : Bool := 1 ≤ kind && kind ≤ kJsInvocationValueKindLimit

/-- Integer and boolean values record low bits; every other kind records zero. -/
def validLowBits (kind : UInt8) (low32 : UInt32) : Bool :=
  if kind == JsInvocationValueKind.integer then true
  else if kind == JsInvocationValueKind.boolean then low32 ≤ 1
  else low32 == 0

end JsInvocation

def isValidJsInvocationContext (state : UInt8) (invocationId : UInt32) : Bool :=
  state ≤ JsInvocationContextState.unknown &&
    ((state == JsInvocationContextState.inside) == (invocationId != 0))

/-! ## Start -/

structure JsInvocationStartPayload where
  protocolVersion : UInt16
  payloadSize : UInt16
  siteSlot : UInt8
  flags : UInt8
  argumentCount : UInt16
  scriptId : UInt32
  anchorOffset : UInt32
  sourceLength : UInt32
  invocationId : UInt32
  parentInvocationId : UInt32
  siteSampleIndex : UInt16
  sampleIndex : UInt16
  argumentKinds : List UInt8
  argumentLow32 : List UInt32
  sourceSha256 : List UInt8
  documentId : UInt64
  reserved : List UInt8
  deriving DecidableEq, Repr

def decodeJsInvocationStartPayload (bytes : List UInt8) : Option JsInvocationStartPayload :=
  if bytes.length ≠ 128 then none
  else some
    { protocolVersion := getU16 bytes 0
      payloadSize := getU16 bytes 2
      siteSlot := getU8 bytes 4
      flags := getU8 bytes 5
      argumentCount := getU16 bytes 6
      scriptId := getU32 bytes 8
      anchorOffset := getU32 bytes 12
      sourceLength := getU32 bytes 16
      invocationId := getU32 bytes 20
      parentInvocationId := getU32 bytes 24
      siteSampleIndex := getU16 bytes 28
      sampleIndex := getU16 bytes 30
      argumentKinds := (List.range kJsInvocationArgumentLimit).map fun i => getU8 bytes (32 + i)
      argumentLow32 := (List.range kJsInvocationArgumentLimit).map fun i => getU32 bytes (40 + 4 * i)
      sourceSha256 := slice bytes 72 32
      documentId := getU64 bytes 104
      reserved := slice bytes 112 16 }

def isValidJsInvocationStartPayload (value : JsInvocationStartPayload) : Bool :=
  if value.protocolVersion != 1 || value.payloadSize != 128 ||
      kJsInvocationSiteLimit ≤ value.siteSlot ||
      (value.flags &&& ~~~kJsInvocationStartKnownFlags) != 0 || value.scriptId == 0 ||
      value.sourceLength == 0 || value.sourceLength ≤ value.anchorOffset ||
      value.invocationId == 0 || kJsInvocationSiteSampleBudget ≤ value.siteSampleIndex ||
      kJsInvocationSampleBudget ≤ value.sampleIndex || value.documentId == 0 then false
  -- A parent is an earlier allocation; an unknown parent records none.
  else if value.parentInvocationId != 0 && (value.invocationId ≤ value.parentInvocationId ||
      (value.flags &&& kJsInvocationParentUnknown) != 0) then false
  else if ((value.flags &&& kJsInvocationArgumentsTruncated) != 0) !=
      (kJsInvocationArgumentLimit < value.argumentCount.toNat) then false
  else
    ((List.range kJsInvocationArgumentLimit).all fun i =>
      let kind := value.argumentKinds.getD i 0
      let low32 := value.argumentLow32.getD i 0
      if i < value.argumentCount.toNat then
        JsInvocation.validKind kind && JsInvocation.validLowBits kind low32
      else kind == 0 && low32 == 0) &&
    allZero value.reserved

def isValidJsInvocationStart (event : EventRecord) : Bool :=
  JsInvocation.envelope event .jsInvocationStart && event.header.frameId != 0 &&
    event.header.requestId == 0 &&
    match decodeJsInvocationStartPayload event.inlinePayload.toList with
    | some value => isValidJsInvocationStartPayload value
    | none => false

/-! ## Settle -/

structure JsInvocationSettlePayload where
  protocolVersion : UInt16
  payloadSize : UInt16
  siteSlot : UInt8
  outcome : UInt8
  via : UInt8
  valueKind : UInt8
  invocationId : UInt32
  valueLength : UInt32
  digestState : UInt8
  digestEncoding : UInt8
  flags : UInt8
  reserved0 : UInt8
  digestByteLength : UInt32
  rollingHash : UInt64
  valueSha256 : List UInt8
  documentId : UInt64
  reserved : List UInt8
  deriving DecidableEq, Repr

def decodeJsInvocationSettlePayload (bytes : List UInt8) : Option JsInvocationSettlePayload :=
  if bytes.length ≠ 128 then none
  else some
    { protocolVersion := getU16 bytes 0
      payloadSize := getU16 bytes 2
      siteSlot := getU8 bytes 4
      outcome := getU8 bytes 5
      via := getU8 bytes 6
      valueKind := getU8 bytes 7
      invocationId := getU32 bytes 8
      valueLength := getU32 bytes 12
      digestState := getU8 bytes 16
      digestEncoding := getU8 bytes 17
      flags := getU8 bytes 18
      reserved0 := getU8 bytes 19
      digestByteLength := getU32 bytes 20
      rollingHash := getU64 bytes 24
      valueSha256 := slice bytes 32 32
      documentId := getU64 bytes 64
      reserved := slice bytes 72 56 }

/-- The `via` check: a synchronous return fulfils, a synchronous throw rejects,
and only a promise may do either. -/
def validSettleVia (via : UInt8) (fulfilled rejected : Bool) : Bool :=
  if via == 1 then fulfilled else if via == 2 then rejected else via == 3

def isValidJsInvocationSettlePayload (value : JsInvocationSettlePayload) : Bool :=
  let fulfilled := value.outcome == 1
  let rejected := value.outcome == 2
  let string := value.valueKind == JsInvocationValueKind.string
  let bytes := value.valueKind == JsInvocationValueKind.arrayBuffer ||
    value.valueKind == JsInvocationValueKind.arrayBufferView
  if value.protocolVersion != 1 || value.payloadSize != 128 ||
      kJsInvocationSiteLimit ≤ value.siteSlot || (!fulfilled && !rejected) ||
      !JsInvocation.validKind value.valueKind || value.invocationId == 0 ||
      value.documentId == 0 || value.reserved0 != 0 ||
      (value.flags &&& ~~~kJsInvocationLossyUtf8) != 0 then false
  else if !validSettleVia value.via fulfilled rejected then false
  else if value.valueLength != 0 && !string && !bytes &&
      value.valueKind != JsInvocationValueKind.array then false
  else if value.digestState == 1 then
    -- kPresent
    if !fulfilled || kJsInvocationDigestByteLimit < value.digestByteLength ||
        !(if string then value.digestEncoding == 1 else bytes && value.digestEncoding == 2) ||
        (!string && (value.flags &&& kJsInvocationLossyUtf8) != 0) ||
        (string && value.digestByteLength < value.valueLength) ||
        (bytes && value.digestByteLength != value.valueLength) ||
        (value.digestByteLength == 0 && value.rollingHash != 0) then false
    else allZero value.reserved
  else if value.digestEncoding != 0 || value.digestByteLength != 0 || value.rollingHash != 0 ||
      value.flags != 0 || !allZero value.valueSha256 then false
  else
    (if value.digestState == 0 then true                                    -- kNotRequested
     else if value.digestState == 2 then !(fulfilled && (string || bytes))  -- kNotDigestible
     else if value.digestState == 3 then fulfilled && (string || bytes)     -- kTooLarge
     else if value.digestState == 4 then fulfilled && bytes                 -- kUnavailable
     else false) && allZero value.reserved

def isValidJsInvocationSettle (event : EventRecord) : Bool :=
  JsInvocation.envelope event .jsInvocationSettle && event.header.frameId != 0 &&
    event.header.requestId == 0 &&
    match decodeJsInvocationSettlePayload event.inlinePayload.toList with
    | some value => isValidJsInvocationSettlePayload value
    | none => false

/-! ## Request -/

structure JsInvocationRequestPayload where
  protocolVersion : UInt16
  payloadSize : UInt16
  state : UInt8
  reserved0 : List UInt8
  invocationId : UInt32
  sampleIndex : UInt16
  reserved1 : UInt16
  reserved : List UInt8
  deriving DecidableEq, Repr

def decodeJsInvocationRequestPayload (bytes : List UInt8) : Option JsInvocationRequestPayload :=
  if bytes.length ≠ 128 then none
  else some
    { protocolVersion := getU16 bytes 0
      payloadSize := getU16 bytes 2
      state := getU8 bytes 4
      reserved0 := slice bytes 5 3
      invocationId := getU32 bytes 8
      sampleIndex := getU16 bytes 12
      reserved1 := getU16 bytes 14
      reserved := slice bytes 16 112 }

/-- Only an attributed request (inside) or an unattributable one while an
invocation was open (unknown) is ever recorded. -/
def isValidJsInvocationRequestPayload (value : JsInvocationRequestPayload) : Bool :=
  value.protocolVersion == 1 && value.payloadSize == 128 &&
    (value.state == JsInvocationContextState.inside ||
      value.state == JsInvocationContextState.unknown) &&
    isValidJsInvocationContext value.state value.invocationId &&
    value.sampleIndex < kJsInvocationRequestBudget && value.reserved1 == 0 &&
    allZero value.reserved0 && allZero value.reserved

def isValidJsInvocationRequest (event : EventRecord) : Bool :=
  JsInvocation.envelope event .jsInvocationRequest && event.header.requestId != 0 &&
    event.header.requestId ≤ 0xffffffff &&
    match decodeJsInvocationRequestPayload event.inlinePayload.toList with
    | some value => isValidJsInvocationRequestPayload value
    | none => false

end Reb.Capture
