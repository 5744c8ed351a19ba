/-
# Capture.JsDispatch -- live JavaScript dispatch observations

`include/reb/js_dispatch.hpp`: one dispatch at an armed static site.
-/
import Reb.Capture.Event

namespace Reb.Capture

set_option autoImplicit false

def kJsDispatchSiteLimit : UInt8 := 8
def kJsDispatchSampleBudget : UInt16 := 256
def kJsDispatchSiteSampleBudget : UInt16 := 64

def kJsDispatchNewActivation : UInt8 := 1
def kJsDispatchParentUnknown : UInt8 := 2
def kJsDispatchParentSearchTruncated : UInt8 := 4
def kJsDispatchHandlerSpan : UInt8 := 8
def kJsDispatchKnownFlags : UInt8 :=
  kJsDispatchNewActivation ||| kJsDispatchParentUnknown ||| kJsDispatchParentSearchTruncated |||
    kJsDispatchHandlerSpan

structure JsDispatchObservationPayload where
  protocolVersion : UInt16
  payloadSize : UInt16
  shape : UInt8
  selectorKind : UInt8
  siteSlot : UInt8
  flags : UInt8
  scriptId : UInt32
  anchorOffset : UInt32
  sourceLength : UInt32
  selectorLow32 : UInt32
  handlerScriptId : UInt32
  handlerStart : UInt32
  handlerEnd : UInt32
  activationId : UInt32
  parentActivationId : UInt32
  siteSampleIndex : UInt16
  sampleIndex : UInt16
  sourceSha256 : List UInt8
  reserved : List UInt8
  deriving DecidableEq, Repr

def decodeJsDispatchObservationPayload (bytes : List UInt8) :
    Option JsDispatchObservationPayload :=
  if bytes.length ≠ 128 then none
  else some
    { protocolVersion := getU16 bytes 0
      payloadSize := getU16 bytes 2
      shape := getU8 bytes 4
      selectorKind := getU8 bytes 5
      siteSlot := getU8 bytes 6
      flags := getU8 bytes 7
      scriptId := getU32 bytes 8
      anchorOffset := getU32 bytes 12
      sourceLength := getU32 bytes 16
      selectorLow32 := getU32 bytes 20
      handlerScriptId := getU32 bytes 24
      handlerStart := getU32 bytes 28
      handlerEnd := getU32 bytes 32
      activationId := getU32 bytes 36
      parentActivationId := getU32 bytes 40
      siteSampleIndex := getU16 bytes 44
      sampleIndex := getU16 bytes 46
      sourceSha256 := slice bytes 48 32
      reserved := slice bytes 80 48 }

def isValidJsDispatchObservationPayload (value : JsDispatchObservationPayload) : Bool :=
  let switchShape := value.shape == 1
  let indexedShape := value.shape == 2
  -- Selector kinds 1 and 7 are kInteger and kBoolean.
  let integer := value.selectorKind == 1
  let boolean := value.selectorKind == 7
  if value.protocolVersion != 1 || value.payloadSize != 128 || (!switchShape && !indexedShape) ||
      value.selectorKind < 1 || 9 < value.selectorKind || kJsDispatchSiteLimit ≤ value.siteSlot ||
      (value.flags &&& ~~~kJsDispatchKnownFlags) != 0 || value.scriptId == 0 ||
      value.sourceLength == 0 || value.sourceLength ≤ value.anchorOffset ||
      value.activationId == 0 || kJsDispatchSiteSampleBudget ≤ value.siteSampleIndex ||
      kJsDispatchSampleBudget ≤ value.sampleIndex then false
  else if (boolean && 1 < value.selectorLow32) ||
      (!integer && !boolean && value.selectorLow32 != 0) then false
  else if (if (value.flags &&& kJsDispatchHandlerSpan) != 0 then
        !indexedShape || value.handlerScriptId == 0 || value.handlerEnd ≤ value.handlerStart
      else value.handlerScriptId != 0 || value.handlerStart != 0 || value.handlerEnd != 0) then
    false
  else if value.parentActivationId != 0 &&
      (value.activationId ≤ value.parentActivationId ||
        (value.flags &&& (kJsDispatchParentUnknown ||| kJsDispatchParentSearchTruncated)) != 0) then
    false
  else allZero value.reserved

def isValidJsDispatchObservation (event : EventRecord) : Bool :=
  let h := event.header
  h.protocolVersion == kEventProtocolVersion && h.category == .vm &&
    h.type == .jsDispatchObservation && h.payloadSize == 128 && h.flags == 0 &&
    h.sessionId != 0 && h.sequenceNumber != 0 && h.processId != 0 && h.threadId != 0 &&
    h.monotonicTimeNs != 0 && h.frameId != 0 && h.artifactId == 0 && h.parentEventId == 0 &&
    h.navigationId == 0 && h.requestId == 0 &&
    match decodeJsDispatchObservationPayload event.inlinePayload.toList with
    | some value => isValidJsDispatchObservationPayload value
    | none => false

end Reb.Capture
