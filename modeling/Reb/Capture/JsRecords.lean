/-
# Capture.JsRecords -- the four JavaScript records from the renderer to the store

One record crosses three checks: the overlay's before it is emitted, the core's
when the broker takes the event, and the backend's on the stored line.
`native_js_record_agreement` compares the three for every payload value under a
header the overlay accepts.
-/
import Reb.Capture.JsAgreement

namespace Reb.Capture

set_option autoImplicit false

open Reb.Theory.LittleEndian

/-! ## What the backend's readers return -/

def JsDispatchObservationPayload.read (value : JsDispatchObservationPayload) :
    JsDispatchReader.Payload :=
  { shape := if value.shape = 1 then "switch" else "indexed-call"
    kind := JsDispatchReader.selectorKinds.getD (value.selectorKind.toNat - 1) ""
    slot := value.siteSlot
    flags := value.flags
    script := value.scriptId
    anchor := value.anchorOffset
    length := value.sourceLength
    selector := value.selectorLow32
    handler :=
      if value.flags &&& 8 = 0 then none
      else some (value.handlerScriptId, value.handlerStart, value.handlerEnd)
    activation := value.activationId
    parent := value.parentActivationId
    siteSample := value.siteSampleIndex
    sample := value.sampleIndex
    sha256 := value.sourceSha256 }

def JsInvocationStartPayload.read (value : JsInvocationStartPayload) : JsInvocationReader.Start :=
  { siteSlot := value.siteSlot
    invocationId := value.invocationId
    parentInvocationId := value.parentInvocationId
    parentUnknown := value.flags &&& 1 != 0
    argumentCount := value.argumentCount
    documentId := value.documentId }

def JsInvocationSettlePayload.read (value : JsInvocationSettlePayload) : JsInvocationReader.Settle :=
  { siteSlot := value.siteSlot
    invocationId := value.invocationId
    fulfilled := value.outcome == 1
    valueKind := value.valueKind
    valueLength := value.valueLength
    digestState := value.digestState
    digest :=
      if value.digestState = 1 then
        some { sha256 := value.valueSha256, rolling := value.rollingHash
               byteLength := value.digestByteLength }
      else none
    documentId := value.documentId }

def JsInvocationRequestPayload.read (value : JsInvocationRequestPayload) :
    JsInvocationReader.Request :=
  { inside := value.state == 2, invocationId := value.invocationId }

inductive JsRecordKind
  | dispatch
  | start
  | settle
  | request
  deriving DecidableEq, Repr

namespace JsRecordKind

/-- The overlay's payload structure. -/
abbrev Native : JsRecordKind → Type
  | dispatch => NativeJsDispatchObservationPayload
  | start => NativeJsInvocationStartPayload
  | settle => NativeJsInvocationSettlePayload
  | request => NativeJsInvocationRequestPayload

/-- The core's. -/
abbrev Core : JsRecordKind → Type
  | dispatch => JsDispatchObservationPayload
  | start => JsInvocationStartPayload
  | settle => JsInvocationSettlePayload
  | request => JsInvocationRequestPayload

/-- What the backend's reader returns. -/
abbrev Read : JsRecordKind → Type
  | dispatch => JsDispatchReader.Payload
  | start => JsInvocationReader.Start
  | settle => JsInvocationReader.Settle
  | request => JsInvocationReader.Request

/-- The same members as a payload of the core. -/
def toCore : (kind : JsRecordKind) → kind.Native → kind.Core
  | dispatch => NativeJsDispatchObservationPayload.toCore
  | start => NativeJsInvocationStartPayload.toCore
  | settle => NativeJsInvocationSettlePayload.toCore
  | request => NativeJsInvocationRequestPayload.toCore

/-- The arrays of the core's structure have their declared lengths. -/
def Sized : (kind : JsRecordKind) → kind.Core → Prop
  | dispatch => JsDispatchObservationPayload.Sized
  | start => JsInvocationStartPayload.Sized
  | settle => JsInvocationSettlePayload.Sized
  | request => JsInvocationRequestPayload.Sized

def reader : (kind : JsRecordKind) → StoredEvent → Option kind.Read
  | dispatch => JsDispatchReader.decode
  | start => JsInvocationReader.start
  | settle => JsInvocationReader.settle
  | request => JsInvocationReader.request

def read : (kind : JsRecordKind) → kind.Core → kind.Read
  | dispatch => JsDispatchObservationPayload.read
  | start => JsInvocationStartPayload.read
  | settle => JsInvocationSettlePayload.read
  | request => JsInvocationRequestPayload.read

end JsRecordKind

end Reb.Capture
