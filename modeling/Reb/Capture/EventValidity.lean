/-
# Capture.EventValidity -- request payloads and `IsValidEvent`

`include/reb/network_request.hpp`: the two child records of a browser lifecycle
record.  `isValidRequestBodyPayload` keeps the source's three groups of checks:
layout and content type, digest against body kind, and the state's own rule.

Thirteen record types carry a payload with rules of its own; every other valid
record only has to satisfy the envelope.
-/
import Reb.Capture.Event
import Reb.Capture.JsDispatch
import Reb.Capture.WasmDispatch

namespace Reb.Capture

set_option autoImplicit false

def kRequestPayloadVersion : UInt16 := 1
def kRequestTargetPrefixBytes : Nat := 116
def kRequestContentTypeBytes : Nat := 64
def kRequestBodyDigestBytes : UInt64 := 4194304

inductive RequestBodyKind where
  | none | bytes | file | dataPipe | chunkedDataPipe | mixed | unknown
  | other (value : UInt8)
  deriving DecidableEq, Repr

def RequestBodyKind.ofUInt8 : UInt8 → RequestBodyKind
  | 0 => .none
  | 1 => .bytes
  | 2 => .file
  | 3 => .dataPipe
  | 4 => .chunkedDataPipe
  | 5 => .mixed
  | 6 => .unknown
  | value => .other value

inductive RequestBodyState where
  | noBody | empty | metadataOnly | captured | capturedTruncated | notCapturedBodyKind
  | notCapturedArtifactUnavailable | notCapturedTransferRefused | notCapturedUrl
  | notCapturedSessionBudget | notCapturedCredentialForm
  | other (value : UInt8)
  deriving DecidableEq, Repr

def RequestBodyState.ofUInt8 : UInt8 → RequestBodyState
  | 1 => .noBody
  | 2 => .empty
  | 3 => .metadataOnly
  | 4 => .captured
  | 5 => .capturedTruncated
  | 6 => .notCapturedBodyKind
  | 7 => .notCapturedArtifactUnavailable
  | 8 => .notCapturedTransferRefused
  | 9 => .notCapturedUrl
  | 10 => .notCapturedSessionBudget
  | 11 => .notCapturedCredentialForm
  | value => .other value

def kRequestBodyContentCapture : UInt8 := 1
def kRequestBodyDigestPresent : UInt8 := 2
def kRequestBodyDigestSizeLimit : UInt8 := 4
def kRequestBodyLengthPartial : UInt8 := 8
def kRequestBodyContentTypePresent : UInt8 := 16
def kRequestBodyContentTypeOmitted : UInt8 := 32
def kRequestBodyKnownFlags : UInt8 := 0x3f

structure RequestBodyPayload where
  protocolVersion : UInt16
  payloadSize : UInt16
  kind : UInt8
  state : UInt8
  flags : UInt8
  contentTypeLength : UInt8
  bodyLength : UInt64
  capturedLength : UInt64
  elementCount : UInt32
  reserved0 : UInt32
  sha256 : List UInt8
  contentType : List UInt8
  deriving DecidableEq, Repr

structure RequestTargetPayload where
  protocolVersion : UInt16
  payloadSize : UInt16
  targetLength : UInt32
  scheme : UInt8
  reserved0 : UInt8
  port : UInt16
  targetPrefix : List UInt8
  deriving DecidableEq, Repr

/-- `a`..`z`, `0`..`9` or one of ``!#$%&'*+-.^_`|~``. -/
def isTokenCharacter (c : UInt8) : Bool :=
  (97 ≤ c && c ≤ 122) || (48 ≤ c && c ≤ 57) ||
    [33, 35, 36, 37, 38, 39, 42, 43, 45, 46, 94, 95, 96, 124, 126].contains c

/-- A normalized media type: lower-case token, one slash, lower-case token. -/
def isNormalizedContentType (value : List UInt8) : Bool :=
  let slash := value.idxOf 47
  if value.isEmpty || kRequestContentTypeBytes < value.length || slash == 0 ||
      slash == value.length || slash + 1 == value.length ||
      (value.drop (slash + 1)).contains 47 then false
  else value.all fun c => c == 47 || isTokenCharacter c

def decodeRequestBodyPayload (bytes : List UInt8) : Option RequestBodyPayload :=
  if bytes.length ≠ 128 then none
  else some
    { protocolVersion := getU16 bytes 0
      payloadSize := getU16 bytes 2
      kind := getU8 bytes 4
      state := getU8 bytes 5
      flags := getU8 bytes 6
      contentTypeLength := getU8 bytes 7
      bodyLength := getU64 bytes 8
      capturedLength := getU64 bytes 16
      elementCount := getU32 bytes 24
      reserved0 := getU32 bytes 28
      sha256 := slice bytes 32 32
      contentType := slice bytes 64 64 }

def decodeRequestTargetPayload (bytes : List UInt8) : Option RequestTargetPayload :=
  if bytes.length ≠ 128 then none
  else some
    { protocolVersion := getU16 bytes 0
      payloadSize := getU16 bytes 2
      targetLength := getU32 bytes 4
      scheme := getU8 bytes 8
      reserved0 := getU8 bytes 9
      port := getU16 bytes 10
      targetPrefix := slice bytes 12 116 }

/-- The last `switch` of `IsValidRequestBodyPayload`. -/
def validRequestBodyState (value : RequestBodyPayload) (content none bytes : Bool) : Bool :=
  match RequestBodyState.ofUInt8 value.state with
  | .noBody | .notCapturedCredentialForm => true
  | .empty => bytes && value.bodyLength == 0
  | .metadataOnly => !content && (!bytes || value.bodyLength != 0)
  | .captured =>
      content && bytes && value.bodyLength != 0 && value.capturedLength == value.bodyLength
  | .capturedTruncated =>
      content && bytes && value.capturedLength != 0 && value.capturedLength < value.bodyLength
  | .notCapturedBodyKind => content && !none && !bytes
  | .notCapturedArtifactUnavailable | .notCapturedTransferRefused | .notCapturedUrl
  | .notCapturedSessionBudget => content && bytes && value.bodyLength != 0
  | .other _ => false

/-- `hasArtifact` is whether the envelope names a request-body artifact. -/
def isValidRequestBodyPayload (value : RequestBodyPayload) (hasArtifact : Bool) : Bool :=
  let kind := RequestBodyKind.ofUInt8 value.kind
  let state := RequestBodyState.ofUInt8 value.state
  let content := (value.flags &&& kRequestBodyContentCapture) != 0
  let digest := (value.flags &&& kRequestBodyDigestPresent) != 0
  let sizeLimit := (value.flags &&& kRequestBodyDigestSizeLimit) != 0
  let partialLength := (value.flags &&& kRequestBodyLengthPartial) != 0
  let typePresent := (value.flags &&& kRequestBodyContentTypePresent) != 0
  let typeOmitted := (value.flags &&& kRequestBodyContentTypeOmitted) != 0
  let typeLength := value.contentTypeLength.toNat
  let bytes := kind == .bytes
  let none := kind == .none
  let credential := state == .notCapturedCredentialForm
  let retained := state == .captured || state == .capturedTruncated
  if value.protocolVersion != kRequestPayloadVersion || value.payloadSize != 128 ||
      value.reserved0 != 0 || 6 < value.kind || value.state < 1 || 11 < value.state ||
      (value.flags &&& ~~~kRequestBodyKnownFlags) != 0 ||
      kRequestContentTypeBytes < typeLength || (typePresent && typeOmitted) ||
      typePresent != (value.contentTypeLength != 0) ||
      !allZero (value.contentType.drop typeLength) ||
      (typePresent && !isNormalizedContentType (value.contentType.take typeLength)) ||
      value.bodyLength < value.capturedLength then false
  else if (digest && (!bytes || sizeLimit || kRequestBodyDigestBytes < value.bodyLength)) ||
      (!digest && !allZero value.sha256) ||
      (sizeLimit && (!bytes || value.bodyLength ≤ kRequestBodyDigestBytes)) ||
      (bytes && !credential && digest == sizeLimit) || (credential && (digest || sizeLimit)) ||
      partialLength != (!none && !bytes) || none != (state == .noBody) ||
      (none && (value.elementCount != 0 || value.bodyLength != 0)) ||
      (!none && value.elementCount == 0) || (kind == .mixed && value.elementCount < 2) then false
  else if hasArtifact != retained || (!retained && value.capturedLength != 0) then false
  else validRequestBodyState value content none bytes

def isValidRequestTargetPayload (value : RequestTargetPayload) : Bool :=
  let filled := min value.targetLength.toNat kRequestTargetPrefixBytes
  value.protocolVersion == kRequestPayloadVersion && value.payloadSize == 128 &&
    value.reserved0 == 0 && value.scheme ≤ 4 &&
    (value.targetPrefix.take filled).all (· != 0) && allZero (value.targetPrefix.drop filled)

/-- Both records are children of a browser lifecycle record of the same request. -/
def isRequestChildEnvelope (event : EventRecord) (type : EventType) : Bool :=
  let h := event.header
  h.protocolVersion == kEventProtocolVersion && h.category == .network && h.type == type &&
    h.payloadSize == 128 && h.flags == 0 && h.sessionId != 0 && h.sequenceNumber != 0 &&
    h.processId != 0 && h.parentEventId != 0 && h.parentEventId < h.sequenceNumber &&
    h.navigationId == 0 && h.statusCode == 0 && h.errorCode == 0 && h.encodedDataLength == 0 &&
    h.decodedBodyLength == 0 && h.resourceType == 0

def isValidRequestBodyEvent (event : EventRecord) : Bool :=
  isRequestChildEnvelope event .requestBody &&
    match decodeRequestBodyPayload event.inlinePayload.toList with
    | some value => isValidRequestBodyPayload value (event.header.artifactId != 0)
    | none => false

def isValidRequestTargetEvent (event : EventRecord) : Bool :=
  isRequestChildEnvelope event .requestTarget && event.header.artifactId == 0 &&
    match decodeRequestTargetPayload event.inlinePayload.toList with
    | some value => isValidRequestTargetPayload value
    | none => false

end Reb.Capture

namespace Reb.Capture

/-! # Every record type -/

/-- The leading `if` chain of `IsValidEvent`. -/
def isValidTypedPayload (event : EventRecord) : Bool :=
  match event.header.type with
  | .wasmGuestDispatch => isValidWasmGuestDispatch event
  | .wasmGuestInvocation => isValidWasmGuestInvocation event
  | .wasmDispatchObservation => isValidWasmDispatchObservation event
  | .wasmIndirectObservation => isValidWasmIndirectObservation event
  | .jsDispatchObservation => isValidJsDispatchObservation event
  | .requestBody => isValidRequestBodyEvent event
  | .requestTarget => isValidRequestTargetEvent event
  | .jsInvocationStart => isValidJsInvocationStart event
  | .jsInvocationSettle => isValidJsInvocationSettle event
  | .jsInvocationRequest => isValidJsInvocationRequest event
  | .wasmExecutionOutcome => isValidWasmExecutionOutcome event
  | .wasmDispatchOverflow => isValidWasmDispatchOverflow event
  | .wasmIndirectOverflow => isValidWasmIndirectOverflow event
  | _ => true

def isValidEvent (event : EventRecord) : Bool :=
  let h := event.header
  isValidTypedPayload event && h.protocolVersion == kEventProtocolVersion &&
    h.headerSize == kEventHeaderSize && h.payloadSize.toNat ≤ kInlinePayloadSize &&
    h.reserved1 == 0 && isKnownCategory h.category && isKnownType h.type &&
    (h.flags &&& ~~~kKnownEventFlags) == 0 && allZero event.reserved.toList

end Reb.Capture
