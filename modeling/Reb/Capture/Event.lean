/-
# Capture.Event -- the event record every evidence component reads

`EventRecord` is the fixed 320-byte record of `include/reb/event.hpp`: a header
of integers, 128 payload bytes and 48 reserved bytes.  Category and type are C++
enumerations with a fixed underlying type, so a record read off a socket may
carry a number no enumerator has; that number is kept (`other`).
-/
import Mathlib.Data.Nat.Basic

namespace Reb.Capture

set_option autoImplicit false

/-! ## Categories and types -/

inductive EventCategory where
  | unknown | canvas | webGl | webAudio | navigator | permissions | storage | webRtc
  | wasm | network | vm | artifact | runtime
  | other (value : UInt16)
  deriving DecidableEq, Repr

namespace EventCategory

/-- `static_cast<std::uint16_t>(category)`. -/
def toUInt16 : EventCategory → UInt16
  | .unknown => 0
  | .canvas => 1
  | .webGl => 2
  | .webAudio => 3
  | .navigator => 4
  | .permissions => 5
  | .storage => 6
  | .webRtc => 7
  | .wasm => 8
  | .network => 9
  | .vm => 10
  | .artifact => 11
  | .runtime => 12
  | .other value => value

end EventCategory

inductive EventType where
  | unknown | apiCall | propertyRead | moduleCompiled | moduleInstantiated
  | requestStarted | responseCompleted | gap | requestInitiated | requestRedirected
  | responseStarted | requestCompleted | requestFailed | vmFinding | artifactCaptured
  | artifactCaptureFailed | vmDispatchSample | wasmDispatchObservation
  | wasmGuestDispatch | wasmGuestInvocation | wasmIndirectObservation
  | jsDispatchObservation | requestBody | requestTarget | jsInvocationStart
  | jsInvocationSettle | jsInvocationRequest | wasmExecutionOutcome
  | wasmDispatchOverflow | wasmIndirectOverflow
  | other (value : UInt16)
  deriving DecidableEq, Repr

def isKnownCategory : EventCategory → Bool
  | .unknown | .other _ => false
  | _ => true

def isKnownType : EventType → Bool
  | .unknown | .other _ => false
  | _ => true

/-! ## The record -/

def kEventProtocolVersion : UInt16 := 3
def kInlinePayloadSize : Nat := 128
def kEventRecordReservedSize : Nat := 48
/-- `sizeof(EventHeader)`, asserted in the source. -/
def kEventHeaderSize : UInt16 := 144

def kPayloadTruncated : UInt16 := 1
def kFromCache : UInt16 := 2
def kFromServiceWorker : UInt16 := 4

def kKnownEventFlags : UInt16 := kPayloadTruncated ||| kFromCache ||| kFromServiceWorker

structure EventHeader where
  protocolVersion : UInt16 := kEventProtocolVersion
  headerSize : UInt16 := kEventHeaderSize
  category : EventCategory := .unknown
  type : EventType := .unknown
  payloadSize : UInt32 := 0
  tabId : UInt32 := 0
  sequenceNumber : UInt64 := 0
  monotonicTimeNs : UInt64 := 0
  sessionId : UInt64 := 0
  processId : UInt32 := 0
  threadId : UInt32 := 0
  navigationId : UInt64 := 0
  frameId : UInt64 := 0
  artifactId : UInt64 := 0
  parentEventId : UInt64 := 0
  requestId : UInt64 := 0
  browserContextIdHigh : UInt64 := 0
  browserContextIdLow : UInt64 := 0
  encodedDataLength : Int64 := 0
  decodedBodyLength : Int64 := 0
  statusCode : Int32 := 0
  errorCode : Int32 := 0
  resourceType : UInt16 := 0
  flags : UInt16 := 0
  initiatorRequestId : UInt32 := 0
  initiatorProcessId : UInt32 := 0
  reserved1 : UInt32 := 0
  deriving DecidableEq, Repr

structure EventRecord where
  header : EventHeader := {}
  inlinePayload : Vector UInt8 kInlinePayloadSize := Vector.replicate kInlinePayloadSize 0
  reserved : Vector UInt8 kEventRecordReservedSize := Vector.replicate kEventRecordReservedSize 0
  deriving DecidableEq, Repr

/-- `InlinePayload`: the advertised payload, cut at the inline capacity. -/
def inlinePayload (event : EventRecord) : List UInt8 :=
  event.inlinePayload.toList.take (min event.header.payloadSize.toNat kInlinePayloadSize)

/-! ## Reading a payload

The source has one little-endian reader per payload header (`Get`, and a `get`
lambda in each Wasm decoder); they compute the same number. -/

/-- `width` bytes at `offset`, least significant first. -/
def get (bytes : List UInt8) (offset width : Nat) : UInt64 :=
  (List.range width).foldl
    (fun value i => value ||| (bytes.getD (offset + i) 0).toUInt64 <<< (8 * i).toUInt64) 0

def getU8 (bytes : List UInt8) (offset : Nat) : UInt8 := (get bytes offset 1).toUInt8
def getU16 (bytes : List UInt8) (offset : Nat) : UInt16 := (get bytes offset 2).toUInt16
def getU32 (bytes : List UInt8) (offset : Nat) : UInt32 := (get bytes offset 4).toUInt32
def getU64 (bytes : List UInt8) (offset : Nat) : UInt64 := get bytes offset 8

/-- The bytes at `[offset, offset + width)`. -/
def slice (bytes : List UInt8) (offset width : Nat) : List UInt8 := (bytes.drop offset).take width

def allZero (bytes : List UInt8) : Bool := bytes.all (· == 0)

end Reb.Capture
