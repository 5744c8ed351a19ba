/-
# Capture.JsReaders -- the backend's readers of the JavaScript records

`apps/origin-trace-backend/src/js_invocation.rs` reads the three invocation
records and `vm_opcode_native_js.rs` the dispatch record, each from a stored
event: the envelope first, then the payload bytes by offset.  `le16`, `le32` and
`le64` compute the numbers `get` does.
-/
import Reb.Capture.JsDispatch
import Reb.Capture.JsInvocation
import Reb.Capture.StoredEvent

namespace Reb.Capture

set_option autoImplicit false

/-- `u64::from(u32::MAX)` as a bound on a JSON number that must not be zero. -/
def nonzeroU32 (value : Nat) : Bool := value != 0 && value ≤ 0xffffffff

/-! ## Invocation records -/

namespace JsInvocationReader

/-- `DIGEST_BYTE_LIMIT`. -/
def digestByteLimit : UInt32 := 1048576

def contextValid (state : UInt8) (id : UInt32) : Bool :=
  state ≤ 3 && (state == 2) == (id != 0)

/-- The 128-byte payload of an invocation record whose envelope is valid. -/
def payload (event : StoredEvent) (kind : String) : Option (List UInt8) :=
  let isCanonical (text : List UInt8) (nonzero : Bool) : Bool := (canonical text 64 nonzero).isSome
  if event.type != kind || event.category != "vm" || event.protocolVersion != 3 ||
      event.flags != 0 || event.payloadTruncated || event.payloadSize != 128 ||
      event.payloadEncoding != "hex" ||
      !([event.sessionId, event.sequenceNumber, event.monotonicTimeNs].all (isCanonical · true)) ||
      !([event.artifactId, event.parentEventId, event.navigationId].all (· == [48])) ||
      !isCanonical event.frameId false || !isCanonical event.requestId false ||
      [event.processId, event.threadId].any (!nonzeroU32 ·) then none
  else
    match hexDecode event.payload with
    | none => none
    | some bytes =>
        if bytes.length == 128 && getU16 bytes 0 == 1 && getU16 bytes 2 == 128 then some bytes
        else none

def kindValid (kind : UInt8) (low32 : UInt32) : Bool :=
  (1 ≤ kind && kind ≤ 14) &&
    (if kind == 1 then true else if kind == 7 then low32 ≤ 1 else low32 == 0)

structure Start where
  siteSlot : UInt8
  invocationId : UInt32
  parentInvocationId : UInt32
  parentUnknown : Bool
  argumentCount : UInt16
  documentId : UInt64
  deriving DecidableEq, Repr

/-- `start` once the envelope holds, on the payload bytes. -/
def startPayload (p : List UInt8) : Option Start :=
  let slot := getU8 p 4
  let flags := getU8 p 5
  let argc := getU16 p 6
  let id := getU32 p 20
  let parent := getU32 p 24
  if 8 ≤ slot || (flags &&& ~~~0x03) != 0 || getU32 p 8 == 0 || getU32 p 16 == 0 ||
      getU32 p 16 ≤ getU32 p 12 || id == 0 || 64 ≤ getU16 p 28 || 256 ≤ getU16 p 30 ||
      getU64 p 104 == 0 || (p.drop 112).any (· != 0) ||
      (parent != 0 && (id ≤ parent || (flags &&& 0x01) != 0)) ||
      ((flags &&& 0x02) != 0) != (8 < argc) then none
  else if (List.range 8).all fun index =>
      let kind := getU8 p (32 + index)
      let low32 := getU32 p (40 + 4 * index)
      if index < argc.toNat then kindValid kind low32 else kind == 0 && low32 == 0 then
    some
      { siteSlot := slot
        invocationId := id
        parentInvocationId := parent
        parentUnknown := (flags &&& 0x01) != 0
        argumentCount := argc
        documentId := getU64 p 104 }
  else none

def start (event : StoredEvent) : Option Start := do
  let p ← payload event "js_invocation_start"
  if event.frameId == [48] || event.requestId != [48] then none else startPayload p

structure Digest32 where
  sha256 : List UInt8
  rolling : UInt64
  byteLength : UInt32
  deriving DecidableEq, Repr

structure Settle where
  siteSlot : UInt8
  invocationId : UInt32
  fulfilled : Bool
  valueKind : UInt8
  valueLength : UInt32
  digestState : UInt8
  digest : Option Digest32
  documentId : UInt64
  deriving DecidableEq, Repr

/-- The digest member, or `none` for a record the reader refuses. -/
def settleDigest (p : List UInt8) (fulfilled string bytes : Bool) : Option (Option Digest32) :=
  let length := getU32 p 12
  let state := getU8 p 16
  let encoding := getU8 p 17
  let flags := getU8 p 18
  let byteLength := getU32 p 20
  let rolling := getU64 p 24
  if state == 1 then
    let valid := fulfilled && byteLength ≤ digestByteLimit &&
      ((string && encoding == 1) || (bytes && encoding == 2)) &&
      (string || (flags &&& 0x01) == 0) && (!string || length ≤ byteLength) &&
      (!bytes || byteLength == length) && (byteLength != 0 || rolling == 0)
    if !valid then none else some (some { sha256 := slice p 32 32, rolling, byteLength })
  else
    let clean := encoding == 0 && byteLength == 0 && rolling == 0 && flags == 0 &&
      (slice p 32 32).all (· == 0)
    let consistent :=
      if state == 0 then true
      else if state == 2 then !(fulfilled && (string || bytes))
      else if state == 3 then fulfilled && (string || bytes)
      else if state == 4 then fulfilled && bytes
      else false
    if !clean || !consistent then none else some none

def settlePayload (p : List UInt8) : Option Settle :=
  let slot := getU8 p 4
  let outcome := getU8 p 5
  let via := getU8 p 6
  let kind := getU8 p 7
  let length := getU32 p 12
  let fulfilled := outcome == 1
  let rejected := outcome == 2
  let string := kind == 3
  let bytes := kind == 12 || kind == 13
  if 8 ≤ slot || !(fulfilled || rejected) || !(1 ≤ kind && kind ≤ 14) || getU32 p 8 == 0 ||
      getU64 p 64 == 0 || getU8 p 19 != 0 || (getU8 p 18 &&& ~~~0x01) != 0 ||
      (p.drop 72).any (· != 0) ||
      !((via == 1 && fulfilled) || (via == 2 && rejected) || via == 3) ||
      (length != 0 && !(string || bytes || kind == 11)) then none
  else
    (settleDigest p fulfilled string bytes).map fun digest =>
      { siteSlot := slot
        invocationId := getU32 p 8
        fulfilled
        valueKind := kind
        valueLength := length
        digestState := getU8 p 16
        digest
        documentId := getU64 p 64 }

def settle (event : StoredEvent) : Option Settle := do
  let p ← payload event "js_invocation_settle"
  if event.frameId == [48] || event.requestId != [48] then none else settlePayload p

structure Request where
  inside : Bool
  invocationId : UInt32
  deriving DecidableEq, Repr

def requestPayload (p : List UInt8) (requestId : Nat) : Option Request :=
  let state := getU8 p 4
  let id := getU32 p 8
  if (state == 2 || state == 3) && requestId ≤ 0xffffffff && contextValid state id &&
      getU16 p 12 < 256 && (slice p 5 3).all (· == 0) && getU16 p 14 == 0 &&
      (p.drop 16).all (· == 0) then
    some { inside := state == 2, invocationId := id }
  else none

def request (event : StoredEvent) : Option Request := do
  let p ← payload event "js_invocation_request"
  let requestId ← canonical event.requestId 64 true
  requestPayload p requestId

end JsInvocationReader

/-! ## The dispatch record -/

namespace JsDispatchReader

def selectorKinds : List String :=
  ["integer", "number", "string", "symbol", "undefined", "null", "boolean", "bigint", "object"]

/-- `SITE_LIMIT`. -/
def siteLimit : UInt8 := 8
def parentUnknown : UInt8 := 2
def parentTruncated : UInt8 := 4
def handlerSpan : UInt8 := 8

structure Payload where
  shape : String
  kind : String
  slot : UInt8
  flags : UInt8
  script : UInt32
  anchor : UInt32
  length : UInt32
  selector : UInt32
  handler : Option (UInt32 × UInt32 × UInt32)
  activation : UInt32
  parent : UInt32
  siteSample : UInt16
  sample : UInt16
  sha256 : List UInt8
  deriving DecidableEq, Repr

/-- `bytes[4]` as a shape. -/
def shapeName (shape : UInt8) : Option String :=
  if shape == 1 then some "switch" else if shape == 2 then some "indexed-call" else none

/-- `SELECTOR_KINDS.get(usize::from(kind).checked_sub(1)?)`. -/
def kindName (kind : UInt8) : Option String :=
  if kind == 0 then none else selectorKinds[kind.toNat - 1]?

/-- The handler span, or `none` for a record the reader refuses. -/
def handlerOf (flags : UInt8) (shape : String) (script start stop : UInt32) :
    Option (Option (UInt32 × UInt32 × UInt32)) :=
  if (flags &&& handlerSpan) != 0 then
    if shape != "indexed-call" || script == 0 || stop ≤ start then none
    else some (some (script, start, stop))
  else if script != 0 || start != 0 || stop != 0 then none
  else some none

def payload (bytes : List UInt8) : Option Payload := do
  if bytes.length != 128 || getU16 bytes 0 != 1 || getU16 bytes 2 != 128 ||
      (bytes.drop 80).any (· != 0) then none
  else
    let shape ← shapeName (getU8 bytes 4)
    let kind ← kindName (getU8 bytes 5)
    let slot := getU8 bytes 6
    let flags := getU8 bytes 7
    let script := getU32 bytes 8
    let anchor := getU32 bytes 12
    let length := getU32 bytes 16
    let selector := getU32 bytes 20
    let activation := getU32 bytes 36
    let parent := getU32 bytes 40
    let siteSample := getU16 bytes 44
    let sample := getU16 bytes 46
    let handler ← handlerOf flags shape (getU32 bytes 24) (getU32 bytes 28) (getU32 bytes 32)
    if siteLimit ≤ slot || (flags &&& ~~~0x0f) != 0 || script == 0 || length == 0 ||
        length ≤ anchor || activation == 0 || 64 ≤ siteSample || 256 ≤ sample ||
        (kind == "boolean" && 1 < selector) ||
        (!(kind == "integer" || kind == "boolean") && selector != 0) ||
        (parent != 0 &&
          (activation ≤ parent || (flags &&& (parentUnknown ||| parentTruncated)) != 0)) then none
    else
      some { shape, kind, slot, flags, script, anchor, length, selector, handler, activation, parent,
             siteSample, sample, sha256 := slice bytes 48 32 }

def envelope (event : StoredEvent) : Bool :=
  event.category == "vm" && event.type == "js_dispatch_observation" &&
    event.protocolVersion == 3 && event.payloadSize == 128 && event.payloadEncoding == "hex" &&
    !event.payloadTruncated && event.flags == 0 &&
    [event.sessionId, event.sequenceNumber, event.monotonicTimeNs, event.frameId].all
      (fun text => (canonical text 64 true).isSome) &&
    [event.processId, event.threadId].all nonzeroU32 &&
    [event.artifactId, event.navigationId, event.parentEventId, event.requestId].all (· == [48])

def decode (event : StoredEvent) : Option Payload :=
  if !envelope event then none
  else if event.payload.length != 256 then none
  else (hexDecode event.payload).bind payload

end JsDispatchReader

end Reb.Capture
