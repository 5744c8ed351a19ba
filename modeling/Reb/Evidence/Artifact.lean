/-
# Evidence.Artifact -- the header of an artifact frame and its manifest record

The 128-byte header that precedes an artifact's URL, MIME type and content, its
little-endian layout, and the rules it is admitted by.  Kind and capture origin
are 16-bit words on the wire, so both carry the words that have no name.

`ReceiveOne` appends one line for each accepted artifact and the constructor
reads the lines of an existing store with its own parser.  The rules on kind,
origin, context and sensitivity stand twice: over the header
(`isValidArtifactHeader`) and over the text of the line (`recordAdmitted`).
A position in a line is kept as the bytes from there on.
-/
import Reb.Theory.Decimal

namespace Reb.Evidence

set_option autoImplicit false

def kArtifactMagic : UInt32 := 0x41424552
def kArtifactProtocolVersion : UInt16 := 1
def kArtifactHeaderSize : Nat := 128
def kMaxArtifactUrlBytes : UInt32 := 8192
def kMaxArtifactMimeTypeBytes : UInt32 := 255
def kArtifactFlagSensitive : UInt16 := 1

inductive ArtifactKind where
  | kUnknown | kJavaScript | kWasm | kSourceMap | kResponseBody | kCanvasDataUrl | kBytecodeBuffer
  | kWasmGuestAdapter | kRequestBody
  | unnamed (value : UInt16)
  deriving DecidableEq, Repr

inductive ArtifactCaptureOrigin where
  | kUnknown | kNetworkResponse | kDynamicJavaScript | kWebAssemblyCompile | kWebAssemblyModule
  | kWebAssemblyInstantiate | kCanvasToDataUrl | kRuntimeTypedArray | kRuntimeAllocatingScript
  | kNativeWasmGuest | kNetworkRequest
  | unnamed (value : UInt16)
  deriving DecidableEq, Repr

structure ArtifactHeader where
  magic : UInt32 := kArtifactMagic
  protocolVersion : UInt16 := kArtifactProtocolVersion
  headerSize : UInt16 := 128
  kind : ArtifactKind := .kUnknown
  flags : UInt16 := 0
  reserved0 : UInt32 := 0
  sessionId : UInt64 := 0
  navigationId : UInt64 := 0
  frameId : UInt64 := 0
  artifactId : UInt64 := 0
  parentArtifactId : UInt64 := 0
  creatorEventId : UInt64 := 0
  contentSize : UInt64 := 0
  urlSize : UInt32 := 0
  mimeTypeSize : UInt32 := 0
  expectedSha256 : List UInt8 := List.replicate 32 0
  executionContextId : UInt64 := 0
  captureOrigin : ArtifactCaptureOrigin := .kUnknown
  reserved1 : UInt16 := 0
  reserved2 : UInt32 := 0
  deriving DecidableEq, Repr

/-! ## Which headers are admitted -/

def ArtifactHeader.sensitive (header : ArtifactHeader) : Bool :=
  (header.flags &&& kArtifactFlagSensitive) != 0

def validKind (kind : ArtifactKind) : Bool :=
  kind == .kJavaScript || kind == .kWasm || kind == .kSourceMap || kind == .kResponseBody ||
    kind == .kCanvasDataUrl || kind == .kBytecodeBuffer || kind == .kWasmGuestAdapter ||
    kind == .kRequestBody

def validOrigin (origin : ArtifactCaptureOrigin) : Bool :=
  origin == .kUnknown || origin == .kNetworkResponse || origin == .kDynamicJavaScript ||
    origin == .kWebAssemblyCompile || origin == .kWebAssemblyModule ||
    origin == .kWebAssemblyInstantiate || origin == .kCanvasToDataUrl ||
    origin == .kRuntimeTypedArray || origin == .kRuntimeAllocatingScript ||
    origin == .kNativeWasmGuest || origin == .kNetworkRequest

def compatibleOrigin (kind : ArtifactKind) (origin : ArtifactCaptureOrigin) : Bool :=
  origin == .kNetworkRequest || origin == .kUnknown || origin == .kNetworkResponse ||
    (kind == .kJavaScript &&
      (origin == .kDynamicJavaScript || origin == .kRuntimeAllocatingScript)) ||
    (kind == .kWasm &&
      (origin == .kWebAssemblyCompile || origin == .kWebAssemblyModule ||
        origin == .kWebAssemblyInstantiate)) ||
    (kind == .kCanvasDataUrl && origin == .kCanvasToDataUrl) ||
    (kind == .kBytecodeBuffer && origin == .kRuntimeTypedArray) ||
    ((kind == .kBytecodeBuffer || kind == .kWasmGuestAdapter) && origin == .kNativeWasmGuest)

def runtimeHasContext (origin : ArtifactCaptureOrigin) (executionContextId : UInt64) : Bool :=
  origin == .kUnknown || origin == .kNetworkResponse || origin == .kCanvasToDataUrl ||
    origin == .kNetworkRequest || executionContextId != 0

def isValidArtifactHeader (header : ArtifactHeader) : Bool :=
  if header.magic != kArtifactMagic || header.protocolVersion != kArtifactProtocolVersion ||
      header.headerSize.toNat != kArtifactHeaderSize || header.sessionId == 0 ||
      header.artifactId == 0 || header.urlSize == 0 || header.urlSize > kMaxArtifactUrlBytes ||
      header.mimeTypeSize == 0 || header.mimeTypeSize > kMaxArtifactMimeTypeBytes ||
      (header.flags &&& ~~~kArtifactFlagSensitive) != 0 || header.reserved0 != 0 ||
      header.reserved1 != 0 || header.reserved2 != 0 then false
  else if (header.kind == .kWasmGuestAdapter && header.captureOrigin != .kNativeWasmGuest) ||
      (header.captureOrigin == .kNativeWasmGuest &&
        (header.frameId == 0 || header.parentArtifactId == 0 || header.creatorEventId == 0)) then
    false
  else if (header.kind == .kResponseBody || header.kind == .kCanvasDataUrl ||
      header.kind == .kRequestBody) != header.sensitive then false
  else if (header.kind == .kRequestBody) != (header.captureOrigin == .kNetworkRequest) ||
      (header.captureOrigin == .kNetworkRequest &&
        (header.executionContextId != 0 || header.creatorEventId == 0)) then false
  else
    validKind header.kind && validOrigin header.captureOrigin &&
      compatibleOrigin header.kind header.captureOrigin &&
      runtimeHasContext header.captureOrigin header.executionContextId

/-! ## Names -/

def artifactKindName : ArtifactKind → String
  | .kJavaScript => "javascript"
  | .kWasm => "wasm"
  | .kSourceMap => "source_map"
  | .kResponseBody => "response_body"
  | .kCanvasDataUrl => "canvas_data_url"
  | .kBytecodeBuffer => "bytecode_buffer"
  | .kWasmGuestAdapter => "wasm_guest_adapter"
  | .kRequestBody => "request_body"
  | .kUnknown => "unknown"
  | .unnamed _ => "unknown"

def artifactCaptureOriginName : ArtifactCaptureOrigin → String
  | .kNetworkResponse => "network_response"
  | .kDynamicJavaScript => "dynamic_javascript"
  | .kWebAssemblyCompile => "webassembly_compile"
  | .kWebAssemblyModule => "webassembly_module"
  | .kWebAssemblyInstantiate => "webassembly_instantiate"
  | .kCanvasToDataUrl => "canvas_to_data_url"
  | .kRuntimeTypedArray => "runtime_typed_array"
  | .kRuntimeAllocatingScript => "runtime_allocating_script"
  | .kNativeWasmGuest => "native_wasm_guest"
  | .kNetworkRequest => "network_request"
  | .kUnknown => "unknown"
  | .unnamed _ => "unknown"

end Reb.Evidence

namespace Reb.Evidence

/-! # The manifest record -/

open Theory.Decimal

/-! ## Writing -/

def hexDigit (value : UInt8) : UInt8 := (ascii "0123456789abcdef").getD value.toNat 0

def digestHex (digest : List UInt8) : List UInt8 :=
  digest.flatMap fun byte : UInt8 => [hexDigit (byte >>> 4), hexDigit (byte &&& 0x0f)]

def jsonEscapeByte (character : UInt8) : List UInt8 :=
  if character = 0x22 then ascii "\\\""
  else if character = 0x5c then ascii "\\\\"
  else if character = 0x08 then ascii "\\b"
  else if character = 0x0c then ascii "\\f"
  else if character = 0x0a then ascii "\\n"
  else if character = 0x0d then ascii "\\r"
  else if character = 0x09 then ascii "\\t"
  else if character < 0x20 then
    ascii "\\u00" ++ [hexDigit (character >>> 4), hexDigit (character &&& 0x0f)]
  else [character]

def jsonEscape (text : List UInt8) : List UInt8 := text.flatMap jsonEscapeByte

/-- `manifest_entry`, without the newline that ends the line. -/
def manifestRecord (header : ArtifactHeader) (url mimeType digest : List UInt8) : List UInt8 :=
  ascii "\x7b\"protocol_version\":1,\"artifact_id\":\"" ++ decimal header.artifactId.toNat ++
    ascii "\",\"session_id\":\"" ++ decimal header.sessionId.toNat ++
    ascii "\",\"navigation_id\":\"" ++ decimal header.navigationId.toNat ++
    ascii "\",\"frame_id\":\"" ++ decimal header.frameId.toNat ++
    ascii "\",\"parent_artifact_id\":\"" ++ decimal header.parentArtifactId.toNat ++
    ascii "\",\"creator_event_id\":\"" ++ decimal header.creatorEventId.toNat ++
    ascii "\",\"execution_context_id\":\"" ++ decimal header.executionContextId.toNat ++
    ascii "\",\"capture_origin\":\"" ++ ascii (artifactCaptureOriginName header.captureOrigin) ++
    ascii "\",\"kind\":\"" ++ ascii (artifactKindName header.kind) ++
    ascii "\",\"url\":\"" ++ jsonEscape url ++
    ascii "\",\"mime_type\":\"" ++ jsonEscape mimeType ++
    ascii "\",\"byte_size\":" ++ decimal header.contentSize.toNat ++
    ascii ",\"sha256\":\"" ++ digestHex digest ++
    ascii "\",\"sensitive\":" ++ ascii (if header.sensitive then "true" else "false") ++
    ascii ",\"content_path\":\"blobs/" ++ digestHex digest ++ ascii ".bin\"\x7d"

/-! ## Reading -/

def consumePrefix (text : String) (line : List UInt8) : Option (List UInt8) :=
  line.dropPrefix? (ascii text)

/-- A field up to `mark`, and the line after the mark. -/
def fieldUpTo (mark : String) (line : List UInt8) : Option (List UInt8 × List UInt8) :=
  line.dropInfix? (ascii mark)

def parseUnsignedField (mark : String) (line : List UInt8) : Option (UInt64 × List UInt8) := do
  let (encoded, rest) ← fieldUpTo mark line
  let value ← fromDecimal encoded
  guard (value < UInt64.size)
  return (.ofNat value, rest)

def isLowercaseHex (byte : UInt8) : Bool :=
  (0x30 ≤ byte && byte ≤ 0x39) || (0x61 ≤ byte && byte ≤ 0x66)

/-- The line after the quote that closes a string. -/
def skipJsonString : List UInt8 → Option (List UInt8)
  | [] => none
  | character :: rest =>
      if character = 0x22 then some rest
      else if character < 0x20 then none
      else if character ≠ 0x5c then skipJsonString rest
      else
        match rest with
        | [] => none
        | escape :: rest =>
            if escape = 0x75 then
              match rest with
              | a :: b :: c :: d :: rest =>
                  if [a, b, c, d].all isLowercaseHex then skipJsonString rest else none
              | _ => none
            else if escape ∈ ascii "\"\\/bfnrt" then skipJsonString rest
            else none

structure RecordIdentity where
  artifactId : UInt64
  sessionId : UInt64
  frameId : UInt64
  parentArtifactId : UInt64
  creatorEventId : UInt64

/-- The identifiers a record begins with. -/
def parseIdentity (line : List UInt8) : Option (RecordIdentity × List UInt8) := do
  let line ← consumePrefix "\x7b\"protocol_version\":1,\"artifact_id\":\"" line
  let (artifactId, line) ← parseUnsignedField "\",\"session_id\":\"" line
  guard (artifactId ≠ 0)
  let (sessionId, line) ← parseUnsignedField "\",\"navigation_id\":\"" line
  guard (sessionId ≠ 0)
  let (_, line) ← parseUnsignedField "\",\"frame_id\":\"" line
  let (frameId, line) ← parseUnsignedField "\",\"parent_artifact_id\":\"" line
  let (parentArtifactId, line) ← parseUnsignedField "\",\"creator_event_id\":\"" line
  let (creatorEventId, line) ← parseUnsignedField "\"" line
  return ({ artifactId, sessionId, frameId, parentArtifactId, creatorEventId }, line)

def recordedOrigins : List String :=
  ["unknown", "network_response", "dynamic_javascript", "webassembly_compile",
    "webassembly_module", "webassembly_instantiate", "canvas_to_data_url", "runtime_typed_array",
    "runtime_allocating_script", "native_wasm_guest", "network_request"]

def recordedKinds : List String :=
  ["javascript", "wasm", "source_map", "response_body", "canvas_data_url", "bytecode_buffer",
    "wasm_guest_adapter", "request_body"]

/-- The execution context and capture origin; a record without them has neither. -/
def parseOrigin (line : List UInt8) : Option (UInt64 × List UInt8 × List UInt8) :=
  match consumePrefix ",\"execution_context_id\":\"" line with
  | some line => do
      let (executionContextId, line) ← parseUnsignedField "\",\"capture_origin\":\"" line
      let (captureOrigin, line) ← fieldUpTo "\",\"kind\":\"" line
      guard (captureOrigin ∈ recordedOrigins.map ascii)
      return (executionContextId, captureOrigin, line)
  | none => do
      let line ← consumePrefix ",\"kind\":\"" line
      return (0, [], line)

def parseKind (line : List UInt8) : Option (List UInt8 × List UInt8) := do
  let (kind, line) ← fieldUpTo "\",\"url\":\"" line
  guard (kind ∈ recordedKinds.map ascii)
  return (kind, line)

/-- The rules on kind, origin, context and creators over the text of a record. -/
def recordAdmitted (identity : RecordIdentity) (executionContextId : UInt64)
    (captureOrigin kind : List UInt8) : Bool :=
  !((kind == ascii "request_body") != (captureOrigin == ascii "network_request") ||
      (captureOrigin == ascii "network_request" &&
        (executionContextId != 0 || identity.creatorEventId == 0))) &&
    !((captureOrigin != [] && captureOrigin != ascii "unknown" &&
        captureOrigin != ascii "network_response" && captureOrigin != ascii "network_request" &&
        executionContextId == 0) ||
      ((captureOrigin == ascii "dynamic_javascript" ||
          captureOrigin == ascii "runtime_allocating_script") && kind != ascii "javascript") ||
      ((ascii "webassembly_").isPrefixOf captureOrigin && kind != ascii "wasm") ||
      (captureOrigin == ascii "canvas_to_data_url" && kind != ascii "canvas_data_url") ||
      (captureOrigin == ascii "runtime_typed_array" && kind != ascii "bytecode_buffer") ||
      (captureOrigin == ascii "native_wasm_guest" && kind != ascii "bytecode_buffer" &&
        kind != ascii "wasm_guest_adapter")) &&
    !((kind == ascii "wasm_guest_adapter" && captureOrigin != ascii "native_wasm_guest") ||
      (captureOrigin == ascii "native_wasm_guest" &&
        (identity.frameId == 0 || identity.parentArtifactId == 0 || identity.creatorEventId == 0)))

def parseSensitive (line : List UInt8) : Option (Bool × List UInt8) :=
  match consumePrefix "true" line with
  | some line => some (true, line)
  | none => (consumePrefix "false" line).map fun line => (false, line)

/-- The two texts, the content's size, digest and path, and whether it is sensitive. -/
def parseContent (kind line : List UInt8) : Option Unit := do
  let line ← skipJsonString line
  let line ← consumePrefix ",\"mime_type\":\"" line
  let line ← skipJsonString line
  let line ← consumePrefix ",\"byte_size\":" line
  let (_, line) ← parseUnsignedField ",\"sha256\":\"" line
  let (digest, line) ← fieldUpTo "\"" line
  guard (digest.length = 64 ∧ digest.all isLowercaseHex)
  let line ← consumePrefix ",\"sensitive\":" line
  let (sensitive, line) ← parseSensitive line
  guard (sensitive = (kind == ascii "response_body" || kind == ascii "canvas_data_url" ||
    kind == ascii "request_body"))
  let line ← consumePrefix ",\"content_path\":\"blobs/" line
  guard (line.take digest.length = digest)
  guard (line.drop digest.length = ascii ".bin\"\x7d")

/-- The artifact and session identifiers of an admitted record. -/
def parseManifestRecord (line : List UInt8) : Option (UInt64 × UInt64) := do
  let (identity, line) ← parseIdentity line
  let (executionContextId, captureOrigin, line) ← parseOrigin line
  let (kind, line) ← parseKind line
  guard (recordAdmitted identity executionContextId captureOrigin kind)
  parseContent kind line
  return (identity.artifactId, identity.sessionId)

end Reb.Evidence
