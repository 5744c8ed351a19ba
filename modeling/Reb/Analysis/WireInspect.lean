/-
# Analysis.WireInspect -- protobuf messages and gRPC-web bodies without a schema

`rest` is the input from the position on, so the position is `size - rest.length` for an input
of `size` bytes.  A failed step returns the result that the inspection returns.  `fuel` bounds
the loops; every turn takes a byte of the input, so its length is enough.

A gRPC-web body is a sequence of frames: a flag, a length of four bytes and a payload.  Messages
share one budget of protobuf fields, and the frame with the trailers is the last one.
-/
import Reb.Analysis.Base64
import Reb.Theory.Decimal

namespace Reb.Analysis.WireInspect

set_option autoImplicit false

/-- The bytes of a text. -/
abbrev ascii (text : String) : List UInt8 := Theory.Decimal.ascii text

/-- `std::to_string`. -/
abbrev decimal (number : Nat) : List UInt8 := Theory.Decimal.decimal number

def failure {α : Type} (status : DecoderStatus) (error : String) : Except DecoderResult α :=
  .error (.failure status error)

/-! ## Protobuf -/

/-- The loop from its turn `index` on: the value and what is left. -/
def readWireVarintFrom (index value : Nat) : List UInt8 → Option (Nat × List UInt8)
  | [] => none
  | byte :: rest =>
      if 10 ≤ index then none
      else if index = 9 ∧ 1 < byte.toNat then none
      else
        let value := value ||| ((byte.toNat &&& 0x7f) <<< (index * 7))
        if byte.toNat &&& 0x80 = 0 then some (value, rest)
        else readWireVarintFrom (index + 1) value rest

def readWireVarint (input : List UInt8) : Option (Nat × List UInt8) := readWireVarintFrom 0 0 input

/-- The bytes of a fixed-width value, from the one with `index` on. -/
def readFixedFrom (index value : Nat) : List UInt8 → Nat
  | [] => value
  | byte :: rest => readFixedFrom (index + 1) (value ||| (byte.toNat <<< (index * 8))) rest

inductive WireDetail where
  | unsigned (value : Nat)
  | payload (offset : Nat) (bytes : List UInt8)
  deriving DecidableEq, Repr

/-- What is reported of one field. -/
structure WireField where
  offset : Nat
  keyEnd : Nat
  stop : Nat
  number : Nat
  wire : Nat
  detail : WireDetail
  deriving DecidableEq, Repr

def WireDetail.text : WireDetail → List UInt8
  | .unsigned value => ascii ",\"unsigned_decimal\":\"" ++ decimal value ++ ascii "\""
  | .payload offset bytes =>
      ascii ",\"payload_offset\":" ++ decimal offset ++ ascii ",\"length\":" ++ decimal bytes.length
        ++ ascii ",\"bytes_base64\":\"" ++ base64Encode false true bytes ++ ascii "\""

def WireField.text (field : WireField) : List UInt8 :=
  ascii "\x7b\"offset\":" ++ decimal field.offset ++ ascii ",\"key_end\":" ++ decimal field.keyEnd
    ++ ascii ",\"end\":" ++ decimal field.stop ++ ascii ",\"field_number\":" ++ decimal field.number
    ++ ascii ",\"wire_type\":" ++ decimal field.wire ++ field.detail.text ++ ascii "\x7d"

/-- The comma before every entry but the first. -/
def separator (first : Bool) : List UInt8 := if first then [] else ascii ","

/-- The texts of the entries with commas between them. -/
def listed {α : Type} (text : α → List UInt8) : Bool → List α → List UInt8
  | _, [] => []
  | first, entry :: rest => separator first ++ text entry ++ listed text false rest

section Protobuf

variable (size outputLimit : Nat)

def readDetail (wire : Nat) (rest : List UInt8) : Except DecoderResult (WireDetail × List UInt8) :=
  if wire = 0 then
    match readWireVarint rest with
    | none => failure .invalidInput "Invalid or truncated protobuf varint"
    | some (value, rest) => .ok (.unsigned value, rest)
  else if wire = 1 ∨ wire = 5 then
    let width := if wire = 1 then 8 else 4
    if rest.length < width then failure .invalidInput "Truncated protobuf fixed-width value"
    else .ok (.unsigned (readFixedFrom 0 0 (rest.take width)), rest.drop width)
  else if wire = 2 then
    match readWireVarint rest with
    | none => failure .invalidInput "Invalid or truncated protobuf length-delimited field"
    | some (length, rest) =>
        if rest.length < length then
          failure .invalidInput "Invalid or truncated protobuf length-delimited field"
        else if outputLimit / 4 * 3 < length then
          failure .outputLimit "Protobuf byte projection exceeds the output limit"
        else .ok (.payload (size - rest.length) (rest.take length), rest.drop length)
  else
    failure (if wire = 3 ∨ wire = 4 then .unsupported else .invalidInput)
      "Protobuf groups and unknown wire types are not supported"

def readField (input : List UInt8) : Except DecoderResult (WireField × List UInt8) :=
  match readWireVarint input with
  | none => failure .invalidInput "Invalid or truncated protobuf field key"
  | some (tag, keyed) =>
      if tag >>> 3 = 0 ∨ 0x1fffffff < tag >>> 3 then
        failure .invalidInput "Invalid or truncated protobuf field key"
      else
        match readDetail size outputLimit (tag &&& 7) keyed with
        | .error failed => .error failed
        | .ok (detail, rest) =>
            .ok ({ offset := size - input.length, keyEnd := size - keyed.length,
                   stop := size - rest.length, number := tag >>> 3, wire := tag &&& 7, detail },
              rest)

/-- The output with an entry at its end, when `reserve` bytes still fit behind it. -/
def addEntry (reserve : Nat) (error : String) (entry output : List UInt8) :
    Except DecoderResult (List UInt8) :=
  if outputLimit < entry.length + reserve ∨ outputLimit - entry.length - reserve < output.length then
    failure .outputLimit error
  else .ok (output ++ entry)

def protobufExceeded : String := "Protobuf report exceeds the output limit"

/-- The loop over the fields: the output, and what is left of the budget. -/
def inspectFields : Nat → Bool → List UInt8 → List UInt8 → Nat →
    Except DecoderResult (List UInt8 × Nat)
  | _, _, [], output, budget => .ok (output, budget)
  | _, _, _ :: _, _, 0 => failure .outputLimit "Protobuf field count exceeds 4096"
  | 0, _, _ :: _, output, budget => .ok (output, budget)
  | fuel + 1, first, byte :: more, output, budget + 1 =>
      match readField size outputLimit (byte :: more) with
      | .error failed => .error failed
      | .ok (field, rest) =>
          match addEntry outputLimit 2 protobufExceeded (separator first ++ field.text) output with
          | .error failed => .error failed
          | .ok output => inspectFields fuel false rest output budget

end Protobuf

def protobufHeader : List UInt8 :=
  ascii "\x7b\"format\":\"reb-protobuf-wire-v1\",\"schema_known\":false,\"fields\":["

/-- `Success` for an output within the limit. -/
def finish (outputLimit : Nat) (error : String) (output : List UInt8) :
    Except DecoderResult (List UInt8) :=
  if outputLimit < output.length then failure .outputLimit error else .ok output

/-- The report and what is left of the budget, or the failure. -/
def inspectProtobuf (input : List UInt8) (outputLimit fieldBudget : Nat) :
    Except DecoderResult (List UInt8 × Nat) :=
  match inspectFields input.length outputLimit input.length true input protobufHeader fieldBudget with
  | .error failed => .error failed
  | .ok (output, left) =>
      match finish outputLimit protobufExceeded (output ++ ascii "]\x7d") with
      | .error failed => .error failed
      | .ok report => .ok (report, left)

end Reb.Analysis.WireInspect

namespace Reb.Analysis.WireInspect

/-! # gRPC-web bodies, binary and text -/

def carriageReturn : UInt8 := 0x0d

def lineFeed : UInt8 := 0x0a

def colon : UInt8 := 0x3a

def kLowerHex : List UInt8 := ascii "0123456789abcdef"

def escapeByte (byte : UInt8) : List UInt8 :=
  if byte = 0x22 then ascii "\\\""
  else if byte = 0x5c then ascii "\\\\"
  else if byte = 0x08 then ascii "\\b"
  else if byte = 0x0c then ascii "\\f"
  else if byte = 0x0a then ascii "\\n"
  else if byte = 0x0d then ascii "\\r"
  else if byte = 0x09 then ascii "\\t"
  else if byte < 0x20 then
    ascii "\\u00" ++ [kLowerHex.getD (byte.toNat >>> 4) 0, kLowerHex.getD (byte.toNat &&& 0x0f) 0]
  else [byte]

/-- `JsonEscape` -/
def jsonEscaped (text : List UInt8) : List UInt8 := text.flatMap escapeByte

/-! ## Trailers -/

structure Trailer where
  name : List UInt8
  value : List UInt8
  deriving DecidableEq, Repr

def Trailer.text (trailer : Trailer) : List UInt8 :=
  ascii "\x7b\"name\":\"" ++ jsonEscaped trailer.name ++ ascii "\",\"value\":\""
    ++ jsonEscaped trailer.value ++ ascii "\"\x7d"

def isTrailerByte (byte : UInt8) : Bool :=
  byte == carriageReturn || byte == lineFeed || !(byte < 0x20 || 0x7e < byte)

def isNameByte (byte : UInt8) : Bool :=
  (0x61 ≤ byte && byte ≤ 0x7a) || (0x30 ≤ byte && byte ≤ 0x39) || byte == 0x5f || byte == 0x2d
    || byte == 0x2e

def readTrailer (line : List UInt8) : Except DecoderResult Trailer :=
  let name := line.takeWhile (· ≠ colon)
  let value := (line.dropWhile (· ≠ colon)).drop 1
  if colon ∉ line ∨ name = [] then
    failure .invalidInput "gRPC-web trailer field has no name separator"
  else if name.all isNameByte = false then
    failure .invalidInput "gRPC-web trailer names must be lowercase metadata keys"
  else if carriageReturn ∈ value ∨ lineFeed ∈ value then
    failure .invalidInput "Malformed gRPC-web trailer value"
  else .ok { name, value }

/-- The loop over the lines, with the number of lines read before. -/
def readTrailers : Nat → Nat → List UInt8 → Except DecoderResult (List Trailer)
  | _, _, [] => .ok []
  | 0, _, _ :: _ => .ok []
  | fuel + 1, headers, text@(_ :: _) =>
      match text.dropInfix? [carriageReturn, lineFeed] with
      | none => failure .invalidInput "Malformed or excessive gRPC-web trailer lines"
      | some (line, rest) =>
          if 128 < headers + 1 then
            failure .invalidInput "Malformed or excessive gRPC-web trailer lines"
          else
            match readTrailer line with
            | .error failed => .error failed
            | .ok trailer =>
                match readTrailers fuel (headers + 1) rest with
                | .error failed => .error failed
                | .ok trailers => .ok (trailer :: trailers)

def inspectTrailers (payload : List UInt8) : Except DecoderResult (List UInt8) :=
  if 16384 < payload.length then
    failure .outputLimit "gRPC-web trailers exceed 16 KiB"
  else if payload.all isTrailerByte = false then
    failure .invalidInput "gRPC-web trailers must contain bounded ASCII metadata"
  else
    match readTrailers payload.length 0 payload with
    | .error failed => .error failed
    | .ok trailers =>
        .ok (ascii "\"kind\":\"trailers\",\"headers\":[" ++ listed Trailer.text true trailers
          ++ ascii "]")

/-! ## Frames -/

/-- What is reported of one frame. -/
structure WireFrame where
  offset : Nat
  length : Nat
  stop : Nat
  body : List UInt8
  deriving DecidableEq, Repr

def WireFrame.text (frame : WireFrame) : List UInt8 :=
  ascii "\x7b\"offset\":" ++ decimal frame.offset ++ ascii ",\"payload_offset\":"
    ++ decimal (frame.offset + 5) ++ ascii ",\"length\":" ++ decimal frame.length
    ++ ascii ",\"end\":" ++ decimal frame.stop ++ ascii "," ++ frame.body ++ ascii "\x7d"

/-- The length that the header's bytes spell, the most significant one first. -/
def readLength (bytes : List UInt8) : Nat :=
  bytes.foldl (fun length byte => (length <<< 8) ||| byte.toNat) 0

section Frames

variable (size outputLimit : Nat)

/-- The body of a frame and what is left of the budget of fields. -/
def readBody (flags : UInt8) (payload : List UInt8) (fieldBudget : Nat) :
    Except DecoderResult (List UInt8 × Nat) :=
  if flags = 0 then
    match inspectProtobuf payload outputLimit fieldBudget with
    | .error failed => .error failed
    | .ok (report, left) => .ok (ascii "\"kind\":\"message\",\"protobuf\":" ++ report, left)
  else
    match inspectTrailers payload with
    | .error failed => .error failed
    | .ok body => .ok (body, fieldBudget)

/-- A frame, what is left of the budget, whether it holds the trailers, and the rest. -/
def readFrame (input : List UInt8) (fieldBudget : Nat) :
    Except DecoderResult (WireFrame × Nat × Bool × List UInt8) :=
  match input with
  | flags :: first :: second :: third :: fourth :: behind =>
      if flags ≠ 0 ∧ flags ≠ 0x80 then
        failure .unsupported "Compressed or reserved gRPC-web flags are unsupported"
      else
        let length := readLength [first, second, third, fourth]
        if behind.length < length then failure .invalidInput "Truncated gRPC-web envelope payload"
        else
          match readBody outputLimit flags (behind.take length) fieldBudget with
          | .error failed => .error failed
          | .ok (body, left) =>
              .ok ({ offset := size - input.length, length,
                     stop := size - (behind.drop length).length, body },
                left, flags ≠ 0, behind.drop length)
  | _ => failure .invalidInput "Truncated gRPC-web envelope header"

def grpcWebExceeded : String := "gRPC-web report exceeds the output limit"

/-- The loop over the frames: the output, and whether there were trailers. -/
def inspectFrames : Nat → Nat → Bool → List UInt8 → List UInt8 → Nat →
    Except DecoderResult (List UInt8 × Bool)
  | _, _, trailers, [], output, _ => .ok (output, trailers)
  | 0, _, trailers, _ :: _, output, _ => .ok (output, trailers)
  | fuel + 1, count, trailers, byte :: more, output, fieldBudget =>
      if trailers then failure .invalidInput "gRPC-web trailers must be the last frame"
      else if 256 < count + 1 then failure .outputLimit "gRPC-web frame count exceeds 256"
      else
        match readFrame size outputLimit (byte :: more) fieldBudget with
        | .error failed => .error failed
        | .ok (frame, left, trailers, rest) =>
            match addEntry outputLimit 64 grpcWebExceeded
                (separator (count = 0) ++ frame.text) output with
            | .error failed => .error failed
            | .ok output => inspectFrames fuel (count + 1) trailers rest output left

end Frames

def grpcWebHeader : List UInt8 := ascii "\x7b\"format\":\"reb-grpc-web-wire-v1\",\"frames\":["

def grpcWebTail (trailers : Bool) : List UInt8 :=
  ascii "],\"trailers_present\":" ++ ascii (if trailers then "true" else "false")
    ++ ascii ",\"rpc_success_verified\":false\x7d"

def inspectGrpcWeb (input : List UInt8) (outputLimit : Nat) : Except DecoderResult (List UInt8) :=
  match inspectFrames input.length outputLimit input.length 0 false input grpcWebHeader 4096 with
  | .error failed => .error failed
  | .ok (output, trailers) => finish outputLimit grpcWebExceeded (output ++ grpcWebTail trailers)

/-! ## Text -/

/-- The quartets, decoded one by one. -/
def decodeQuartets : List UInt8 → Except DecoderResult (List UInt8)
  | first :: second :: third :: fourth :: rest =>
      let chunk := base64Decode [first, second, third, fourth] false 3
      if chunk.status ≠ .ok then .error chunk
      else
        match decodeQuartets rest with
        | .error failed => .error failed
        | .ok decoded => .ok (chunk.output ++ decoded)
  | _ => .ok []

def inspectGrpcWebText (input : List UInt8) (outputLimit : Nat) :
    Except DecoderResult (List UInt8) :=
  if input.length % 4 ≠ 0 then
    failure .invalidInput "gRPC-web text requires complete base64 quartets"
  else
    match decodeQuartets input with
    | .error failed => .error failed
    | .ok decoded => inspectGrpcWeb decoded outputLimit

end Reb.Analysis.WireInspect
