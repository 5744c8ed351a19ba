/-
# Analysis.JsonFormatter -- the bounded JSON formatter

One pass over the text checks it and writes it out again, on one line or indented.
A `Cursor` is what the pass changes: the text that is left, the tokens it has
counted and the output.  `fuel` bounds the recursion; every call takes a byte of
the text, so its length is enough.
-/
import Reb.Analysis.JsonText
import Reb.Analysis.Utf8

namespace Reb.Analysis

set_option autoImplicit false

inductive DecoderStatus where
  | ok | invalidInput | outputLimit | unsupported | internalError
  deriving DecidableEq, Repr

structure DecoderResult where
  status : DecoderStatus := .internalError
  output : List UInt8 := []
  error : String := ""
  deriving DecidableEq, Repr

def DecoderResult.failure (status : DecoderStatus) (error : String) : DecoderResult :=
  { status, error }

def DecoderResult.success (output : List UInt8) : DecoderResult := { status := .ok, output }

def kDecoderMaxJsonDepth : Nat := 64

def kDecoderMaxJsonTokens : Nat := 100000

namespace JsonFormatter

/-- `error_` and `limit_reached_`. -/
structure Refusal where
  error : String := ""
  limitReached : Bool := false
  deriving DecidableEq, Repr

structure Cursor where
  rest : List UInt8
  tokens : Nat := 0
  output : List UInt8 := []
  deriving DecidableEq, Repr

/-- The formatter's own settings. -/
structure Settings extends Layout where
  outputLimit : Nat

def outputExceeded : Refusal :=
  { error := "JSON output exceeds the configured byte limit", limitReached := true }

/-- An error text other than that of the output limit. -/
def malformed (error : String) : Refusal := { error }

variable (f : Settings)

/-- `Append(char)`. -/
def appendByte (byte : UInt8) (c : Cursor) : Except Refusal Cursor :=
  if c.output.length ≥ f.outputLimit then .error outputExceeded
  else .ok { c with output := c.output ++ [byte] }

/-- `Append(std::string_view)`. -/
def append (text : List UInt8) (c : Cursor) : Except Refusal Cursor :=
  if text.length > f.outputLimit - min c.output.length f.outputLimit then .error outputExceeded
  else .ok { c with output := c.output ++ text }

def newlineAndIndent (depth : Nat) (c : Cursor) : Except Refusal Cursor :=
  if !f.pretty then .ok c
  else do
    let c ← appendByte f 0x0a c
    if depth > (f.outputLimit - min c.output.length f.outputLimit) / 2 then .error outputExceeded
    else append f (List.replicate (depth * 2) 0x20) c

def skipWhitespace (c : Cursor) : Cursor := { c with rest := c.rest.dropWhile isBlank }

def token (c : Cursor) : Except Refusal Cursor :=
  if c.tokens + 1 > kDecoderMaxJsonTokens then
    .error (malformed "JSON token count exceeds the configured limit")
  else .ok { c with tokens := c.tokens + 1 }

/-- The loop of `ParseString`: what it takes after the opening quote, and what is left. -/
def scanString : List UInt8 → Except Refusal (List UInt8 × List UInt8)
  | [] => .error (malformed "JSON string is not closed")
  | byte :: rest =>
      if byte = quote then .ok ([byte], rest)
      else if byte < 0x20 then
        .error (malformed "JSON string contains an unescaped control character")
      else if byte ≠ backslash then
        (scanString rest).map fun (taken, left) => (byte :: taken, left)
      else
        match rest with
        | [] => .error (malformed "JSON string ends inside an escape")
        | escaped :: rest =>
            if escaped ∈ simpleEscapes then
              (scanString rest).map fun (taken, left) => (byte :: escaped :: taken, left)
            else if escaped ≠ 0x75 then .error (malformed "JSON string contains an invalid escape")
            else
              match rest with
              | a :: b :: c :: d :: rest =>
                  if (hexValue a).isSome && (hexValue b).isSome && (hexValue c).isSome
                      && (hexValue d).isSome then
                    (scanString rest).map fun (taken, left) =>
                      (byte :: escaped :: a :: b :: c :: d :: taken, left)
                  else .error (malformed "JSON string contains an invalid Unicode escape")
              | _ => .error (malformed "JSON string contains an invalid escape")

/-- `ParseString`, at the opening quote. -/
def parseString (c : Cursor) : Except Refusal Cursor := do
  let (taken, left) ← scanString c.rest.tail
  append f (c.rest.take 1 ++ taken) { c with rest := left }

def takeDigits (text : List UInt8) : List UInt8 × List UInt8 :=
  (text.takeWhile isDigit, text.dropWhile isDigit)

/-- The sign of a number or of an exponent. -/
def takeSign (signs : List UInt8) : List UInt8 → List UInt8 × List UInt8
  | [] => ([], [])
  | byte :: rest => if byte ∈ signs then ([byte], rest) else ([], byte :: rest)

def scanWhole : List UInt8 → Except Refusal (List UInt8 × List UInt8)
  | [] => .error (malformed "JSON number is incomplete")
  | byte :: rest =>
      if byte = 0x30 then
        if rest.head?.any isDigit then .error (malformed "JSON number has a leading zero")
        else .ok ([byte], rest)
      else if 0x31 ≤ byte ∧ byte ≤ 0x39 then .ok (takeDigits (byte :: rest))
      else .error (malformed "JSON value is invalid")

def scanFraction : List UInt8 → Except Refusal (List UInt8 × List UInt8)
  | [] => .ok ([], [])
  | byte :: rest =>
      if byte = 0x2e then
        if (takeDigits rest).1 = [] then .error (malformed "JSON number fraction is incomplete")
        else .ok (byte :: (takeDigits rest).1, (takeDigits rest).2)
      else .ok ([], byte :: rest)

def scanExponent : List UInt8 → Except Refusal (List UInt8 × List UInt8)
  | [] => .ok ([], [])
  | byte :: rest =>
      if byte = 0x65 ∨ byte = 0x45 then
        let (sign, after) := takeSign [0x2b, 0x2d] rest
        if (takeDigits after).1 = [] then .error (malformed "JSON number exponent is incomplete")
        else .ok (byte :: (sign ++ (takeDigits after).1), (takeDigits after).2)
      else .ok ([], byte :: rest)

def scanNumber (text : List UInt8) : Except Refusal (List UInt8 × List UInt8) := do
  let (sign, rest) := takeSign [0x2d] text
  let (whole, rest) ← scanWhole rest
  let (fraction, rest) ← scanFraction rest
  let (exponent, rest) ← scanExponent rest
  return (sign ++ whole ++ fraction ++ exponent, rest)

def parseNumber (c : Cursor) : Except Refusal Cursor := do
  let (taken, left) ← scanNumber c.rest
  append f taken { c with rest := left }

def parseLiteral (literal : List UInt8) (c : Cursor) : Except Refusal Cursor :=
  if c.rest.take literal.length ≠ literal then .error (malformed "JSON literal is invalid")
  else append f literal { c with rest := c.rest.drop literal.length }

/-! ## Objects and arrays -/

def missingComma : Bracket → Refusal
  | .object => malformed "JSON object entry is missing a comma"
  | .array => malformed "JSON array entry is missing a comma"

def notClosed : Bracket → Refusal
  | .object => malformed "JSON object is not closed"
  | .array => malformed "JSON array is not closed"

def parseColon (c : Cursor) : Except Refusal Cursor :=
  match c.rest with
  | [] => .error (malformed "JSON object key is missing a colon")
  | byte :: rest =>
      if byte ≠ colon then .error (malformed "JSON object key is missing a colon")
      else append f f.separator { c with rest }

/-- What `ParseObject` does before the value of a member, and `ParseArray` does not. -/
def parseKey : Bracket → Cursor → Except Refusal Cursor
  | .array, c => .ok c
  | .object, c =>
      if (skipWhitespace c).rest.head? ≠ some quote then
        .error (malformed "JSON object keys must be strings")
      else do
        let c ← token (skipWhitespace c)
        let c ← parseString f c
        parseColon f (skipWhitespace c)

/-- What follows the opening bracket; `entries` is the loop of the group. -/
def parseInside (bracket : Bracket) (entries : Cursor → Except Refusal Cursor) (c : Cursor) :
    Except Refusal Cursor :=
  match c.rest with
  | [] => entries c
  | byte :: rest =>
      if byte = bracket.closes then appendByte f bracket.closes { c with rest } else entries c

/-- `ParseObject` and `ParseArray`, at the opening bracket. -/
def parseGroup (bracket : Bracket) (entries : Cursor → Except Refusal Cursor) (c : Cursor) :
    Except Refusal Cursor := do
  let c ← appendByte f bracket.opens { c with rest := c.rest.tail }
  parseInside f bracket entries (skipWhitespace c)

/-- The comma before every entry but the first, which has `entry_count == 0`. -/
def separate (first : Bool) (c : Cursor) : Except Refusal Cursor :=
  if first then .ok c else appendByte f comma c

/-- What follows an entry; `more` is the loop of the group. -/
def parseAfter (bracket : Bracket) (depth : Nat) (more : Cursor → Except Refusal Cursor)
    (c : Cursor) : Except Refusal Cursor :=
  match c.rest with
  | [] => .error (missingComma bracket)
  | byte :: rest =>
      if byte = bracket.closes then do
        let c ← newlineAndIndent f depth { c with rest }
        appendByte f bracket.closes c
      else if byte = comma then more { c with rest }
      else .error (missingComma bracket)

/-- The branches of `ParseValue`. -/
def parseToken (group : Bracket → Cursor → Except Refusal Cursor) (byte : UInt8) (c : Cursor) :
    Except Refusal Cursor :=
  if byte = 0x7b then group .object c
  else if byte = 0x5b then group .array c
  else if byte = quote then parseString f c
  else if byte = 0x74 then parseLiteral f Word.yes.spelled c
  else if byte = 0x66 then parseLiteral f Word.no.spelled c
  else if byte = 0x6e then parseLiteral f Word.null.spelled c
  else parseNumber f c

mutual

def parseValue (fuel depth : Nat) (c : Cursor) : Except Refusal Cursor :=
  match fuel with
  | 0 => .error {}
  | fuel + 1 =>
      if depth > kDecoderMaxJsonDepth then
        .error (malformed "JSON nesting exceeds the configured depth limit")
      else
        match (skipWhitespace c).rest with
        | [] => .error {}
        | byte :: _ => do
            let c ← token (skipWhitespace c)
            parseToken f (fun bracket =>
              parseGroup f bracket (parseEntries fuel bracket depth true)) byte c

/-- The loop of `ParseObject` and of `ParseArray`. -/
def parseEntries (fuel : Nat) (bracket : Bracket) (depth : Nat) (first : Bool) (c : Cursor) :
    Except Refusal Cursor :=
  match fuel with
  | 0 => .error {}
  | fuel + 1 =>
      if c.rest = [] then .error (notClosed bracket)
      else do
        let c ← separate f first c
        let c ← newlineAndIndent f (depth + 1) c
        let c ← parseKey f bracket c
        let c ← parseValue fuel (depth + 1) c
        parseAfter f bracket depth (parseEntries fuel bracket depth false) (skipWhitespace c)

end

def run (input : List UInt8) : DecoderResult :=
  if !isValidUtf8 input then .failure .invalidInput "JSON input is not valid UTF-8"
  else
    match parseValue f (input.length + 1) 0 (skipWhitespace { rest := input }) with
    | .error refusal =>
        .failure (if refusal.limitReached then .outputLimit else .invalidInput)
          (if refusal.error = "" then "JSON input is malformed" else refusal.error)
    | .ok c =>
        if (skipWhitespace c).rest ≠ [] then .failure .invalidInput "JSON input has trailing content"
        else .success c.output

end JsonFormatter

def formatJson (input : List UInt8) (pretty : Bool) (outputLimit : Nat) : DecoderResult :=
  JsonFormatter.run { pretty, outputLimit } input

end Reb.Analysis
