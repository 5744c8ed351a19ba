/-
# Analysis.TopLevelProperty -- a member looked up in a minified object

`TopLevelStringProperty` walks the members of an object that `FormatJson` has
minified, with a string reader of its own.  That reader refuses a surrogate without
its other half, which the formatter lets pass, and the walk stops where it does.
-/
import Reb.Analysis.JsonFormatter

namespace Reb.Analysis

set_option autoImplicit false

/-! ## The reader -/

/-- The code unit that four bytes name in hexadecimal. -/
def readUnit (a b c d : UInt8) : Option Nat :=
  match hexValue a, hexValue b, hexValue c, hexValue d with
  | some a, some b, some c, some d => some (((a * 16 + b) * 16 + c) * 16 + d)
  | _, _, _, _ => none

/-- The escapes of one character. -/
def readEscape (escaped : UInt8) : Option UInt8 :=
  if escaped = quote ∨ escaped = backslash ∨ escaped = 0x2f then some escaped
  else if escaped = 0x62 then some 0x08
  else if escaped = 0x66 then some 0x0c
  else if escaped = 0x6e then some 0x0a
  else if escaped = 0x72 then some 0x0d
  else if escaped = 0x74 then some 0x09
  else none

/-- The loop of `DecodeJsonString`: the string, and what follows its closing quote. -/
def decodeRest : List UInt8 → Option (List UInt8 × List UInt8)
  | [] => none
  | byte :: rest =>
      if byte = quote then some ([], rest)
      else if byte ≠ backslash then (decodeRest rest).map fun (text, left) => (byte :: text, left)
      else
        match rest with
        | [] => none
        | escaped :: rest =>
            if escaped ≠ 0x75 then
              match readEscape escaped with
              | none => none
              | some character =>
                  (decodeRest rest).map fun (text, left) => (character :: text, left)
            else
              match rest with
              | a :: b :: c :: d :: rest =>
                  match readUnit a b c d with
                  | none => none
                  | some unit =>
                      if isHigh unit then
                        match rest with
                        | slash :: letter :: a :: b :: c :: d :: rest =>
                            if slash ≠ backslash ∨ letter ≠ 0x75 then none
                            else
                              match readUnit a b c d with
                              | none => none
                              | some low =>
                                  if !isLow low then none
                                  else
                                    (decodeRest rest).map fun (text, left) =>
                                      (utf8 (0x10000 + (unit - 0xd800) * 1024 + (low - 0xdc00)) ++ text, left)
                        | _ => none
                      else if isLow unit then none
                      else (decodeRest rest).map fun (text, left) => (utf8 unit ++ text, left)
              | _ => none

/-- `DecodeJsonString`. -/
def decodeJsonString : List UInt8 → Option (List UInt8 × List UInt8)
  | [] => none
  | byte :: rest => if byte = quote then decodeRest rest else none

/-! ## Values passed over -/

/-- What ends a value that is neither a string nor a group. -/
def endsScalar (byte : UInt8) : Bool := byte == comma || byte == 0x7d || byte == 0x5d

/-- The key of a member and its colon. -/
def skipKey : Bracket → List UInt8 → Option (List UInt8)
  | .array, input => some input
  | .object, input =>
      match decodeJsonString input with
      | some (_, byte :: rest) => if byte = colon then some rest else none
      | _ => none

/-- What follows an opening bracket; `entries` is the loop of the group. -/
def skipGroup (bracket : Bracket) (entries : List UInt8 → Option (List UInt8))
    (input : List UInt8) : Option (List UInt8) :=
  if input.head? = some bracket.closes then some input.tail else entries input

/-- What follows an entry; `more` is the loop of the group. -/
def skipAfter (bracket : Bracket) (more : List UInt8 → Option (List UInt8)) :
    List UInt8 → Option (List UInt8)
  | [] => none
  | byte :: rest =>
      if byte = bracket.closes then some rest
      else if byte = comma then more rest
      else none

mutual

/-- `SkipMinifiedJsonValue`; every call takes a byte, so the text's length is enough fuel. -/
def skipValue (fuel depth : Nat) (input : List UInt8) : Option (List UInt8) :=
  match fuel with
  | 0 => none
  | fuel + 1 =>
      match input with
      | [] => none
      | byte :: rest =>
          if depth > kDecoderMaxJsonDepth then none
          else if byte = quote then (decodeJsonString (byte :: rest)).map (·.2)
          else if byte = 0x7b then skipGroup .object (skipEntries fuel .object depth) rest
          else if byte = 0x5b then skipGroup .array (skipEntries fuel .array depth) rest
          else some ((byte :: rest).dropWhile (!endsScalar ·))

def skipEntries (fuel : Nat) (bracket : Bracket) (depth : Nat) (input : List UInt8) :
    Option (List UInt8) :=
  match fuel with
  | 0 => none
  | fuel + 1 =>
      if input = [] then none
      else
        (skipKey bracket input).bind fun rest =>
          (skipValue fuel (depth + 1) rest).bind (skipAfter bracket (skipEntries fuel bracket depth))

end

/-- `SkipMinifiedJsonValue` at depth 0. -/
def skipMinifiedJsonValue (input : List UInt8) : Option (List UInt8) :=
  skipValue (input.length + 1) 0 input

/-! ## The members -/

/-- What `TopLevelStringProperty` returns, and its two flags. -/
structure Property where
  value : Option (List UInt8) := none
  duplicate : Bool := false
  present : Bool := false
  deriving DecidableEq, Repr

namespace Property

/-- A return of `std::nullopt`. -/
def giveUp (found : Property) : Property := { found with value := none }

/-- A key has been read; `named` says that it is the property. -/
def see (found : Property) (named : Bool) : Property :=
  if named then { found with duplicate := found.duplicate || found.present, present := true }
  else found

/-- The value of a member is read, or passed over. -/
def pass (found : Property) (named : Bool) (input : List UInt8) :
    Option (Property × List UInt8) :=
  match named, decodeJsonString input with
  | true, some (value, rest) => some ({ found with value := some value }, rest)
  | _, _ => (skipMinifiedJsonValue input).map fun rest =>
      (if named then found.giveUp else found, rest)

end Property

/-- The loop over the members; every turn takes a byte. -/
def topLevelMembers (property : List UInt8) : Nat → List UInt8 → Property → Property
  | 0, _, found => found.giveUp
  | turns + 1, input, found =>
      if input.length ≤ 1 then found.giveUp
      else
        match decodeJsonString input with
        | some (key, byte :: rest) =>
            if byte ≠ colon then found.giveUp
            else
              match (found.see (key == property)).pass (key == property) rest with
              | some (found, next :: rest) =>
                  if next = 0x7d then found
                  else if next = comma then topLevelMembers property turns rest found
                  else found.giveUp
              | _ => (found.see (key == property)).giveUp
        | _ => found.giveUp

/-- `TopLevelStringProperty`. -/
def topLevelStringProperty (object property : List UInt8) : Property :=
  if object.length < 2 || object.head? != some 0x7b || object.getLast? != some 0x7d then {}
  else if object.tail.head? = some 0x7d then {}
  else topLevelMembers property object.length object.tail {}

end Reb.Analysis
