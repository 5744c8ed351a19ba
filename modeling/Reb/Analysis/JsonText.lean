/-
# Analysis.JsonText -- JSON as written

A `Doc` is a JSON value as its text spells it: the strings keep their escapes, the
numbers their digits, and only the blanks between tokens are forgotten.  What a
`Doc` holds is well formed by construction: a `Piece` is a character a string may
hold, and the entries of an object have keys where those of an array have none.

`Doc.minified` and `Doc.pretty` are the two layouts, and `Spells` relates a value to
every text that spells it.
-/
import Mathlib

namespace Reb.Analysis

set_option autoImplicit false

/-! ## Bytes -/

abbrev quote : UInt8 := 0x22
abbrev backslash : UInt8 := 0x5c
abbrev comma : UInt8 := 0x2c
abbrev colon : UInt8 := 0x3a

def isBlank (byte : UInt8) : Bool := byte == 0x20 || byte == 0x0a || byte == 0x0d || byte == 0x09

def isDigit (byte : UInt8) : Bool := 0x30 ≤ byte && byte ≤ 0x39

def hexValue (byte : UInt8) : Option Nat :=
  if 0x30 ≤ byte && byte ≤ 0x39 then some (byte.toNat - 0x30)
  else if 0x61 ≤ byte && byte ≤ 0x66 then some (byte.toNat - 0x61 + 10)
  else if 0x41 ≤ byte && byte ≤ 0x46 then some (byte.toNat - 0x41 + 10)
  else none

/-- What may follow a backslash by itself: `"\/bfnrt`. -/
def simpleEscapes : List UInt8 := [0x22, 0x5c, 0x2f, 0x62, 0x66, 0x6e, 0x72, 0x74]

/-! ## Strings -/

abbrev HexDigit := { byte : UInt8 // (hexValue byte).isSome = true }

def HexDigit.value (digit : HexDigit) : Nat := (hexValue digit.1).get digit.2

/-- What a string holds: a byte by itself, an escape, or a code unit in hexadecimal. -/
inductive Piece where
  | plain (byte : UInt8) (ordinary : 0x20 ≤ byte ∧ byte ≠ quote ∧ byte ≠ backslash)
  | escape (byte : UInt8) (simple : byte ∈ simpleEscapes)
  | unit (a b c d : HexDigit)
  deriving DecidableEq

abbrev Text := List Piece

def Piece.spelled : Piece → List UInt8
  | .plain byte _ => [byte]
  | .escape byte _ => [backslash, byte]
  | .unit a b c d => [backslash, 0x75, a.1, b.1, c.1, d.1]

def Text.spelled (text : Text) : List UInt8 := text.flatMap Piece.spelled

def Text.quoted (text : Text) : List UInt8 := quote :: (text.spelled ++ [quote])

/-- The code unit that four hexadecimal digits name. -/
def codeUnit (a b c d : HexDigit) : Nat :=
  ((a.value * 16 + b.value) * 16 + c.value) * 16 + d.value

/-- The UTF-8 encoding of a code point. -/
def utf8 (codePoint : Nat) : List UInt8 :=
  if codePoint ≤ 0x7f then [UInt8.ofNat codePoint]
  else if codePoint ≤ 0x7ff then
    [UInt8.ofNat (0xc0 ||| (codePoint >>> 6)), UInt8.ofNat (0x80 ||| (codePoint &&& 0x3f))]
  else if codePoint ≤ 0xffff then
    [UInt8.ofNat (0xe0 ||| (codePoint >>> 12)), UInt8.ofNat (0x80 ||| ((codePoint >>> 6) &&& 0x3f)),
      UInt8.ofNat (0x80 ||| (codePoint &&& 0x3f))]
  else
    [UInt8.ofNat (0xf0 ||| (codePoint >>> 18)), UInt8.ofNat (0x80 ||| ((codePoint >>> 12) &&& 0x3f)),
      UInt8.ofNat (0x80 ||| ((codePoint >>> 6) &&& 0x3f)), UInt8.ofNat (0x80 ||| (codePoint &&& 0x3f))]

/-- The character that an escape stands for. -/
def unescape (byte : UInt8) : UInt8 :=
  if byte = 0x62 then 0x08
  else if byte = 0x66 then 0x0c
  else if byte = 0x6e then 0x0a
  else if byte = 0x72 then 0x0d
  else if byte = 0x74 then 0x09
  else byte

def isHigh (unit : Nat) : Bool := 0xd800 ≤ unit && unit ≤ 0xdbff

def isLow (unit : Nat) : Bool := 0xdc00 ≤ unit && unit ≤ 0xdfff

/-- The text that a string stands for, in UTF-8.  A surrogate without its other half
stands for no text. -/
def Text.decoded : Text → Option (List UInt8)
  | [] => some []
  | .plain byte _ :: rest => (Text.decoded rest).map (byte :: ·)
  | .escape byte _ :: rest => (Text.decoded rest).map (unescape byte :: ·)
  | .unit a b c d :: rest =>
      if isHigh (codeUnit a b c d) then
        match rest with
        | .unit a' b' c' d' :: rest =>
            if isLow (codeUnit a' b' c' d') then
              (Text.decoded rest).map (utf8 (0x10000 + (codeUnit a b c d - 0xd800) * 1024
                + (codeUnit a' b' c' d' - 0xdc00)) ++ ·)
            else none
        | _ => none
      else if isLow (codeUnit a b c d) then none
      else (Text.decoded rest).map (utf8 (codeUnit a b c d) ++ ·)

/-! ## Numbers and words -/

/-- A run of digits. -/
structure Digits where
  bytes : List UInt8
  some : bytes ≠ []
  digits : ∀ byte ∈ bytes, isDigit byte = true
  deriving DecidableEq

structure Exponent where
  mark : UInt8
  marks : mark = 0x65 ∨ mark = 0x45
  sign : Option UInt8
  signs : ∀ byte ∈ sign, byte = 0x2b ∨ byte = 0x2d
  digits : Digits
  deriving DecidableEq

structure Numeral where
  negative : Bool
  whole : Digits
  canonical : whole.bytes.head? = some 0x30 → whole.bytes = [0x30]
  fraction : Option Digits
  exponent : Option Exponent
  deriving DecidableEq

def Exponent.spelled (e : Exponent) : List UInt8 := e.mark :: (e.sign.toList ++ e.digits.bytes)

def fractionSpelled (fraction : Option Digits) : List UInt8 :=
  fraction.elim [] fun f => 0x2e :: f.bytes

def Numeral.spelled (n : Numeral) : List UInt8 :=
  (if n.negative then [0x2d] else []) ++ n.whole.bytes ++ fractionSpelled n.fraction
    ++ n.exponent.elim [] Exponent.spelled

inductive Word where
  | yes | no | null
  deriving DecidableEq, Repr

def Word.spelled : Word → List UInt8
  | .yes => [0x74, 0x72, 0x75, 0x65]
  | .no => [0x66, 0x61, 0x6c, 0x73, 0x65]
  | .null => [0x6e, 0x75, 0x6c, 0x6c]

/-! ## Values -/

inductive Bracket where
  | object | array
  deriving DecidableEq, Repr

namespace Bracket

def opens : Bracket → UInt8
  | .object => 0x7b
  | .array => 0x5b

def closes : Bracket → UInt8
  | .object => 0x7d
  | .array => 0x5d

def keyTokens : Bracket → Nat
  | .object => 1
  | .array => 0

/-- What an entry has before its value. -/
abbrev Key : Bracket → Type
  | .object => Text
  | .array => Unit

end Bracket

mutual

inductive Doc : Type where
  | text (text : Text)
  | number (numeral : Numeral)
  | word (word : Word)
  | group (bracket : Bracket) (entries : Entries bracket)

inductive Entries : Bracket → Type where
  | nil {bracket : Bracket} : Entries bracket
  | cons {bracket : Bracket} (key : bracket.Key) (value : Doc) (rest : Entries bracket) :
      Entries bracket

end

/-- The members of an object, in order. -/
def Entries.members : Entries .object → List (Text × Doc)
  | .nil => []
  | .cons key value rest => (key, value) :: rest.members

/-! ## Layouts -/

/-- How a value is laid out: on one line, or an entry a line. -/
structure Layout where
  pretty : Bool

namespace Layout

variable (layout : Layout)

def newline (depth : Nat) : List UInt8 :=
  if layout.pretty then 0x0a :: List.replicate (depth * 2) 0x20 else []

def separator : List UInt8 := if layout.pretty then [colon, 0x20] else [colon]

def key : (bracket : Bracket) → bracket.Key → List UInt8
  | .object, text => Text.quoted text ++ layout.separator
  | .array, () => []

end Layout

mutual

def Doc.laid (layout : Layout) (depth : Nat) : Doc → List UInt8
  | .text text => text.quoted
  | .number numeral => numeral.spelled
  | .word word => word.spelled
  | .group bracket .nil => [bracket.opens, bracket.closes]
  | .group bracket (.cons key value rest) =>
      bracket.opens :: (layout.newline (depth + 1) ++ layout.key bracket key
        ++ value.laid layout (depth + 1) ++ rest.laid layout depth)

/-- The entries after the first one, and the closing bracket. -/
def Entries.laid {bracket : Bracket} (layout : Layout) (depth : Nat) : Entries bracket → List UInt8
  | .nil => layout.newline depth ++ [bracket.closes]
  | .cons key value rest =>
      comma :: (layout.newline (depth + 1) ++ layout.key bracket key
        ++ value.laid layout (depth + 1) ++ rest.laid layout depth)

end

def Doc.minified (doc : Doc) : List UInt8 := doc.laid ⟨false⟩ 0

def Doc.pretty (doc : Doc) : List UInt8 := doc.laid ⟨true⟩ 0

/-! ## Texts that spell a value -/

def Blank (bytes : List UInt8) : Prop := ∀ byte ∈ bytes, isBlank byte = true

inductive SpellsKey : (bracket : Bracket) → bracket.Key → List UInt8 → Prop where
  | object {text : Text} {before after : List UInt8} (first : Blank before) (second : Blank after) :
      SpellsKey .object text (before ++ (text.quoted ++ (after ++ [colon])))
  | array : SpellsKey .array () []

mutual

/-- The bytes spell the value, from its first token to its last. -/
inductive Spells : Doc → List UInt8 → Prop where
  | text (text : Text) : Spells (.text text) text.quoted
  | number (numeral : Numeral) : Spells (.number numeral) numeral.spelled
  | word (word : Word) : Spells (.word word) word.spelled
  | empty {bracket : Bracket} {blanks : List UInt8} (blank : Blank blanks) :
      Spells (.group bracket .nil) (bracket.opens :: (blanks ++ [bracket.closes]))
  | group {bracket : Bracket} {key : bracket.Key} {value : Doc} {rest : Entries bracket}
      {first blanks middle last : List UInt8} (names : SpellsKey bracket key first)
      (blank : Blank blanks) (spells : Spells value middle) (follows : SpellsRest rest last) :
      Spells (.group bracket (.cons key value rest))
        (bracket.opens :: (first ++ (blanks ++ (middle ++ last))))

/-- The bytes after an entry: the others, and the closing bracket. -/
inductive SpellsRest : {bracket : Bracket} → Entries bracket → List UInt8 → Prop where
  | close {bracket : Bracket} {blanks : List UInt8} (blank : Blank blanks) :
      @SpellsRest bracket .nil (blanks ++ [bracket.closes])
  | more {bracket : Bracket} {key : bracket.Key} {value : Doc} {rest : Entries bracket}
      {before first blanks middle last : List UInt8} (blank₁ : Blank before)
      (names : SpellsKey bracket key first) (blank₂ : Blank blanks) (spells : Spells value middle)
      (follows : SpellsRest rest last) :
      SpellsRest (.cons key value rest)
        (before ++ (comma :: (first ++ (blanks ++ (middle ++ last)))))

end

/-- A whole text that spells the value. -/
def SpelledBy (doc : Doc) (text : List UInt8) : Prop :=
  ∃ before middle after, text = before ++ (middle ++ after) ∧ Blank before ∧ Blank after
    ∧ Spells doc middle

/-! ## Sizes -/

mutual

/-- The tokens that are counted: every value, and every key. -/
def Doc.tokens : Doc → Nat
  | .text _ | .number _ | .word _ => 1
  | .group _ entries => 1 + entries.tokens

def Entries.tokens {bracket : Bracket} : Entries bracket → Nat
  | .nil => 0
  | .cons _ value rest => bracket.keyTokens + value.tokens + rest.tokens

end

mutual

/-- The values inside the value, one inside the other. -/
def Doc.depth : Doc → Nat
  | .text _ | .number _ | .word _ => 0
  | .group _ entries => entries.depth

def Entries.depth {bracket : Bracket} : Entries bracket → Nat
  | .nil => 0
  | .cons _ value rest => max (value.depth + 1) rest.depth

end

end Reb.Analysis
