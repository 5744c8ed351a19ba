/-
# Analysis.TopLevelMembers -- which members the look-up sees

Of an object that the formatter has minified, the look-up reads every member up to
the first one that holds a surrogate without its other half, in its key or anywhere
in its value, and that one's key (`topLevelStringProperty_scans`).
-/
import Reb.Analysis.TopLevelProperty

namespace Reb.Analysis

set_option autoImplicit false

/-! ## Strings -/

theorem readUnit_digits (a b c d : HexDigit) :
    readUnit a.1 b.1 c.1 d.1 = some (codeUnit a b c d) := by
  have read (digit : HexDigit) : hexValue digit.1 = some digit.value :=
    (Option.some_get digit.2).symm
  simp [readUnit, read, codeUnit]

theorem readEscape_simple {byte : UInt8} (simple : byte ∈ simpleEscapes) :
    byte ≠ 0x75 ∧ readEscape byte = some (unescape byte) := by
  simp only [simpleEscapes, List.mem_cons, List.not_mem_nil, or_false] at simple
  rcases simple with rfl | rfl | rfl | rfl | rfl | rfl | rfl | rfl <;> decide

theorem backslash_ne_quote : ¬ backslash = quote := by decide

section Pieces

variable {byte : UInt8} {a b c d : HexDigit} (rest : List UInt8)

-- A text that is not closed is none.
example : decodeRest [] = none := by rw [decodeRest]

theorem decodeRest_quote : decodeRest (quote :: rest) = some ([], rest) := by
  unfold decodeRest
  rw [if_pos rfl]

theorem decodeRest_plain (ordinary : byte ≠ quote ∧ byte ≠ backslash) :
    decodeRest (byte :: rest) = (decodeRest rest).map fun (text, left) => (byte :: text, left) := by
  conv_lhs => unfold decodeRest
  rw [if_neg ordinary.1, if_pos ordinary.2]

theorem decodeRest_escape (simple : byte ∈ simpleEscapes) :
    decodeRest (backslash :: byte :: rest)
      = (decodeRest rest).map fun (text, left) => (unescape byte :: text, left) := by
  obtain ⟨named, reads⟩ := readEscape_simple simple
  conv_lhs => unfold decodeRest
  simp only [reads, if_pos named]
  rfl

theorem decodeRest_unit (high : isHigh (codeUnit a b c d) = false)
    (low : isLow (codeUnit a b c d) = false) :
    decodeRest (backslash :: 0x75 :: a.1 :: b.1 :: c.1 :: d.1 :: rest)
      = (decodeRest rest).map fun (text, left) => (utf8 (codeUnit a b c d) ++ text, left) := by
  conv_lhs => unfold decodeRest
  simp only [readUnit_digits, high, low]
  rfl

theorem decodeRest_low (high : isHigh (codeUnit a b c d) = false)
    (low : isLow (codeUnit a b c d) = true) :
    decodeRest (backslash :: 0x75 :: a.1 :: b.1 :: c.1 :: d.1 :: rest) = none := by
  conv_lhs => unfold decodeRest
  simp only [readUnit_digits, high, low]
  rfl

theorem decodeRest_pair {a' b' c' d' : HexDigit} (high : isHigh (codeUnit a b c d) = true) :
    decodeRest (backslash :: 0x75 :: a.1 :: b.1 :: c.1 :: d.1 ::
        backslash :: 0x75 :: a'.1 :: b'.1 :: c'.1 :: d'.1 :: rest)
      = if isLow (codeUnit a' b' c' d') then
          (decodeRest rest).map fun (text, left) =>
            (utf8 (0x10000 + (codeUnit a b c d - 0xd800) * 1024 + (codeUnit a' b' c' d' - 0xdc00))
              ++ text, left)
        else none := by
  conv_lhs => unfold decodeRest
  cases low : isLow (codeUnit a' b' c' d') <;>
    simp [readUnit_digits, high, low, backslash_ne_quote]

/-- A high surrogate that no escape of a code unit follows. -/
theorem decodeRest_lonely (high : isHigh (codeUnit a b c d) = true)
    (alone : ∀ a b c d after, rest ≠ backslash :: 0x75 :: a :: b :: c :: d :: after) :
    decodeRest (backslash :: 0x75 :: a.1 :: b.1 :: c.1 :: d.1 :: rest) = none := by
  conv_lhs => unfold decodeRest
  simp only [readUnit_digits, high, if_neg backslash_ne_quote, ne_eq, not_true, if_false, if_true]
  split
  · rename_i slash letter a b c d after
    rw [if_pos]
    by_contra both
    simp only [not_or, not_not] at both
    exact alone a b c d after (by rw [both.1, both.2])
  · rfl

end Pieces

/-- What follows a piece that is not a code unit does not look like one. -/
theorem spelled_alone {text : Text} {after : List UInt8}
    (other : ∀ a b c d rest, text ≠ Piece.unit a b c d :: rest) :
    ∀ a b c d left, text.spelled ++ quote :: after ≠ backslash :: 0x75 :: a :: b :: c :: d :: left := by
  intro a b c d left same
  cases text with
  | nil =>
      simp only [Text.spelled, List.flatMap_nil, List.nil_append, List.cons.injEq] at same
      exact backslash_ne_quote same.1.symm
  | cons piece text =>
      cases piece with
      | plain byte ordinary =>
          simp only [Text.spelled, List.flatMap_cons, Piece.spelled, List.cons_append,
            List.nil_append, List.cons.injEq] at same
          exact ordinary.2.2 same.1
      | escape byte simple =>
          simp only [Text.spelled, List.flatMap_cons, Piece.spelled, List.cons_append,
            List.nil_append, List.cons.injEq, true_and] at same
          exact (readEscape_simple simple).1 same.1
      | unit a b c d => exact other a b c d text rfl

theorem decodeRest_spelled (text : Text) (rest : List UInt8) :
    decodeRest (text.spelled ++ quote :: rest) = text.decoded.map (·, rest) := by
  induction text using Text.decoded.induct with
  | case1 => exact decodeRest_quote rest
  | case2 byte ordinary text ih =>
      have step := decodeRest_plain (Text.spelled text ++ quote :: rest) ordinary.2
      rw [ih] at step
      rw [Text.decoded, Option.map_map]
      simpa [Text.spelled, Piece.spelled, Option.map_map, Function.comp_def] using step
  | case3 byte simple text ih =>
      have step := decodeRest_escape (Text.spelled text ++ quote :: rest) simple
      rw [ih] at step
      rw [Text.decoded, Option.map_map]
      simpa [Text.spelled, Piece.spelled, Option.map_map, Function.comp_def] using step
  | case4 a b c d high a' b' c' d' text low ih =>
      have step := @decodeRest_pair a b c d (Text.spelled text ++ quote :: rest) a' b' c' d' high
      rw [ih, if_pos low] at step
      rw [Text.decoded]
      simp only [high, low, if_true, Option.map_map]
      simpa [Text.spelled, Piece.spelled, Option.map_map, Function.comp_def] using step
  | case5 a b c d high a' b' c' d' text low =>
      have step := @decodeRest_pair a b c d (Text.spelled text ++ quote :: rest) a' b' c' d' high
      rw [if_neg low] at step
      rw [Text.decoded]
      simp only [high, low, if_true]
      simpa [Text.spelled, Piece.spelled] using step
  | case6 a b c d text high other =>
      have step := decodeRest_lonely (Text.spelled text ++ quote :: rest) high
        (spelled_alone fun a b c d rest same => other a b c d rest same)
      have none : Text.decoded (.unit a b c d :: text) = none := by
        unfold Text.decoded
        rw [if_pos high]
        split
        · exact absurd rfl (other _ _ _ _ _)
        · rfl
      rw [none]
      simpa [Text.spelled, Piece.spelled] using step
  | case7 a b c d text high low =>
      have step := decodeRest_low (Text.spelled text ++ quote :: rest) (Bool.eq_false_iff.2 high) low
      unfold Text.decoded
      rw [if_neg high, if_pos low]
      simpa [Text.spelled, Piece.spelled] using step
  | case8 a b c d text high low ih =>
      have step := decodeRest_unit (Text.spelled text ++ quote :: rest) (Bool.eq_false_iff.2 high)
        (Bool.eq_false_iff.2 low)
      rw [ih] at step
      unfold Text.decoded
      rw [if_neg high, if_neg low, Option.map_map]
      simpa [Text.spelled, Piece.spelled, Option.map_map, Function.comp_def] using step

-- A unit escape stands for its character.
example : decodeRest [0x5c, 0x75, 0x30, 0x30, 0x34, 0x31, 0x22, 0x2c] = some ([0x41], [0x2c]) := by
  decide +kernel

theorem decodeJsonString_quoted (text : Text) (rest : List UInt8) :
    decodeJsonString (text.quoted ++ rest) = text.decoded.map (·, rest) := by
  rw [Text.quoted, List.cons_append, List.append_assoc, decodeJsonString, if_pos rfl]
  exact decodeRest_spelled text rest

/-! ## Values -/

/-- The key stands for a text. -/
def keyReadable : (bracket : Bracket) → bracket.Key → Bool
  | .object, text => (Text.decoded text).isSome
  | .array, () => true

mutual

/-- Every string in the value stands for a text. -/
def Doc.readable : Doc → Bool
  | .text text => text.decoded.isSome
  | .number _ | .word _ => true
  | .group _ entries => entries.readable

def Entries.readable {bracket : Bracket} : Entries bracket → Bool
  | .nil => true
  | .cons key value rest => keyReadable bracket key && value.readable && rest.readable

end

/-- The layout on one line does not depend on the depth, and has no blanks. -/
abbrev flat : Layout := ⟨false⟩

theorem skipKey_quoted (text : Text) (rest : List UInt8) :
    skipKey .object (text.quoted ++ colon :: rest)
      = if text.decoded.isSome then some rest else none := by
  rw [skipKey, decodeJsonString_quoted]
  cases text.decoded <;> simp

theorem skipKey_laid {bracket : Bracket} (key : bracket.Key) (rest : List UInt8) :
    skipKey bracket (flat.key bracket key ++ rest)
      = if keyReadable bracket key then some rest else none := by
  cases bracket with
  | array => rfl
  | object =>
      rw [Layout.key, List.append_assoc]
      exact skipKey_quoted key rest

/-- A scalar is followed by what ends it. -/
def Delimited (rest : List UInt8) : Prop := ∃ byte left, rest = byte :: left ∧ endsScalar byte = true

theorem dropScalar {bytes rest : List UInt8} (inner : ∀ byte ∈ bytes, endsScalar byte = false)
    (ends : Delimited rest) : (bytes ++ rest).dropWhile (!endsScalar ·) = rest := by
  obtain ⟨byte, left, rfl, closes⟩ := ends
  rw [List.dropWhile_append_of_pos (by simpa using inner), List.dropWhile_cons_of_neg (by simp [closes])]

theorem digit_inner {byte : UInt8} (digit : isDigit byte = true) : endsScalar byte = false := by
  simp only [isDigit, Bool.and_eq_true, decide_eq_true_eq] at digit
  rw [endsScalar, Bool.or_eq_false_iff, Bool.or_eq_false_iff]
  simp only [beq_eq_false_iff_ne]
  refine ⟨⟨?_, ?_⟩, ?_⟩ <;> rintro rfl <;> revert digit <;> decide

theorem numeral_inner (numeral : Numeral) : ∀ byte ∈ numeral.spelled, endsScalar byte = false := by
  obtain ⟨negative, whole, -, fraction, exponent⟩ := numeral
  intro byte member
  simp only [Numeral.spelled, List.mem_append] at member
  rcases member with ((sign | digit) | point) | mark
  · split at sign
    · rw [List.mem_singleton.1 sign]
      rfl
    · cases sign
  · exact digit_inner (whole.digits byte digit)
  · cases fraction with
    | none => cases point
    | some digits =>
        rcases List.mem_cons.1 point with rfl | digit
        · rfl
        · exact digit_inner (digits.digits byte digit)
  · cases exponent with
    | none => cases mark
    | some e =>
        simp only [Option.elim, Exponent.spelled, List.mem_cons, List.mem_append,
          Option.mem_toList] at mark
        rcases mark with rfl | sign | digit
        · rcases e.marks with same | same <;> rw [same] <;> rfl
        · rcases e.signs byte sign with rfl | rfl <;> rfl
        · exact digit_inner (e.digits.digits byte digit)

theorem word_inner (word : Word) : ∀ byte ∈ word.spelled, endsScalar byte = false := by
  cases word <;> simp [Word.spelled, endsScalar, comma]

example : endsScalar 0x5d = true ∧ endsScalar 0x2d = false := by decide +kernel

theorem numeral_head (numeral : Numeral) {byte : UInt8} {left : List UInt8}
    (begins : numeral.spelled = byte :: left) : byte ≠ quote ∧ byte ≠ 0x7b ∧ byte ≠ 0x5b := by
  cases sign : numeral.negative with
  | true =>
      simp only [Numeral.spelled, sign, if_true, List.append_assoc, List.cons_append,
        List.cons.injEq] at begins
      rw [← begins.1]
      decide
  | false =>
      obtain ⟨first, others, same⟩ := List.exists_cons_of_ne_nil numeral.whole.some
      have digit := numeral.whole.digits first (by simp [same])
      simp only [Numeral.spelled, sign, same, Bool.false_eq_true, if_false, List.nil_append,
        List.cons_append, List.cons.injEq] at begins
      rw [← begins.1]
      simp only [isDigit, Bool.and_eq_true, decide_eq_true_eq] at digit
      refine ⟨?_, ?_, ?_⟩ <;> rintro rfl <;> revert digit <;> decide

theorem word_head (word : Word) {byte : UInt8} {left : List UInt8}
    (split : word.spelled = byte :: left) : byte ≠ quote ∧ byte ≠ 0x7b ∧ byte ≠ 0x5b := by
  cases word <;> cases split <;> decide

theorem numeral_some (numeral : Numeral) : numeral.spelled ≠ [] := by
  intro none
  simp only [Numeral.spelled, List.append_eq_nil_iff] at none
  exact numeral.whole.some none.1.1.2

theorem closes_ne_comma (bracket : Bracket) : bracket.closes ≠ comma := by
  cases bracket <;> decide

theorem closes_delimits (bracket : Bracket) : endsScalar bracket.closes = true := by
  cases bracket <;> rfl

/-- What follows a value delimits it. -/
theorem laid_delimited {bracket : Bracket} (entries : Entries bracket) (k : Nat)
    (rest : List UInt8) : Delimited (entries.laid flat k ++ rest) := by
  cases entries with
  | nil => exact ⟨bracket.closes, rest, rfl, closes_delimits bracket⟩
  | cons key value others => exact ⟨comma, _, rfl, rfl⟩

theorem laid_some (doc : Doc) (k : Nat) : doc.laid flat k ≠ [] := by
  cases doc with
  | text text => simp [Doc.laid, Text.quoted]
  | number numeral => exact numeral_some numeral
  | word word => cases word <;> simp [Doc.laid, Word.spelled]
  | group bracket entries => cases entries <;> simp [Doc.laid]

/-- No key begins with a closing bracket. -/
theorem key_opens {bracket : Bracket} (key : bracket.Key) (value : Doc) (k : Nat)
    (rest : List UInt8) :
    (flat.key bracket key ++ (value.laid flat k ++ rest)).head? ≠ some bracket.closes := by
  cases bracket with
  | object => simp [Layout.key, Text.quoted, Bracket.closes, quote]
  | array =>
      cases value with
      | text text => simp [Layout.key, Doc.laid, Text.quoted, Bracket.closes, quote]
      | number numeral =>
          obtain ⟨byte, left, split⟩ := List.exists_cons_of_ne_nil (numeral_some numeral)
          have inner := numeral_inner numeral byte (by simp [split])
          simp only [Layout.key, Doc.laid, split, List.nil_append, List.cons_append, List.head?_cons,
            Bracket.closes]
          rintro ⟨⟩
          cases inner
      | word word => cases word <;> simp [Layout.key, Doc.laid, Word.spelled, Bracket.closes]
      | group bracket entries =>
          cases bracket <;> cases entries <;> simp [Layout.key, Doc.laid, Bracket.opens, Bracket.closes]

theorem skipScalar {fuel depth : Nat} {bytes rest : List UInt8} (nonempty : bytes ≠ [])
    (inner : ∀ byte ∈ bytes, endsScalar byte = false)
    (head : ∀ byte left, bytes = byte :: left → byte ≠ quote ∧ byte ≠ 0x7b ∧ byte ≠ 0x5b)
    (shallow : depth ≤ kDecoderMaxJsonDepth) (ends : Delimited rest) :
    skipValue (fuel + 1) depth (bytes ++ rest) = some rest := by
  obtain ⟨byte, left, rfl⟩ := List.exists_cons_of_ne_nil nonempty
  obtain ⟨quoted, object, array⟩ := head byte left rfl
  rw [List.cons_append, skipValue, if_neg (Nat.not_lt.2 shallow), if_neg quoted, if_neg object,
    if_neg array, ← List.cons_append, dropScalar inner ends]

-- A number ends before the comma.
example : skipValue 4 0 [0x31, 0x32, 0x2c] = some [0x2c] := by decide +kernel

/-- The value is passed over, if it is readable. -/
def Skipped (doc : Doc) : Prop :=
  ∀ {fuel depth : Nat} (k : Nat) {rest : List UInt8}, (doc.laid flat k).length ≤ fuel →
    depth + doc.depth ≤ kDecoderMaxJsonDepth → Delimited rest →
      skipValue fuel depth (doc.laid flat k ++ rest) = if doc.readable then some rest else none

/-- So are the entries that follow one. -/
def SkippedAfter {bracket : Bracket} (entries : Entries bracket) : Prop :=
  ∀ {fuel depth : Nat} (k : Nat) {rest : List UInt8}, (entries.laid flat k).length ≤ fuel + 1 →
    depth + entries.depth ≤ kDecoderMaxJsonDepth →
      skipAfter bracket (skipEntries fuel bracket depth) (entries.laid flat k ++ rest)
        = if entries.readable then some rest else none

theorem skipEntries_laid {bracket : Bracket} (key : bracket.Key) {value : Doc}
    {others : Entries bracket} (skips : Skipped value) (follows : SkippedAfter others)
    {fuel depth : Nat} (k : Nat) {rest : List UInt8}
    (enough : (value.laid flat (k + 1)).length + (others.laid flat k).length ≤ fuel)
    (shallow : depth + (Entries.cons key value others).depth ≤ kDecoderMaxJsonDepth) :
    skipEntries fuel bracket depth
        (flat.key bracket key ++ (value.laid flat (k + 1) ++ (others.laid flat k ++ rest)))
      = if (Entries.cons key value others).readable then some rest else none := by
  have closes : 0 < (others.laid flat k).length := by cases others <;> simp [Entries.laid]
  obtain ⟨fuel, rfl⟩ : ∃ less, fuel = less + 1 := ⟨fuel - 1, by omega⟩
  have begins : flat.key bracket key ++ (value.laid flat (k + 1) ++ (others.laid flat k ++ rest)) ≠ [] := by
    simp [laid_some]
  rw [Entries.depth] at shallow
  rw [skipEntries, if_neg begins, skipKey_laid, Entries.readable]
  cases keyReadable bracket key with
  | false => rfl
  | true =>
      simp only [if_true, Option.bind_some, Bool.true_and]
      rw [skips (k + 1) (by omega) (by omega) (laid_delimited others k rest)]
      cases value.readable with
      | false => rfl
      | true =>
          simp only [if_true, Option.bind_some, Bool.true_and]
          exact follows k (by omega) (by omega)

theorem skipped_group {bracket : Bracket} {entries : Entries bracket}
    (inside : ∀ key value others, entries = .cons key value others →
      Skipped value ∧ SkippedAfter others) : Skipped (.group bracket entries) := by
  intro fuel depth k rest enough shallow ends
  obtain ⟨fuel, rfl⟩ : ∃ less, fuel = less + 1 := by
    have := List.length_pos_of_ne_nil (laid_some (.group bracket entries) k)
    exact ⟨fuel - 1, by omega⟩
  rw [Doc.depth] at shallow
  have opens (inner : List UInt8) : skipValue (fuel + 1) depth (bracket.opens :: inner)
      = skipGroup bracket (skipEntries fuel bracket depth) inner := by
    rw [skipValue, if_neg (by omega)]
    cases bracket <;> rfl
  cases entries with
  | nil =>
      rw [Doc.laid, List.cons_append, opens]
      simp [skipGroup, Doc.readable, Entries.readable]
  | cons key value others =>
      obtain ⟨skips, follows⟩ := inside key value others rfl
      rw [Doc.laid, List.length_cons, List.length_append, List.length_append] at enough
      rw [Doc.laid, List.cons_append, opens, skipGroup, Layout.newline]
      simp only [Bool.false_eq_true, if_false, List.nil_append, List.append_assoc]
      rw [if_neg (key_opens key value (k + 1) _)]
      exact skipEntries_laid key skips follows k (by omega) shallow

theorem skippedAfter_cons {bracket : Bracket} {key : bracket.Key} {value : Doc}
    {others : Entries bracket} (skips : Skipped value) (follows : SkippedAfter others) :
    SkippedAfter (.cons key value others) := by
  intro fuel depth k rest enough shallow
  rw [Entries.laid, List.length_cons, List.length_append, List.length_append] at enough
  rw [Entries.laid, List.cons_append, skipAfter, if_neg (closes_ne_comma bracket).symm,
    if_pos rfl, Layout.newline]
  simp only [Bool.false_eq_true, if_false, List.nil_append, List.append_assoc]
  exact skipEntries_laid key skips follows k (by omega) shallow

theorem skipped_text (text : Text) : Skipped (.text text) := by
  intro fuel depth k rest enough shallow ends
  obtain ⟨fuel, rfl⟩ : ∃ less, fuel = less + 1 := by
    have := List.length_pos_of_ne_nil (laid_some (.text text) k)
    exact ⟨fuel - 1, by omega⟩
  have reads := decodeJsonString_quoted text rest
  rw [Doc.depth] at shallow
  rw [Doc.laid, Doc.readable]
  rw [Text.quoted, List.cons_append] at reads ⊢
  rw [skipValue, if_neg (by omega), if_pos rfl, reads]
  cases text.decoded <;> rfl

theorem skipped_number (numeral : Numeral) : Skipped (.number numeral) := by
  intro fuel depth k rest enough shallow ends
  obtain ⟨fuel, rfl⟩ : ∃ less, fuel = less + 1 := by
    have := List.length_pos_of_ne_nil (laid_some (.number numeral) k)
    exact ⟨fuel - 1, by omega⟩
  exact skipScalar (numeral_some numeral) (numeral_inner numeral)
    (fun byte left split => numeral_head numeral split) shallow ends

theorem skipped_word (word : Word) : Skipped (.word word) := by
  intro fuel depth k rest enough shallow ends
  obtain ⟨fuel, rfl⟩ : ∃ less, fuel = less + 1 := by
    have := List.length_pos_of_ne_nil (laid_some (.word word) k)
    exact ⟨fuel - 1, by omega⟩
  exact skipScalar (laid_some (.word word) k) (word_inner word)
    (fun byte left split => word_head word split) shallow ends

theorem skippedAfter_nil {bracket : Bracket} : SkippedAfter (.nil : Entries bracket) := by
  intro fuel depth k rest enough shallow
  simp [Entries.laid, Layout.newline, skipAfter, Entries.readable]

mutual

theorem skipped : (doc : Doc) → Skipped doc
  | .text text => skipped_text text
  | .number numeral => skipped_number numeral
  | .word word => skipped_word word
  | .group _ .nil => skipped_group fun _ _ _ impossible => by cases impossible
  | .group _ (.cons _ value others) =>
      skipped_group fun _ _ _ same => by
        cases same
        exact ⟨skipped value, skippedAfter others⟩

theorem skippedAfter {bracket : Bracket} : (entries : Entries bracket) → SkippedAfter entries
  | .nil => skippedAfter_nil
  | .cons _ value others => skippedAfter_cons (skipped value) (skippedAfter others)

end

-- A group is passed over up to its own bracket.
example : skipMinifiedJsonValue [0x5b, 0x5b, 0x5d, 0x5d, 0x2c] = some [0x2c] := by decide +kernel

/-! ## Members -/

abbrev Member := Text × Doc

def Member.readable (member : Member) : Bool := member.1.decoded.isSome && member.2.readable

/-- The member's key stands for the property's name. -/
def Member.named (property : List UInt8) (member : Member) : Bool :=
  member.1.decoded == some property

/-- The members whose keys the look-up comes to: it stops in the first that it cannot read. -/
def reached (members : List Member) : List Member :=
  members.takeWhile Member.readable ++ (members.dropWhile Member.readable).take 1

/-- The members of that name. -/
def namesakes (property : List UInt8) (members : List Member) : Nat :=
  members.countP (Member.named property)

theorem reached_cons (member : Member) (members : List Member) :
    reached (member :: members) = if member.readable then member :: reached members else [member] := by
  cases reads : member.readable <;> simp [reached, reads]

/-- The flags tell how many keys have been found: none, one, or more. -/
structure Counted (found : Property) (count : Nat) : Prop where
  present : found.present = decide (0 < count)
  duplicate : found.duplicate = decide (1 < count)

theorem Counted.see {found : Property} {count : Nat} (counted : Counted found count) (named : Bool) :
    Counted (found.see named) (count + named.toNat) := by
  cases named with
  | false => exact counted
  | true =>
      obtain ⟨present, duplicate⟩ := counted
      constructor
      · simp [Property.see]
      · simp only [Property.see, if_true, present, duplicate, Bool.toNat_true]
        rw [← Bool.decide_or, decide_eq_decide]
        omega

theorem Counted.giveUp {found : Property} {count : Nat} (counted : Counted found count) :
    Counted found.giveUp count := ⟨counted.1, counted.2⟩

/-- Only a string begins with a quote. -/
theorem decodeJsonString_other {doc : Doc} (other : ∀ text, doc ≠ .text text) (k : Nat)
    (rest : List UInt8) : decodeJsonString (doc.laid flat k ++ rest) = none := by
  obtain ⟨byte, left, same⟩ := List.exists_cons_of_ne_nil (laid_some doc k)
  have head : byte ≠ quote := by
    cases doc with
    | text text => exact absurd rfl (other text)
    | number numeral => exact (numeral_head numeral same).1
    | word word => exact (word_head word same).1
    | group bracket entries =>
        cases entries <;> cases bracket <;>
          simp only [Doc.laid, List.cons.injEq, Bracket.opens] at same <;> rw [← same.1] <;> decide
  rw [same, List.cons_append, decodeJsonString, if_neg head]

theorem skipMinified_laid {doc : Doc} (k : Nat) {rest : List UInt8}
    (shallow : doc.depth ≤ kDecoderMaxJsonDepth) (ends : Delimited rest) :
    skipMinifiedJsonValue (doc.laid flat k ++ rest) = if doc.readable then some rest else none :=
  skipped doc k (by rw [List.length_append]; omega) (by omega) ends

section Pass

variable {value : Doc} {rest : List UInt8} (found : Property) (named : Bool) (k : Nat)

theorem pass_readable (shallow : value.depth ≤ kDecoderMaxJsonDepth) (ends : Delimited rest)
    (reads : value.readable = true) :
    ∃ text, found.pass named (value.laid flat k ++ rest) = some ({ found with value := text }, rest) := by
  have skips := skipMinified_laid k shallow ends
  rw [if_pos reads] at skips
  cases named with
  | false => exact ⟨found.value, by simp [Property.pass, skips]⟩
  | true =>
      cases decodes : decodeJsonString (value.laid flat k ++ rest) with
      | none => exact ⟨none, by simp [Property.pass, decodes, skips, Property.giveUp]⟩
      | some read =>
          obtain ⟨text, left⟩ := read
          have same : left = rest := by
            cases value with
            | text t =>
                rw [Doc.laid, decodeJsonString_quoted] at decodes
                obtain ⟨_, -, both⟩ := Option.map_eq_some_iff.1 decodes
                exact (congrArg Prod.snd both).symm
            | number | word | group =>
                rw [decodeJsonString_other (fun _ impossible => by cases impossible)] at decodes
                cases decodes
          exact ⟨some text, by simp [Property.pass, decodes, same]⟩

theorem pass_unreadable (shallow : value.depth ≤ kDecoderMaxJsonDepth) (ends : Delimited rest)
    (reads : value.readable = false) : found.pass named (value.laid flat k ++ rest) = none := by
  have skips := skipMinified_laid k shallow ends
  rw [if_neg (by simp [reads])] at skips
  have decodes : decodeJsonString (value.laid flat k ++ rest) = none := by
    cases value with
    | text t =>
        rw [Doc.readable, Option.isSome_eq_false_iff, Option.isNone_iff_eq_none] at reads
        rw [Doc.laid, decodeJsonString_quoted, reads]
        rfl
    | number | word | group => exact decodeJsonString_other (fun _ same => by cases same) k rest
  cases named <;> simp [Property.pass, decodes, skips]

end Pass

/-- What the look-up has found at its end, when it began with `count` keys found. -/
structure Scanned (property : List UInt8) (members : List Member) (count : Nat)
    (found : Property) : Prop where
  counted : Counted found (count + namesakes property (reached members))
  gaveUp : members.all Member.readable = false → found.value = none

section Turn

variable {property : List UInt8} {key : Text} {value : Doc} {rest : List UInt8} {turns count : Nat}
  {found : Property}

theorem Scanned.giveUp (member : Member) (members : List Member) (reads : member.readable = false)
    (counted : Counted found (count + (member.named property).toNat)) :
    Scanned property (member :: members) count found.giveUp := by
  constructor
  · rw [reached_cons, if_neg (by simp [reads]), namesakes, List.countP_singleton]
    cases named : member.named property <;> rw [named] at counted <;> exact counted.giveUp
  · exact fun _ => rfl

theorem Scanned.cons (member : Member) {members : List Member} (reads : member.readable = true)
    (scanned : Scanned property members (count + (member.named property).toNat) found) :
    Scanned property (member :: members) count found := by
  obtain ⟨counted, gaveUp⟩ := scanned
  constructor
  · rw [reached_cons, if_pos reads, namesakes, List.countP_cons, Nat.add_comm (List.countP _ _),
      ← Nat.add_assoc]
    cases named : member.named property <;> rw [named] at counted <;> exact counted
  · intro unread
    rw [List.all_cons, reads, Bool.true_and] at unread
    exact gaveUp unread

/-- One turn of the loop, on a key that stands for a text. -/
theorem topLevelMembers_turn {text : List UInt8} (decodes : key.decoded = some text) :
    topLevelMembers property (turns + 1) (flat.key .object key ++ rest) found
      = match (found.see (text == property)).pass (text == property) rest with
        | some (found, next :: rest) =>
            if next = 0x7d then found
            else if next = comma then topLevelMembers property turns rest found
            else found.giveUp
        | _ => (found.see (text == property)).giveUp := by
  have reads : decodeJsonString (flat.key .object key ++ rest) = some (text, colon :: rest) := by
    rw [Layout.key, List.append_assoc, decodeJsonString_quoted, decodes]
    rfl
  have long : ¬ (flat.key .object key ++ rest).length ≤ 1 := by
    simp [Layout.key, Text.quoted]
  rw [topLevelMembers, if_neg long, reads]
  rfl

theorem topLevelMembers_stops (decodes : key.decoded = none) :
    topLevelMembers property (turns + 1) (flat.key .object key ++ rest) found = found.giveUp := by
  have reads : decodeJsonString (flat.key .object key ++ rest) = none := by
    rw [Layout.key, List.append_assoc, decodeJsonString_quoted, decodes]
    rfl
  rw [topLevelMembers, reads]
  split <;> rfl

end Turn

/-- The entries after the first end with the bracket. -/
theorem last_closes {bracket : Bracket} (before : List UInt8) (byte : UInt8) :
    (entries : Entries bracket) → (k : Nat) →
      (byte :: (before ++ entries.laid flat k)).getLast? = some bracket.closes
  | .nil, k => by
      rw [Entries.laid, Layout.newline, if_neg (by decide), List.nil_append, ← List.cons_append,
        List.getLast?_concat]
  | .cons key value others, k => by
      have later := last_closes (before ++ comma :: (flat.key bracket key ++ value.laid flat (k + 1)))
        byte others k
      simpa [Entries.laid, Layout.newline] using later

theorem topLevelMembers_scans (property : List UInt8) (key : Text) (value : Doc) :
    (others : Entries .object) → {turns count : Nat} → {found : Property} →
    (flat.key .object key ++ (value.laid flat 1 ++ others.laid flat 0)).length ≤ turns →
    max (value.depth + 1) others.depth ≤ kDecoderMaxJsonDepth → Counted found count →
    Scanned property ((key, value) :: others.members) count
      (topLevelMembers property turns
        (flat.key .object key ++ (value.laid flat 1 ++ others.laid flat 0)) found) := by
  intro others turns count found enough shallow counted
  obtain ⟨turns, rfl⟩ : ∃ less, turns = less + 1 := by
    refine ⟨turns - 1, ?_⟩
    simp only [Layout.key, Text.quoted, List.cons_append, List.length_cons] at enough
    omega
  cases decodes : key.decoded with
  | none =>
      rw [topLevelMembers_stops decodes]
      exact .giveUp (key, value) others.members (by simp [Member.readable, decodes])
        (by simpa [Member.named, decodes] using counted)
  | some text =>
      rw [topLevelMembers_turn decodes]
      have seen : Counted (found.see (text == property))
          (count + (Member.named property (key, value)).toNat) := by
        simpa [Member.named, decodes] using counted.see (text == property)
      have ends : Delimited (others.laid flat 0) := by simpa using laid_delimited others 0 []
      have fits : value.depth ≤ kDecoderMaxJsonDepth := by omega
      cases reads : value.readable with
      | false =>
          rw [pass_unreadable _ _ 1 fits ends reads]
          exact .giveUp (key, value) others.members (by simp [Member.readable, reads]) seen
      | true =>
          obtain ⟨content, passes⟩ := pass_readable (found.see (text == property))
            (text == property) 1 fits ends reads
          have counted : Counted { found.see (text == property) with value := content }
              (count + (Member.named property (key, value)).toNat) := ⟨seen.1, seen.2⟩
          rw [passes]
          apply Scanned.cons (key, value) (by simp [Member.readable, decodes, reads])
          match others with
          | .nil =>
              rw [Entries.members]
              exact ⟨counted, fun impossible => by cases impossible⟩
          | .cons next follower others =>
              rw [Entries.depth] at shallow
              simp only [Entries.members, Entries.laid, Layout.newline, Bool.false_eq_true, if_false,
                List.nil_append, Nat.zero_add, if_neg (show ¬ comma = 0x7d by decide), if_true, List.append_assoc]
              refine topLevelMembers_scans property next follower others ?_ (by omega) counted
              simp only [Entries.laid, Layout.newline, Bool.false_eq_true, if_false, Nat.zero_add,
                List.nil_append, List.append_assoc, List.length_append, List.length_cons] at enough ⊢
              omega

/-- Of an object that has been minified, the look-up comes to the keys of `reached`. -/
theorem topLevelStringProperty_scans (property : List UInt8) (entries : Entries .object)
    (shallow : entries.depth ≤ kDecoderMaxJsonDepth) :
    Scanned property entries.members 0
      (topLevelStringProperty (Doc.group .object entries).minified property) := by
  cases entries with
  | nil =>
      rw [Entries.members]
      exact ⟨⟨rfl, rfl⟩, fun impossible => by cases impossible⟩
  | cons key value others =>
      have laid : (Doc.group .object (.cons key value others)).minified
          = 0x7b :: (flat.key .object key ++ (value.laid flat 1 ++ others.laid flat 0)) := by
        simp [Doc.minified, Doc.laid, Layout.newline, Bracket.opens]
      have closes := last_closes (flat.key .object key ++ value.laid flat 1) (Bracket.opens .object)
        others 0
      rw [List.append_assoc] at closes
      rw [laid, topLevelStringProperty, Entries.members, if_neg, if_neg]
      · exact topLevelMembers_scans property key value others (by simp) shallow ⟨rfl, rfl⟩
      · exact key_opens key value 0 (others.laid flat 0)
      · rw [show (0x7b : UInt8) = Bracket.opens .object from rfl, closes]
        simp [laid_some, Bracket.closes]

end Reb.Analysis
