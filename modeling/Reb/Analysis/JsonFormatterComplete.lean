/-
# Analysis.JsonFormatterComplete -- what the formatter has to accept

A text that spells a value within the bounds is accepted, and the layout written is
the value's (`run_complete`).  A scanner is only good for this when it stops where the
token does, so what follows a number has to be something that cannot continue it
(`Ends`).
-/
import Reb.Analysis.JsonFormatterSound

namespace Reb.Analysis.JsonFormatter

open Theory.Fallible

set_option autoImplicit false

/-! ## Steps -/

/-- The cursor after what has been written and counted, with `rest` left. -/
def Cursor.go (c : Cursor) (rest written : List UInt8) (tokens : Nat) : Cursor :=
  { rest, tokens := c.tokens + tokens, output := c.output ++ written }

@[simp] theorem Cursor.go_go (c : Cursor) (rest written rest' written' : List UInt8)
    (tokens tokens' : Nat) :
    (c.go rest written tokens).go rest' written' tokens'
      = c.go rest' (written ++ written') (tokens + tokens') := by
  simp [Cursor.go, Nat.add_assoc]

/-- There is room for so many bytes and tokens more. -/
structure Room (f : Settings) (c : Cursor) (size tokens : Nat) : Prop where
  fits : c.output.length + size ≤ f.outputLimit
  counts : c.tokens + tokens ≤ kDecoderMaxJsonTokens

section Steps

variable {f : Settings} {c : Cursor} {size tokens : Nat}

theorem Room.less {size' tokens' : Nat} (room : Room f c size tokens) (smaller : size' ≤ size)
    (fewer : tokens' ≤ tokens) : Room f c size' tokens' := by
  obtain ⟨fits, counts⟩ := room
  constructor <;> omega

theorem Room.go {written : List UInt8} {used : Nat} (rest : List UInt8)
    (room : Room f c (written.length + size) (used + tokens)) :
    Room f (c.go rest written used) size tokens := by
  obtain ⟨fits, counts⟩ := room
  constructor
  · simp only [Cursor.go, List.length_append]
    omega
  · simp only [Cursor.go]
    omega

theorem appendByte_go (byte : UInt8) (rest : List UInt8) (room : Room f c 1 0) :
    appendByte f byte { c with rest } = .ok (c.go rest [byte] 0) := by
  have fits := room.fits
  exact appendByte_eq_ok.2 ⟨by simpa using fits, rfl⟩

theorem append_go {text : List UInt8} (rest : List UInt8) (room : Room f c text.length 0) :
    append f text { c with rest } = .ok (c.go rest text 0) := by
  have fits := room.fits
  exact append_eq_ok.2 ⟨by simp only; omega, rfl⟩

theorem token_go (rest : List UInt8) (room : Room f c size 1) :
    token { c with rest } = .ok (c.go rest [] 1) := by
  have counts := room.counts
  exact token_eq_ok.2 ⟨by simp only; omega, by simp [Cursor.go]⟩

theorem newlineAndIndent_go {depth : Nat} (rest : List UInt8)
    (room : Room f c (f.newline depth).length 0) :
    newlineAndIndent f depth { c with rest } = .ok (c.go rest (f.newline depth) 0) := by
  rw [newlineAndIndent]
  cases pretty : f.pretty with
  | false => simp [Layout.newline, pretty, Cursor.go]
  | true =>
      have room := room
      simp only [Layout.newline, pretty, if_true, List.length_cons, List.length_replicate] at room ⊢
      rw [if_neg (by simp), appendByte_go 0x0a rest (room.less (by omega) (by omega)), ok_bind]
      have indents : Room f (c.go rest [0x0a] 0) (List.replicate (depth * 2) (0x20 : UInt8)).length 0 := by
        apply Room.go rest
        simpa [Nat.add_comm] using room
      have fits := indents.fits
      rw [List.length_replicate] at fits
      rw [if_neg (by omega)]
      calc append f (List.replicate (depth * 2) 0x20) (c.go rest [0x0a] 0)
          = .ok ((c.go rest [0x0a] 0).go rest (List.replicate (depth * 2) 0x20) 0) :=
            append_go rest indents
        _ = _ := by rw [Cursor.go_go]; rfl

/-- What is not a blank begins the text. -/
def Dark (bytes : List UInt8) : Prop := ∀ byte ∈ bytes.head?, isBlank byte = false

theorem blank_nil : Blank [] := by
  intro byte impossible
  cases impossible

theorem skipWhitespace_go {blanks : List UInt8} (rest : List UInt8) (blank : Blank blanks)
    (dark : Dark rest) : skipWhitespace { c with rest := blanks ++ rest } = { c with rest } := by
  rw [skipWhitespace, List.dropWhile_append_of_pos blank]
  cases rest with
  | nil => rfl
  | cons byte rest => rw [List.dropWhile_cons_of_neg (by simp [dark byte rfl])]

end Steps

/-! ## Strings -/

theorem scanString_spelled (text : Text) (rest : List UInt8) :
    scanString (text.spelled ++ quote :: rest) = .ok (text.spelled ++ [quote], rest) := by
  have escape : ¬ backslash = quote ∧ ¬ backslash < 0x20 := by decide
  induction text with
  | nil =>
      unfold scanString
      simp [Text.spelled]
  | cons piece text ih =>
      unfold Text.spelled at ih
      cases piece with
      | plain byte ordinary =>
          simp only [Text.spelled, List.flatMap_cons, Piece.spelled, List.cons_append, List.nil_append]
          unfold scanString
          rw [if_neg ordinary.2.1, if_neg (UInt8.not_lt.2 ordinary.1), if_pos ordinary.2.2, ih]
          rfl
      | escape byte simple =>
          simp only [Text.spelled, List.flatMap_cons, Piece.spelled, List.cons_append, List.nil_append]
          unfold scanString
          simp only [if_neg escape.1, if_neg escape.2, ne_eq, not_true, if_false, if_pos simple, ih]
          rfl
      | unit a b c d =>
          have complex : ¬ (0x75 : UInt8) ∈ simpleEscapes := by decide
          simp only [Text.spelled, List.flatMap_cons, Piece.spelled, List.cons_append, List.nil_append]
          unfold scanString
          simp only [if_neg escape.1, if_neg escape.2, ne_eq, not_true, if_false, if_neg complex,
            a.2, b.2, c.2, d.2, Bool.and_self, if_true, ih]
          rfl

theorem parseString_go {f : Settings} {c : Cursor} (text : Text) (rest : List UInt8)
    (room : Room f c text.quoted.length 0) :
    parseString f { c with rest := text.quoted ++ rest } = .ok (c.go rest text.quoted 0) := by
  have scans : scanString (text.quoted ++ rest).tail = .ok (text.spelled ++ [quote], rest) := by
    simpa [Text.quoted] using scanString_spelled text rest
  have written : (text.quoted ++ rest).take 1 ++ (text.spelled ++ [quote]) = text.quoted := by
    simp [Text.quoted]
  simp only [parseString, scans, ok_bind, written]
  exact append_go rest room

/-! ## Numbers -/

/-- What may stand after the first byte of a number. -/
def continues (byte : UInt8) : Bool := isDigit byte || byte == 0x2e || byte == 0x65 || byte == 0x45

/-- What follows does not go on with a number. -/
def Ends (rest : List UInt8) : Prop := ∀ byte ∈ rest.head?, continues byte = false

theorem continues_eq_false {byte : UInt8} :
    continues byte = false ↔ isDigit byte = false ∧ byte ≠ 0x2e ∧ byte ≠ 0x65 ∧ byte ≠ 0x45 := by
  simp [continues, and_assoc]

/-- The digits stop where something else begins. -/
theorem takeDigits_stops {digits rest : List UInt8} (all : ∀ byte ∈ digits, isDigit byte = true)
    (stops : ∀ byte ∈ rest.head?, isDigit byte = false) :
    takeDigits (digits ++ rest) = (digits, rest) := by
  rw [takeDigits, List.takeWhile_append_of_pos all, List.dropWhile_append_of_pos all]
  cases rest with
  | nil => simp
  | cons byte rest => simp [stops byte rfl]

theorem digit_signs {byte : UInt8} (digit : isDigit byte = true) : byte ≠ 0x2b ∧ byte ≠ 0x2d := by
  constructor <;> rintro rfl <;> cases digit

theorem scanExponent_spelled (exponent : Option Exponent) {rest : List UInt8} (ends : Ends rest) :
    scanExponent (exponent.elim [] Exponent.spelled ++ rest)
      = .ok (exponent.elim [] Exponent.spelled, rest) := by
  cases exponent with
  | none =>
      cases rest with
      | nil => rfl
      | cons byte rest =>
          have other := continues_eq_false.1 (ends byte rfl)
          rw [Option.elim, List.nil_append, scanExponent, if_neg (by simp [other.2.2])]
  | some e =>
      obtain ⟨mark, marks, sign, signs, ⟨digits, some, all⟩⟩ := e
      have takes : takeDigits (digits ++ rest) = (digits, rest) :=
        takeDigits_stops all fun byte member => (continues_eq_false.1 (ends byte member)).1
      have signed : takeSign [0x2b, 0x2d] (sign.toList ++ (digits ++ rest))
          = (sign.toList, digits ++ rest) := by
        cases sign with
        | some byte =>
            rw [Option.toList_some, List.singleton_append, takeSign, if_pos (by simpa using signs byte rfl)]
        | none =>
            obtain ⟨byte, others, rfl⟩ := List.exists_cons_of_ne_nil some
            have plain := digit_signs (all byte (by simp))
            rw [Option.toList_none, List.nil_append, List.cons_append, takeSign,
              if_neg (by simp [plain.1, plain.2])]
      simp only [Option.elim, Exponent.spelled, List.cons_append, List.append_assoc, scanExponent,
        if_pos marks, signed, takes, if_neg some]

theorem exponent_head (exponent : Option Exponent) {rest : List UInt8} (ends : Ends rest) :
    ∀ byte ∈ (exponent.elim [] Exponent.spelled ++ rest).head?, isDigit byte = false ∧ byte ≠ 0x2e := by
  intro byte member
  cases exponent with
  | none =>
      obtain ⟨digit, point, -⟩ := continues_eq_false.1 (ends byte member)
      exact ⟨digit, point⟩
  | some e =>
      have same : e.mark = byte := by simpa [Exponent.spelled] using member
      rcases e.marks with mark | mark <;> rw [← same, mark] <;> decide

theorem scanFraction_spelled (fraction : Option Digits) {rest : List UInt8}
    (head : ∀ byte ∈ rest.head?, isDigit byte = false ∧ byte ≠ 0x2e) :
    scanFraction (fractionSpelled fraction ++ rest) = .ok (fractionSpelled fraction, rest) := by
  cases fraction with
  | none =>
      cases rest with
      | nil => rfl
      | cons byte rest =>
          rw [fractionSpelled, Option.elim, List.nil_append, scanFraction, if_neg (head byte rfl).2]
  | some digits =>
      have takes : takeDigits (digits.bytes ++ rest) = (digits.bytes, rest) :=
        takeDigits_stops digits.digits fun byte member => (head byte member).1
      simp only [fractionSpelled, Option.elim, List.cons_append, scanFraction, if_true, takes,
        if_neg digits.some]

theorem fraction_head (fraction : Option Digits) {rest : List UInt8}
    (head : ∀ byte ∈ rest.head?, isDigit byte = false ∧ byte ≠ 0x2e) :
    ∀ byte ∈ (fractionSpelled fraction ++ rest).head?, isDigit byte = false := by
  intro byte member
  cases fraction with
  | none => exact (head byte member).1
  | some digits =>
      have same : 0x2e = byte := by simpa [fractionSpelled] using member
      rw [← same]
      decide

theorem digit_range {byte : UInt8} (digit : isDigit byte = true) (nonzero : byte ≠ 0x30) :
    0x31 ≤ byte ∧ byte ≤ 0x39 := by
  simp only [isDigit, Bool.and_eq_true, decide_eq_true_eq, UInt8.le_iff_toNat_le] at digit ⊢
  have apart : byte.toNat ≠ 0x30 := fun same => nonzero (UInt8.toNat_inj.1 same)
  have least : (0x30 : UInt8).toNat = 0x30 := rfl
  have next : (0x31 : UInt8).toNat = 0x31 := rfl
  omega

theorem scanWhole_spelled (numeral : Numeral) {rest : List UInt8}
    (head : ∀ byte ∈ rest.head?, isDigit byte = false) :
    scanWhole (numeral.whole.bytes ++ rest) = .ok (numeral.whole.bytes, rest) := by
  obtain ⟨negative, ⟨digits, some, all⟩, canonical, fraction, exponent⟩ := numeral
  have takes := takeDigits_stops all head
  obtain ⟨byte, others, rfl⟩ := List.exists_cons_of_ne_nil some
  by_cases zero : byte = 0x30
  · subst zero
    obtain rfl : others = [] := (List.cons.inj (canonical rfl)).2
    rw [List.cons_append, List.nil_append, scanWhole, if_pos rfl, if_neg]
    cases rest with
    | nil => simp
    | cons byte rest => simp [head byte rfl]
  · rw [List.cons_append] at takes
    rw [List.cons_append, scanWhole, if_neg zero, if_pos (digit_range (all byte (by simp)) zero), takes]

theorem scanNumber_spelled (numeral : Numeral) {rest : List UInt8} (ends : Ends rest) :
    scanNumber (numeral.spelled ++ rest) = .ok (numeral.spelled, rest) := by
  have first := exponent_head numeral.exponent ends
  have whole := scanWhole_spelled numeral (fraction_head numeral.fraction first)
  have signed : takeSign [0x2d] (numeral.spelled ++ rest)
      = (if numeral.negative then [0x2d] else [], numeral.whole.bytes
          ++ (fractionSpelled numeral.fraction ++ (numeral.exponent.elim [] Exponent.spelled ++ rest))) := by
    cases sign : numeral.negative with
    | true => simp [Numeral.spelled, sign, takeSign]
    | false =>
        obtain ⟨byte, others, same⟩ := List.exists_cons_of_ne_nil numeral.whole.some
        have plain := (digit_signs (numeral.whole.digits byte (by simp [same]))).2
        simp [Numeral.spelled, sign, takeSign, same, plain]
  simp only [scanNumber, signed, whole, ok_bind, scanFraction_spelled numeral.fraction first,
    scanExponent_spelled numeral.exponent ends]
  rfl

theorem parseNumber_go {f : Settings} {c : Cursor} (numeral : Numeral)
    {rest : List UInt8} (ends : Ends rest) (room : Room f c numeral.spelled.length 0) :
    parseNumber f { c with rest := numeral.spelled ++ rest } = .ok (c.go rest numeral.spelled 0) := by
  simp only [parseNumber, scanNumber_spelled numeral ends, ok_bind]
  exact append_go rest room

theorem parseLiteral_go {f : Settings} {c : Cursor} {literal : List UInt8}
    (rest : List UInt8) (room : Room f c literal.length 0) :
    parseLiteral f literal { c with rest := literal ++ rest } = .ok (c.go rest literal 0) := by
  rw [parseLiteral, if_neg (by simp)]
  simp only [List.drop_left]
  exact append_go rest room

/-! ## Keys -/

theorem dark_quoted (text : Text) (rest : List UInt8) : Dark (text.quoted ++ rest) := by
  intro byte member
  have same : quote = byte := by simpa [Text.quoted] using member
  rw [← same]
  rfl

theorem parseColon_go {f : Settings} {c : Cursor} (rest : List UInt8)
    (room : Room f c f.separator.length 0) :
    parseColon f { c with rest := colon :: rest } = .ok (c.go rest f.separator 0) := by
  rw [parseColon]
  simp only [ne_eq, not_true, if_false]
  exact append_go rest room

theorem parseKey_go {f : Settings} {c : Cursor} {bracket : Bracket} {key : bracket.Key}
    {first : List UInt8} (names : SpellsKey bracket key first) (rest : List UInt8)
    (room : Room f c (f.key bracket key).length bracket.keyTokens) :
    parseKey f bracket { c with rest := first ++ rest }
      = .ok (c.go rest (f.key bracket key) bracket.keyTokens) := by
  cases names with
  | array => simp [parseKey, Layout.key, Bracket.keyTokens, Cursor.go]
  | @object text before after first second =>
      simp only [Layout.key, List.length_append, Bracket.keyTokens] at room
      have skips : skipWhitespace
          { c with rest := before ++ (text.quoted ++ (after ++ [colon])) ++ rest }
            = { c with rest := text.quoted ++ (after ++ colon :: rest) } := by
        have dark := dark_quoted text (after ++ colon :: rest)
        simpa using skipWhitespace_go (c := c) _ first dark
      have head : (text.quoted ++ (after ++ colon :: rest)).head? = some quote := by
        simp [Text.quoted]
      have counted := token_go (text.quoted ++ (after ++ colon :: rest))
        (room.less (Nat.zero_le _) le_rfl)
      have written := parseString_go (c := c.go (text.quoted ++ (after ++ colon :: rest)) [] 1)
        text (after ++ colon :: rest)
        (Room.go _ (room.less (by simp) (by simp)))
      have dark : Dark (colon :: rest) := fun byte member => by cases member; rfl
      have skips' := skipWhitespace_go (c := c.go (after ++ colon :: rest) text.quoted 1)
        (colon :: rest) second dark
      have named := parseColon_go (f := f) (c := c.go (colon :: rest) text.quoted 1)
        rest (Room.go _ room)
      rw [parseKey, skips]
      simp only [head, ne_eq, not_true, if_false]
      rw [counted, ok_bind]
      calc _ = (parseString f { c.go (text.quoted ++ (after ++ colon :: rest)) [] 1 with
                rest := text.quoted ++ (after ++ colon :: rest) } >>= fun c =>
                  parseColon f (skipWhitespace c)) := rfl
        _ = parseColon f (skipWhitespace (c.go (after ++ colon :: rest) text.quoted 1)) := by
            rw [written, ok_bind, Cursor.go_go]
            rfl
        _ = parseColon f (c.go (colon :: rest) text.quoted 1) := congrArg (parseColon f) skips'
        _ = .ok (c.go rest (f.key .object text) 1) := by
            rw [show c.go (colon :: rest) text.quoted 1
              = { c.go (colon :: rest) text.quoted 1 with rest := colon :: rest } from rfl, named,
              Cursor.go_go]
            rfl

/-! ## Values -/

/-- A text starts with a byte that is neither a blank nor a closing bracket. -/
def Starts (bytes : List UInt8) : Prop :=
  ∃ byte left, bytes = byte :: left ∧ isBlank byte = false ∧ byte ≠ 0x7d ∧ byte ≠ 0x5d

theorem Starts.dark {bytes : List UInt8} (starts : Starts bytes) (rest : List UInt8) :
    Dark (bytes ++ rest) := by
  obtain ⟨byte, left, rfl, dark, -⟩ := starts
  rintro other ⟨⟩
  exact dark

theorem numeral_starts (numeral : Numeral) : ∃ byte left, numeral.spelled = byte :: left
    ∧ (byte = 0x2d ∨ isDigit byte = true) := by
  cases sign : numeral.negative with
  | true =>
      refine ⟨0x2d, numeral.spelled.tail, ?_, .inl rfl⟩
      rw [Numeral.spelled, sign, if_pos rfl]
      rfl
  | false =>
      obtain ⟨byte, others, same⟩ := List.exists_cons_of_ne_nil numeral.whole.some
      refine ⟨byte, numeral.spelled.tail, ?_, .inr (numeral.whole.digits byte (by simp [same]))⟩
      rw [Numeral.spelled, sign, if_neg (by decide), same]
      rfl

/-- A sign or a digit is none of the bytes that begin another value. -/
theorem number_apart {byte : UInt8} (head : byte = 0x2d ∨ isDigit byte = true) :
    isBlank byte = false ∧ byte ≠ 0x7d ∧ byte ≠ 0x5d ∧ byte ≠ 0x7b ∧ byte ≠ 0x5b ∧ byte ≠ quote
      ∧ byte ≠ 0x74 ∧ byte ≠ 0x66 ∧ byte ≠ 0x6e := by
  rcases head with rfl | digit
  · decide
  · refine ⟨?_, ?_, ?_, ?_, ?_, ?_, ?_, ?_, ?_⟩
    · simp only [isBlank, Bool.or_eq_false_iff, beq_eq_false_iff_ne]
      refine ⟨⟨⟨?_, ?_⟩, ?_⟩, ?_⟩ <;> rintro rfl <;> cases digit
    all_goals
      rintro rfl
      cases digit

theorem spells_starts {doc : Doc} {bytes : List UInt8} (spells : Spells doc bytes) : Starts bytes := by
  cases spells with
  | text text => exact ⟨quote, _, rfl, by decide⟩
  | number numeral =>
      obtain ⟨byte, left, same, head⟩ := numeral_starts numeral
      obtain ⟨dark, object, array, -⟩ := number_apart head
      exact ⟨byte, left, same, dark, object, array⟩
  | word word => cases word <;> exact ⟨_, _, rfl, by decide⟩
  | @empty bracket | @group bracket => cases bracket <;> exact ⟨_, _, rfl, by decide⟩

theorem spells_pos {doc : Doc} {bytes : List UInt8} (spells : Spells doc bytes) :
    0 < bytes.length := by
  obtain ⟨byte, left, rfl, -⟩ := spells_starts spells
  simp

theorem spellsRest_pos {bracket : Bracket} {entries : Entries bracket} {bytes : List UInt8}
    (spells : SpellsRest entries bytes) : 0 < bytes.length := by
  cases spells <;> simp

/-- What follows an entry does not go on with a number. -/
theorem spellsRest_ends {bracket : Bracket} {entries : Entries bracket} {bytes : List UInt8}
    (spells : SpellsRest entries bytes) (rest : List UInt8) : Ends (bytes ++ rest) := by
  have blanks_end {blanks left : List UInt8} {byte : UInt8} (blank : Blank blanks)
      (other : continues byte = false) : Ends (blanks ++ byte :: left) := by
    intro first member
    cases blanks with
    | nil => cases member; exact other
    | cons _ blanks =>
        cases member
        have white := blank first (by simp)
        simp only [isBlank, Bool.or_eq_true, beq_iff_eq] at white
        rcases white with ((rfl | rfl) | rfl) | rfl <;> decide
  cases spells with
  | close blank =>
      rw [List.append_assoc]
      cases bracket <;> exact blanks_end blank (by decide)
  | more blank names blank' spells follows =>
      rw [List.append_assoc]
      exact blanks_end blank (by decide)

section Values

variable {f : Settings}

/-- Every spelling of the value is accepted, wherever it stands. -/
def Parses (f : Settings) (doc : Doc) : Prop :=
  ∀ {bytes : List UInt8}, Spells doc bytes → ∀ {fuel depth : Nat} {c : Cursor}
    {blanks rest : List UInt8}, Blank blanks → bytes.length ≤ fuel →
      depth + doc.depth ≤ kDecoderMaxJsonDepth → Ends rest →
      Room f c (doc.laid f.toLayout depth).length doc.tokens →
        parseValue f fuel depth { c with rest := blanks ++ (bytes ++ rest) }
          = .ok (c.go rest (doc.laid f.toLayout depth) doc.tokens)

/-- So is every spelling of what follows an entry. -/
def ParsesAfter (f : Settings) {bracket : Bracket} (entries : Entries bracket) : Prop :=
  ∀ {bytes : List UInt8}, SpellsRest entries bytes → ∀ {fuel depth : Nat} {c : Cursor}
    (rest : List UInt8), bytes.length ≤ fuel + 1 → depth + entries.depth ≤ kDecoderMaxJsonDepth →
      Room f c (entries.laid f.toLayout depth).length entries.tokens →
        parseAfter f bracket depth (parseEntries f fuel bracket depth false)
            (skipWhitespace { c with rest := bytes ++ rest })
          = .ok (c.go rest (entries.laid f.toLayout depth) entries.tokens)

/-- The dispatch on the first byte of a value. -/
theorem parseValue_token {fuel depth : Nat} {c : Cursor} {blanks left rest : List UInt8}
    {byte : UInt8} (blank : Blank blanks) (dark : isBlank byte = false)
    (shallow : depth ≤ kDecoderMaxJsonDepth) {size : Nat} (room : Room f c size 1) :
    parseValue f (fuel + 1) depth { c with rest := blanks ++ (byte :: left ++ rest) }
      = parseToken f (fun bracket => parseGroup f bracket (parseEntries f fuel bracket depth true))
          byte (c.go (byte :: left ++ rest) [] 1) := by
  have skips := skipWhitespace_go (c := c) (byte :: left ++ rest) blank
    (by rintro other ⟨⟩; exact dark)
  rw [parseValue, if_neg (Nat.not_lt.2 shallow), skips]
  simp only [List.cons_append]
  rw [token_go _ room, ok_bind]

theorem parses_text (text : Text) : Parses f (.text text) := by
  intro bytes spells fuel depth c blanks rest blank enough shallow ends room
  have long := spells_pos spells
  obtain ⟨fuel, rfl⟩ : ∃ less, fuel = less + 1 := ⟨fuel - 1, by omega⟩
  cases spells
  rw [Doc.laid, Doc.tokens] at *
  have step := parseString_go (c := c.go (text.quoted ++ rest) [] 1) text rest
    (Room.go _ (room.less (by simp) (by simp)))
  rw [Text.quoted, parseValue_token blank (by decide) (Nat.le_of_add_right_le shallow)
    (room.less (Nat.zero_le _) le_rfl)]
  rw [parseToken, if_neg (by decide), if_neg (by decide), if_pos rfl]
  exact step.trans (by rw [Cursor.go_go]; rfl)

theorem parses_number (numeral : Numeral) : Parses f (.number numeral) := by
  intro bytes spells fuel depth c blanks rest blank enough shallow ends room
  have long := spells_pos spells
  obtain ⟨fuel, rfl⟩ : ∃ less, fuel = less + 1 := ⟨fuel - 1, by omega⟩
  cases spells
  rw [Doc.laid, Doc.tokens] at *
  obtain ⟨byte, left, same, head⟩ := numeral_starts numeral
  obtain ⟨dark, -, -, object, array, quoted, yes, no, null⟩ := number_apart head
  have step := parseNumber_go (c := c.go (numeral.spelled ++ rest) [] 1) numeral ends
    (Room.go _ (room.less (by simp) (by simp)))
  rw [same, parseValue_token blank dark (Nat.le_of_add_right_le shallow)
    (room.less (Nat.zero_le _) le_rfl)]
  rw [parseToken, if_neg object, if_neg array, if_neg quoted, if_neg yes, if_neg no, if_neg null, ← same]
  exact step.trans (by rw [Cursor.go_go]; rfl)

theorem parses_word (word : Word) : Parses f (.word word) := by
  intro bytes spells fuel depth c blanks rest blank enough shallow ends room
  have long := spells_pos spells
  obtain ⟨fuel, rfl⟩ : ∃ less, fuel = less + 1 := ⟨fuel - 1, by omega⟩
  cases spells
  rw [Doc.laid, Doc.tokens] at *
  have step := @parseLiteral_go f (c.go (word.spelled ++ rest) [] 1) word.spelled
    rest (Room.go _ (room.less (by simp) (by simp)))
  have dispatch : parseValue f (fuel + 1) depth { c with rest := blanks ++ (word.spelled ++ rest) }
      = parseLiteral f word.spelled (c.go (word.spelled ++ rest) [] 1) := by
    cases word <;>
      exact parseValue_token blank (by decide) (Nat.le_of_add_right_le shallow)
        (room.less (Nat.zero_le _) le_rfl)
  rw [dispatch]
  exact step.trans (by rw [Cursor.go_go]; rfl)

/-! ## Groups -/

/-- What is left of an entry once the blanks before it are passed over. -/
theorem skip_opened {bracket : Bracket} {key : bracket.Key} {value : Doc} {c : Cursor}
    {first blanks middle : List UInt8} (names : SpellsKey bracket key first) (blank : Blank blanks)
    (spells : Spells value middle) (tail : List UInt8) :
    ∃ first' blanks', SpellsKey bracket key first' ∧ Blank blanks' ∧ Starts (first' ++ (blanks' ++ middle))
      ∧ skipWhitespace { c with rest := first ++ (blanks ++ (middle ++ tail)) }
        = { c with rest := first' ++ (blanks' ++ (middle ++ tail)) } := by
  cases names with
  | array =>
      refine ⟨[], [], .array, blank_nil, spells_starts spells, ?_⟩
      exact skipWhitespace_go (middle ++ tail) blank ((spells_starts spells).dark tail)
  | @object text before after early late =>
      refine ⟨[] ++ (text.quoted ++ (after ++ [colon])), blanks,
        .object blank_nil late, blank, ?_, ?_⟩
      · exact ⟨quote, _, rfl, by decide⟩
      · simp only [List.append_assoc, List.nil_append]
        exact skipWhitespace_go _ early (dark_quoted text _)

/-- One turn of the loop over the entries. -/
theorem parseEntries_go {bracket : Bracket} {key : bracket.Key} {value : Doc}
    {others : Entries bracket} (parses : Parses f value) (follows : ParsesAfter f others)
    {first blanks middle last : List UInt8} (names : SpellsKey bracket key first)
    (blank : Blank blanks) (spells : Spells value middle) (spells' : SpellsRest others last)
    {fuel depth : Nat} {c : Cursor} (head : Bool) (rest : List UInt8)
    (enough : middle.length + last.length ≤ fuel + 1)
    (shallow : depth + (Entries.cons key value others).depth ≤ kDecoderMaxJsonDepth)
    {written : List UInt8} (same : written = (if head then [] else [comma])
      ++ (f.newline (depth + 1) ++ (f.key bracket key
        ++ (value.laid f.toLayout (depth + 1) ++ others.laid f.toLayout depth))))
    (room : Room f c written.length (Entries.cons key value others).tokens) :
    parseEntries f (fuel + 1) bracket depth head
        { c with rest := first ++ (blanks ++ (middle ++ (last ++ rest))) }
      = .ok (c.go rest written (Entries.cons key value others).tokens) := by
  subst same
  have long := spells_pos spells
  have long' := spellsRest_pos spells'
  simp only [List.length_append, Entries.tokens, Entries.depth] at room shallow ⊢
  generalize text : first ++ (blanks ++ (middle ++ (last ++ rest))) = whole
  generalize mark : (if head then [] else [comma]) = comma' at room ⊢
  have separated : separate f head { c with rest := whole } = .ok (c.go whole comma' 0) := by
    cases head with
    | true => simp [separate, ← mark, Cursor.go]
    | false =>
        rw [separate, if_neg (by decide), ← mark]
        exact appendByte_go comma whole (room.less (by simp [← mark]) (Nat.zero_le _))
  have indented : newlineAndIndent f (depth + 1) (c.go whole comma' 0)
      = .ok (c.go whole (comma' ++ f.newline (depth + 1)) 0) :=
    (newlineAndIndent_go whole (Room.go whole (room.less (by omega) (by omega)))).trans
      (by rw [Cursor.go_go])
  generalize before : comma' ++ f.newline (depth + 1) = written at indented
  have size : written.length = comma'.length + (f.newline (depth + 1)).length := by simp [← before]
  have named : parseKey f bracket (c.go whole written 0)
      = .ok (c.go (blanks ++ (middle ++ (last ++ rest))) (written ++ f.key bracket key)
          bracket.keyTokens) := by
    rw [← text]
    exact (parseKey_go names (blanks ++ (middle ++ (last ++ rest)))
      (Room.go (first ++ (blanks ++ (middle ++ (last ++ rest)))) (room.less (by omega) (by omega)))).trans
        (by rw [Cursor.go_go, Nat.zero_add])
  generalize before' : written ++ f.key bracket key = written' at named
  have size' : written'.length = written.length + (f.key bracket key).length := by simp [← before']
  have valued : parseValue f fuel (depth + 1)
      (c.go (blanks ++ (middle ++ (last ++ rest))) written' bracket.keyTokens)
        = .ok (c.go (last ++ rest) (written' ++ value.laid f.toLayout (depth + 1))
            (bracket.keyTokens + value.tokens)) :=
    (parses spells blank (by omega) (by omega) (spellsRest_ends spells' rest)
      (Room.go (blanks ++ (middle ++ (last ++ rest))) (room.less (by omega) (by omega)))).trans
        (by rw [Cursor.go_go])
  have followed := @follows last spells' fuel depth
    (c.go (last ++ rest) (written' ++ value.laid f.toLayout (depth + 1))
      (bracket.keyTokens + value.tokens)) rest (by omega) (by omega)
    (Room.go (last ++ rest) (room.less (by simp only [List.length_append]; omega) le_rfl))
  rw [Cursor.go_go] at followed
  have some : whole ≠ [] := by
    rw [← text]
    intro none
    simp only [List.append_eq_nil_iff] at none
    simp [none.2.2.1] at long
  rw [parseEntries, if_neg some, separated, ok_bind, indented, ok_bind, named, ok_bind, valued, ok_bind]
  refine followed.trans ?_
  simp [← before', ← before]

/-- The bracket that opens a group. -/
theorem parseValue_group {bracket : Bracket} {fuel depth : Nat} {c : Cursor}
    {blanks left rest : List UInt8} (blank : Blank blanks) (shallow : depth ≤ kDecoderMaxJsonDepth)
    (room : Room f c 1 1) :
    parseValue f (fuel + 1) depth { c with rest := blanks ++ (bracket.opens :: left ++ rest) }
      = parseInside f bracket (parseEntries f fuel bracket depth true)
          (skipWhitespace (c.go (left ++ rest) [bracket.opens] 1)) := by
  have opened := appendByte_go (c := c.go (bracket.opens :: left ++ rest) [] 1) bracket.opens
    (left ++ rest) (Room.go (bracket.opens :: left ++ rest) room)
  rw [Cursor.go_go] at opened
  have dark : isBlank bracket.opens = false := by cases bracket <;> rfl
  rw [parseValue_token blank dark shallow (room.less (Nat.zero_le _) le_rfl)]
  have dispatch (group : Bracket → Cursor → Except Refusal Cursor) (c : Cursor) :
      parseToken f group bracket.opens c = group bracket c := by
    cases bracket <;> rfl
  rw [dispatch, parseGroup]
  exact (congrArg (· >>= _) opened).trans rfl

theorem parses_empty (bracket : Bracket) : Parses f (.group bracket .nil) := by
  intro bytes spells fuel depth c blanks rest blank enough shallow ends room
  have long := spells_pos spells
  obtain ⟨fuel, rfl⟩ : ∃ less, fuel = less + 1 := ⟨fuel - 1, by omega⟩
  simp only [Doc.laid, Doc.tokens, Entries.tokens, List.length_cons, List.length_nil] at room ⊢
  cases spells with
  | @empty _ inner blank' =>
      have dark : Dark (bracket.closes :: rest) := by
        rintro byte ⟨⟩
        cases bracket <;> rfl
      have skips := skipWhitespace_go (c := c.go (bracket.closes :: rest) [bracket.opens] 1)
        (bracket.closes :: rest) blank' dark
      have closed := appendByte_go (c := c.go (bracket.closes :: rest) [bracket.opens] 1)
        bracket.closes rest (Room.go (bracket.closes :: rest) room)
      rw [Cursor.go_go] at closed
      rw [parseValue_group blank (by omega) (room.less (by omega) le_rfl), List.append_assoc]
      refine (congrArg (parseInside f bracket _) skips).trans ?_
      simp only [parseInside, Cursor.go, if_true]
      exact closed

/-- An entry is no closing bracket. -/
theorem parseInside_starts {bracket : Bracket} {entries : Cursor → Except Refusal Cursor}
    {c : Cursor} {front : List UInt8} (starts : Starts front) (rest : List UInt8)
    (same : c.rest = front ++ rest) : parseInside f bracket entries c = entries c := by
  obtain ⟨byte, left, rfl, -, object, array⟩ := starts
  have other : byte ≠ bracket.closes := by
    cases bracket
    · exact object
    · exact array
  simp only [parseInside, same, List.cons_append, if_neg other]

theorem parses_group {bracket : Bracket} {key : bracket.Key} {value : Doc}
    {others : Entries bracket} (parses : Parses f value) (follows : ParsesAfter f others) :
    Parses f (.group bracket (.cons key value others)) := by
  intro bytes spells fuel depth c blanks rest blank enough shallow ends room
  have long := spells_pos spells
  obtain ⟨fuel, rfl⟩ : ∃ less, fuel = less + 1 := ⟨fuel - 1, by omega⟩
  cases spells with
  | @group _ _ _ _ first inner middle last names blank' spells spells' =>
      have long := spells_pos spells
      have long' := spellsRest_pos spells'
      simp only [List.length_cons, List.length_append] at enough
      obtain ⟨fuel, rfl⟩ : ∃ less, fuel = less + 1 := ⟨fuel - 1, by omega⟩
      rw [Doc.depth] at shallow
      simp only [Doc.laid, Doc.tokens, List.length_cons, List.append_assoc] at room ⊢
      obtain ⟨first', inner', names', blank'', starts, skips⟩ := @skip_opened bracket key value
        (c.go (first ++ (inner ++ (middle ++ (last ++ rest)))) [bracket.opens] 1)
        first inner middle names blank' spells (last ++ rest)
      have entered := @parseEntries_go _ _ _ _ _ parses follows _ _ _ _ names' blank'' spells spells'
        fuel depth
        (c.go (first ++ (inner ++ (middle ++ (last ++ rest)))) [bracket.opens] 1)
        true rest (by omega) shallow _ rfl
        (Room.go _ (room.less (by simp; omega) le_rfl))
      rw [Cursor.go_go] at entered
      rw [parseValue_group blank (by omega) (room.less (by omega) (by omega))]
      simp only [List.append_assoc]
      refine (congrArg (parseInside f bracket _) skips).trans ?_
      rw [parseInside_starts starts (last ++ rest) (by simp)]
      refine entered.trans ?_
      simp

theorem parsesAfter_nil {bracket : Bracket} : ParsesAfter f (.nil : Entries bracket) := by
  intro bytes spells fuel depth c rest enough shallow room
  simp only [Entries.laid, Entries.tokens, List.length_append] at room ⊢
  cases spells with
  | @close _ blanks blank =>
      have dark : Dark (bracket.closes :: rest) := by
        rintro byte ⟨⟩
        cases bracket <;> rfl
      have indented := @newlineAndIndent_go f c depth rest (room.less (Nat.le_add_right _ _) le_rfl)
      have closed := appendByte_go (c := c.go rest (f.newline depth) 0) bracket.closes rest
        (Room.go rest room)
      rw [Cursor.go_go] at closed
      rw [List.append_assoc, List.singleton_append, skipWhitespace_go _ blank dark]
      simp only [parseAfter, if_true]
      rw [indented, ok_bind]
      exact closed

theorem parsesAfter_cons {bracket : Bracket} {key : bracket.Key} {value : Doc}
    {others : Entries bracket} (parses : Parses f value) (follows : ParsesAfter f others) :
    ParsesAfter f (.cons key value others) := by
  intro bytes spells fuel depth c rest enough shallow room
  cases spells with
  | @more _ _ _ _ before first blanks middle last blank names blank' spells spells' =>
      have long := spells_pos spells
      have long' := spellsRest_pos spells'
      simp only [List.length_cons, List.length_append] at enough
      obtain ⟨fuel, rfl⟩ : ∃ less, fuel = less + 1 := ⟨fuel - 1, by omega⟩
      have dark : Dark (comma :: (first ++ (blanks ++ (middle ++ (last ++ rest))))) := by
        rintro byte ⟨⟩
        rfl
      have skips := skipWhitespace_go (c := c) _ blank dark
      simp only [List.append_assoc, List.cons_append]
      rw [skips]
      simp only [parseAfter, if_neg (show ¬ comma = bracket.closes by cases bracket <;> decide),
        if_true]
      exact parseEntries_go parses follows names blank' spells spells' false rest (by omega) shallow
        (by simp [Entries.laid]) room

mutual

theorem parses : (doc : Doc) → Parses f doc
  | .text text => parses_text text
  | .number numeral => parses_number numeral
  | .word word => parses_word word
  | .group bracket .nil => parses_empty bracket
  | .group _ (.cons _ value others) => parses_group (parses value) (parsesAfter others)

theorem parsesAfter {bracket : Bracket} : (entries : Entries bracket) → ParsesAfter f entries
  | .nil => parsesAfter_nil
  | .cons _ value others => parsesAfter_cons (parses value) (parsesAfter others)

end

end Values

/-- A text that spells a value within the bounds is accepted. -/
theorem run_complete {f : Settings} {doc : Doc} {input : List UInt8} (spelled : SpelledBy doc input)
    (counts : doc.tokens ≤ kDecoderMaxJsonTokens) (shallow : doc.depth ≤ kDecoderMaxJsonDepth)
    (fits : (doc.laid f.toLayout 0).length ≤ f.outputLimit) (valid : isValidUtf8 input = true) :
    run f input = .success (doc.laid f.toLayout 0) := by
  obtain ⟨before, middle, after, rfl, first, last, spells⟩ := spelled
  have ends : Ends after := by
    rw [Ends]
    intro byte member
    have white := last byte (List.mem_of_mem_head? member)
    simp only [isBlank, Bool.or_eq_true, beq_iff_eq] at white
    rcases white with ((rfl | rfl) | rfl) | rfl <;> decide
  have skips := skipWhitespace_go (c := { rest := before ++ (middle ++ after) }) (middle ++ after) first
    ((spells_starts spells).dark after)
  have parsed := @parses f doc middle spells ((before ++ (middle ++ after)).length + 1) 0
    { rest := [] } [] after blank_nil (by simp only [List.length_append]; omega) (by omega) ends
    ⟨by simpa using fits, by simpa using counts⟩
  have trailing := skipWhitespace_go
    (c := { rest := after, tokens := doc.tokens, output := doc.laid f.toLayout 0 }) [] last
    (by rintro byte ⟨⟩)
  have reads : parseValue f ((before ++ (middle ++ after)).length + 1) 0
      (skipWhitespace { rest := before ++ (middle ++ after) })
        = .ok { rest := after, tokens := doc.tokens, output := doc.laid f.toLayout 0 } := by
    refine (congrArg (parseValue f _ 0) skips).trans (parsed.trans ?_)
    simp [Cursor.go]
  rw [List.append_nil] at trailing
  rw [run, valid]
  simp only [Bool.not_true, Bool.false_eq_true, if_false, reads]
  rw [show (skipWhitespace { rest := after, tokens := doc.tokens, output := doc.laid f.toLayout 0 }).rest
    = [] from congrArg Cursor.rest trailing, if_neg (by simp)]

end Reb.Analysis.JsonFormatter
