/-
# Analysis.JsonExact -- the formatter accepts exactly JSON, and keeps its tokens

A text is split into its tokens by what JSON says of them alone: brackets, colons and commas
stand for themselves, a string goes up to its closing quote, and anything else up to a blank,
a quote or one of those.  Whatever spells a value has that value's tokens
(`spelledBy_tokens`), so what the formatter writes has those of what it read.
-/
import Reb.Analysis.JsonLayout
import Reb.Analysis.Utf8Exact

namespace Reb.Analysis

set_option autoImplicit false

/-! ## The tokens of a text -/

/-- `{`, `}`, `[`, `]`, `:` and `,` -/
def isStructural (byte : UInt8) : Bool :=
  byte == 0x7b || byte == 0x7d || byte == 0x5b || byte == 0x5d || byte == colon || byte == comma

def isDelimiter (byte : UInt8) : Bool := isBlank byte || isStructural byte || byte == quote

/-- A string behind its opening quote, and what follows it. -/
def takeString : List UInt8 → List UInt8 × List UInt8
  | [] => ([], [])
  | first :: rest =>
      if first = quote then ([first], rest)
      else if first = backslash then
        match rest with
        | [] => ([first], [])
        | next :: rest => (first :: next :: (takeString rest).1, (takeString rest).2)
      else (first :: (takeString rest).1, (takeString rest).2)

/-- The token that starts with a byte, and what follows it. -/
def takeToken (first : UInt8) (rest : List UInt8) : List UInt8 × List UInt8 :=
  if isStructural first then ([first], rest)
  else if first = quote then (first :: (takeString rest).1, (takeString rest).2)
  else (first :: rest.takeWhile (!isDelimiter ·), rest.dropWhile (!isDelimiter ·))

theorem takeString_quote (rest : List UInt8) : takeString (quote :: rest) = ([quote], rest) := by
  rw [takeString.eq_def]
  exact if_pos rfl

theorem takeString_backslash (byte : UInt8) (rest : List UInt8) :
    takeString (backslash :: byte :: rest)
      = (backslash :: byte :: (takeString rest).1, (takeString rest).2) := by
  rw [takeString.eq_def]
  exact (if_neg (by decide)).trans (if_pos rfl)

theorem takeString_plain {byte : UInt8} (apart : byte ≠ quote ∧ byte ≠ backslash)
    (rest : List UInt8) :
    takeString (byte :: rest) = (byte :: (takeString rest).1, (takeString rest).2) := by
  rw [takeString.eq_def]
  exact (if_neg apart.1).trans (if_neg apart.2)

theorem takeString_length (text : List UInt8) : (takeString text).2.length ≤ text.length := by
  induction text using takeString.induct with
  | case1 => exact le_rfl
  | case2 rest =>
      rw [takeString_quote]
      exact Nat.le_succ _
  | case3 => exact Nat.zero_le _
  | case4 _ next rest ih =>
      rw [takeString_backslash]
      simp only [List.length_cons]
      omega
  | case5 first rest plain other ih =>
      rw [takeString_plain ⟨plain, other⟩]
      simp only [List.length_cons]
      omega

theorem takeToken_length (first : UInt8) (rest : List UInt8) :
    (takeToken first rest).2.length ≤ rest.length := by
  rw [takeToken]
  split
  · exact le_rfl
  · split
    · exact takeString_length rest
    · exact (List.dropWhile_sublist _).length_le

/-- The tokens of a text, in order. -/
def jsonTokens (text : List UInt8) : List (List UInt8) :=
  match _blanked : text.dropWhile isBlank with
  | [] => []
  | first :: rest => (takeToken first rest).1 :: jsonTokens (takeToken first rest).2
termination_by text.length
decreasing_by
  have shorter := (List.dropWhile_sublist isBlank (l := text)).length_le
  have left := takeToken_length first rest
  rw [_blanked, List.length_cons] at shorter
  omega

theorem jsonTokens_blank {blanks : List UInt8} (blank : Blank blanks) (rest : List UInt8) :
    jsonTokens (blanks ++ rest) = jsonTokens rest := by
  rw [jsonTokens, jsonTokens.eq_1 rest, List.dropWhile_append_of_pos blank]

theorem jsonTokens_cons {first : UInt8} (dark : isBlank first = false) (rest : List UInt8) :
    jsonTokens (first :: rest)
      = (takeToken first rest).1 :: jsonTokens (takeToken first rest).2 := by
  have same : (first :: rest).dropWhile isBlank = first :: rest :=
    List.dropWhile_cons_of_neg (by rw [dark]; exact Bool.false_ne_true)
  rw [jsonTokens]
  split
  · next none =>
      rw [same] at none
      cases none
  · next first' rest' some_byte =>
      rw [same] at some_byte
      obtain ⟨rfl, rfl⟩ := List.cons.inj some_byte
      rfl

/-! ## The tokens of a value -/

def keyLexemes : (bracket : Bracket) → bracket.Key → List (List UInt8)
  | .object, text => [Text.quoted text, [colon]]
  | .array, () => []

mutual

def Doc.lexemes : Doc → List (List UInt8)
  | .text text => [text.quoted]
  | .number numeral => [numeral.spelled]
  | .word word => [word.spelled]
  | .group bracket .nil => [[bracket.opens], [bracket.closes]]
  | .group bracket (.cons key value rest) =>
      [bracket.opens] :: (keyLexemes bracket key ++ (value.lexemes ++ rest.lexemes))

/-- The entries after the first one, and the closing bracket. -/
def Entries.lexemes {bracket : Bracket} : Entries bracket → List (List UInt8)
  | .nil => [[bracket.closes]]
  | .cons key value rest =>
      [comma] :: (keyLexemes bracket key ++ (value.lexemes ++ rest.lexemes))

end

/-! ## Every spelling has them -/

/-- What follows a number or a word ends it. -/
def Delimits (rest : List UInt8) : Prop := ∀ byte ∈ rest.head?, isDelimiter byte = true

theorem blank_delimits {blanks rest : List UInt8} (blank : Blank blanks) (delimits : Delimits rest) :
    Delimits (blanks ++ rest) := by
  cases blanks with
  | nil => exact delimits
  | cons first blanks =>
      rintro byte ⟨⟩
      rw [isDelimiter, blank _ List.mem_cons_self]
      rfl

theorem takeToken_structural {byte : UInt8} (structural : isStructural byte = true)
    (rest : List UInt8) : takeToken byte rest = ([byte], rest) := by
  rw [takeToken, if_pos structural]

theorem takeToken_plain {first : UInt8} {front rest : List UInt8}
    (plain : ∀ byte ∈ first :: front, isDelimiter byte = false) (delimits : Delimits rest) :
    takeToken first (front ++ rest) = (first :: front, rest) := by
  rw [List.forall_mem_cons] at plain
  have other := plain.1
  simp only [isDelimiter, Bool.or_eq_false_iff, beq_eq_false_iff_ne] at other
  have all : ∀ byte ∈ front, (!isDelimiter byte) = true := fun byte inside => by
    rw [plain.2 byte inside]
    rfl
  rw [takeToken, if_neg (by rw [other.1.2]; exact Bool.false_ne_true), if_neg other.2,
    List.takeWhile_append_of_pos all, List.dropWhile_append_of_pos all]
  cases rest with
  | nil => simp
  | cons byte rest =>
      have stop : ¬ (!isDelimiter byte) = true := by
        rw [delimits byte rfl]
        decide
      rw [List.takeWhile_cons_of_neg (p := (!isDelimiter ·)) stop,
        List.dropWhile_cons_of_neg (p := (!isDelimiter ·)) stop, List.append_nil]

theorem hexDigit_plain (digit : HexDigit) : digit.1 ≠ quote ∧ digit.1 ≠ backslash := by
  obtain ⟨byte, hex⟩ := digit
  constructor <;> rintro rfl <;> cases hex

theorem takeString_spelled (text : Text) (rest : List UInt8) :
    takeString (text.spelled ++ quote :: rest) = (text.spelled ++ [quote], rest) := by
  induction text with
  | nil => rw [Text.spelled, List.flatMap_nil, List.nil_append, takeString_quote]; rfl
  | cons piece text ih =>
      rw [Text.spelled, List.flatMap_cons, ← Text.spelled, List.append_assoc, List.append_assoc]
      cases piece with
      | plain byte ordinary => simp [Piece.spelled, takeString_plain ordinary.2, ih]
      | escape byte simple => simp [Piece.spelled, takeString_backslash, ih]
      | unit a b c d =>
          simp [Piece.spelled, takeString_backslash, takeString_plain (hexDigit_plain a),
            takeString_plain (hexDigit_plain b), takeString_plain (hexDigit_plain c),
            takeString_plain (hexDigit_plain d), ih]

theorem jsonTokens_structural {byte : UInt8} (structural : isStructural byte = true)
    (rest : List UInt8) : jsonTokens (byte :: rest) = [byte] :: jsonTokens rest := by
  have dark : isBlank byte = false := by
    simp only [isStructural, Bool.or_eq_true, beq_iff_eq] at structural
    rcases structural with ((((rfl | rfl) | rfl) | rfl) | rfl) | rfl <;> rfl
  rw [jsonTokens_cons dark, takeToken_structural structural]

theorem jsonTokens_quoted (text : Text) (rest : List UInt8) :
    jsonTokens (text.quoted ++ rest) = text.quoted :: jsonTokens rest := by
  rw [Text.quoted, List.cons_append, jsonTokens_cons rfl, takeToken, if_neg (by decide), if_pos rfl,
    List.append_assoc, List.singleton_append, takeString_spelled]

theorem jsonTokens_plain {front rest : List UInt8} (some_byte : front ≠ [])
    (plain : ∀ byte ∈ front, isDelimiter byte = false) (delimits : Delimits rest) :
    jsonTokens (front ++ rest) = front :: jsonTokens rest := by
  cases front with
  | nil => exact absurd rfl some_byte
  | cons first front =>
      have dark : isBlank first = false := by
        have other := plain first List.mem_cons_self
        simp only [isDelimiter, Bool.or_eq_false_iff] at other
        exact other.1.1
      rw [List.cons_append, jsonTokens_cons dark, takeToken_plain plain delimits]

theorem digit_plain_token {byte : UInt8} (digit : isDigit byte = true) : isDelimiter byte = false := by
  have all : ∀ byte : UInt8, isDigit byte = true → isDelimiter byte = false := by decide +kernel
  exact all byte digit

theorem numeral_plain (numeral : Numeral) : ∀ byte ∈ numeral.spelled, isDelimiter byte = false := by
  obtain ⟨negative, whole, -, fraction, exponent⟩ := numeral
  intro byte member
  simp only [Numeral.spelled, List.mem_append] at member
  rcases member with ((sign | digit) | point) | mark
  · split at sign
    · rw [List.mem_singleton.1 sign]
      rfl
    · cases sign
  · exact digit_plain_token (whole.digits byte digit)
  · cases fraction with
    | none => cases point
    | some digits =>
        rcases List.mem_cons.1 point with rfl | digit
        · rfl
        · exact digit_plain_token (digits.digits byte digit)
  · cases exponent with
    | none => cases mark
    | some e =>
        simp only [Option.elim, Exponent.spelled, List.mem_cons, List.mem_append,
          Option.mem_toList] at mark
        rcases mark with rfl | sign | digit
        · rcases e.marks with same | same <;> rw [same] <;> rfl
        · rcases e.signs byte sign with rfl | rfl <;> rfl
        · exact digit_plain_token (e.digits.digits byte digit)

theorem word_plain (word : Word) : ∀ byte ∈ word.spelled, isDelimiter byte = false := by
  cases word <;> decide +kernel

theorem opens_structural (bracket : Bracket) : isStructural bracket.opens = true := by
  cases bracket <;> rfl

theorem closes_structural (bracket : Bracket) : isStructural bracket.closes = true := by
  cases bracket <;> rfl

theorem spellsKey_tokens {bracket : Bracket} {key : bracket.Key} {bytes : List UInt8}
    (names : SpellsKey bracket key bytes) (rest : List UInt8) :
    jsonTokens (bytes ++ rest) = keyLexemes bracket key ++ jsonTokens rest := by
  cases names with
  | array => rfl
  | object first second =>
      rw [List.append_assoc, List.append_assoc, List.append_assoc, jsonTokens_blank first,
        jsonTokens_quoted, jsonTokens_blank second, List.singleton_append,
        jsonTokens_structural (by rfl)]
      rfl

/-- What follows a value inside a group ends it. -/
theorem spellsRest_delimits {bracket : Bracket} {entries : Entries bracket} {bytes : List UInt8}
    (spells : SpellsRest entries bytes) (rest : List UInt8) : Delimits (bytes ++ rest) := by
  have structural {byte : UInt8} (structural : isStructural byte = true) (more : List UInt8) :
      Delimits (byte :: more) := by
    rintro other ⟨⟩
    rw [isDelimiter, structural, Bool.or_true]
    rfl
  cases spells with
  | close blank =>
      rw [List.append_assoc]
      exact blank_delimits blank (structural (closes_structural bracket) _)
  | more blank =>
      rw [List.append_assoc]
      exact blank_delimits blank (structural (by rfl) _)

mutual

theorem spells_tokens : (doc : Doc) → ∀ {bytes : List UInt8}, Spells doc bytes →
    ∀ rest : List UInt8, Delimits rest → jsonTokens (bytes ++ rest) = doc.lexemes ++ jsonTokens rest
  | .text text, _, spells, rest, _ => by
      cases spells
      rw [jsonTokens_quoted, Doc.lexemes]
      rfl
  | .number numeral, _, spells, rest, delimits => by
      cases spells
      obtain ⟨first, left, same, _⟩ := JsonFormatter.numeral_starts numeral
      rw [jsonTokens_plain (by rw [same]; exact List.cons_ne_nil _ _) (numeral_plain numeral) delimits,
        Doc.lexemes]
      rfl
  | .word word, _, spells, rest, delimits => by
      cases spells
      rw [jsonTokens_plain (by cases word <;> decide) (word_plain word) delimits, Doc.lexemes]
      rfl
  | .group bracket .nil, _, spells, rest, _ => by
      cases spells with
      | empty blank =>
          rw [List.cons_append, jsonTokens_structural (opens_structural bracket), List.append_assoc,
            jsonTokens_blank blank, List.singleton_append,
            jsonTokens_structural (closes_structural bracket), Doc.lexemes]
          rfl
  | .group bracket (.cons key value others), _, spells, rest, _ => by
      cases spells with
      | group names blank spells follows =>
          rw [List.cons_append, jsonTokens_structural (opens_structural bracket), List.append_assoc,
            spellsKey_tokens names, List.append_assoc, jsonTokens_blank blank, List.append_assoc,
            spells_tokens value spells _ (spellsRest_delimits follows rest),
            spellsRest_tokens others follows, Doc.lexemes]
          simp only [List.cons_append, List.append_assoc]

theorem spellsRest_tokens {bracket : Bracket} : (entries : Entries bracket) →
    ∀ {bytes : List UInt8}, SpellsRest entries bytes →
      ∀ rest : List UInt8, jsonTokens (bytes ++ rest) = entries.lexemes ++ jsonTokens rest
  | .nil, _, spells, rest => by
      cases spells with
      | close blank =>
          rw [List.append_assoc, jsonTokens_blank blank, List.singleton_append,
            jsonTokens_structural (closes_structural bracket), Entries.lexemes]
          rfl
  | .cons key value others, _, spells, rest => by
      cases spells with
      | more first names blank spells follows =>
          rw [List.append_assoc, jsonTokens_blank first, List.cons_append,
            jsonTokens_structural (by rfl), List.append_assoc, spellsKey_tokens names,
            List.append_assoc, jsonTokens_blank blank, List.append_assoc,
            spells_tokens value spells _ (spellsRest_delimits follows rest),
            spellsRest_tokens others follows, Entries.lexemes]
          simp only [List.cons_append, List.append_assoc]

end

theorem jsonTokens_nil : jsonTokens [] = [] := by
  rw [jsonTokens]
  rfl

/-- Whatever spells a value has its tokens. -/
theorem spelledBy_tokens {doc : Doc} {text : List UInt8} (spelled : SpelledBy doc text) :
    jsonTokens text = doc.lexemes := by
  obtain ⟨before, middle, after, rfl, first, last, spells⟩ := spelled
  have delimits : Delimits after := by
    have ends := blank_delimits last (show Delimits [] by rintro byte ⟨⟩)
    rwa [List.append_nil] at ends
  have trailing := jsonTokens_blank last []
  rw [List.append_nil, jsonTokens_nil] at trailing
  rw [jsonTokens_blank first, spells_tokens doc spells _ delimits, trailing, List.append_nil]

/-! ## The formatter -/

/-- The formatter succeeds at every text that it accepts and has room for. -/
theorem formatJson_iff {input : List UInt8} {pretty : Bool} {outputLimit : Nat} :
    (formatJson input pretty outputLimit).status = .ok
      ↔ (∃ cs, input = Theory.Utf8.utf8 cs) ∧ ∃ doc : Doc, SpelledBy doc input
        ∧ doc.depth ≤ kDecoderMaxJsonDepth ∧ doc.tokens ≤ kDecoderMaxJsonTokens
        ∧ (doc.laid ⟨pretty⟩ 0).length ≤ outputLimit := by
  rw [← isValidUtf8_iff]
  constructor
  · intro ok
    obtain ⟨doc, spelled, _, counts, shallow, fits, valid⟩ := JsonFormatter.run_sound ok
    exact ⟨valid, doc, spelled, shallow, counts, fits⟩
  · rintro ⟨valid, doc, spelled, shallow, counts, fits⟩
    exact congrArg DecoderResult.status (JsonFormatter.run_complete spelled counts shallow fits valid)

/-- What is formatted once is formatted again, in either layout, as if it were the input. -/
theorem formatJson_again {input : List UInt8} {first second : Bool} {limit limit' : Nat}
    (ok : (formatJson input first limit).status = .ok)
    (ok' : (formatJson input second limit').status = .ok) :
    formatJson (formatJson input first limit).output second limit' = formatJson input second limit' := by
  obtain ⟨doc, spelled, written, counts, shallow, _, valid⟩ := JsonFormatter.run_sound ok
  obtain ⟨doc', spelled', _, counts', shallow', fits, _⟩ := JsonFormatter.run_sound ok'
  have same := JsonFormatter.spelled_unique spelled spelled' ⟨second⟩
    (Nat.max_le.2 ⟨counts, counts'⟩) (Nat.max_le.2 ⟨shallow, shallow'⟩) valid
  have room : (doc.laid ⟨second⟩ 0).length ≤ limit' := by
    rw [same]
    exact fits
  have again := JsonFormatter.run_laid (f := ⟨⟨second⟩, limit'⟩) ⟨first⟩ counts shallow
    ((spelledBy_encoded spelled).symm.trans valid) room
  rw [formatJson, formatJson, formatJson, written]
  exact again.trans (JsonFormatter.run_complete (f := ⟨⟨second⟩, limit'⟩) spelled counts shallow room
    valid).symm

/-- The formatter succeeds exactly on UTF-8 that is JSON within its bounds, it keeps the
tokens, and its two layouts undo each other. -/
theorem formatJson_exact :
    (∀ (input : List UInt8) (pretty : Bool) (outputLimit : Nat),
      (formatJson input pretty outputLimit).status = .ok
        ↔ (∃ cs, input = Theory.Utf8.utf8 cs) ∧ ∃ doc : Doc, SpelledBy doc input
          ∧ doc.depth ≤ 64 ∧ doc.tokens ≤ 100000 ∧ (doc.laid ⟨pretty⟩ 0).length ≤ outputLimit)
    ∧ (∀ (input : List UInt8) (pretty : Bool) (outputLimit : Nat),
      (formatJson input pretty outputLimit).status = .ok →
        jsonTokens (formatJson input pretty outputLimit).output = jsonTokens input)
    ∧ ∀ (input : List UInt8) (wide narrow : Nat), (formatJson input true wide).status = .ok →
      (formatJson input false narrow).status = .ok →
        let pretty := formatJson input true wide
        let minified := formatJson input false narrow
        formatJson pretty.output false narrow = minified
          ∧ formatJson minified.output false narrow = minified
          ∧ formatJson minified.output true wide = pretty := by
  refine ⟨fun input pretty outputLimit => formatJson_iff, fun input pretty outputLimit ok => ?_,
    fun input wide narrow ok ok' =>
      ⟨formatJson_again ok ok', formatJson_again ok' ok', formatJson_again ok' ok⟩⟩
  obtain ⟨doc, spelled, written, _⟩ := JsonFormatter.run_sound ok
  have layout := spelledBy_tokens (laid_spelledBy ⟨pretty⟩ doc)
  rw [formatJson, written, spelledBy_tokens spelled]
  exact layout

theorem formatJson_exact_sample :
    jsonTokens (formatJson [0x5b, 0x31, 0x5d] true 64).output = jsonTokens [0x5b, 0x31, 0x5d] :=
  formatJson_exact.2.1 [0x5b, 0x31, 0x5d] true 64 (by decide +kernel)

end Reb.Analysis
