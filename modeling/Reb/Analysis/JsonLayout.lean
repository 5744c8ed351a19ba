/-
# Analysis.JsonLayout -- the layouts of a value

Either layout of a value spells it (`laid_spells`), and a spelling is valid UTF-8
exactly when the strings of the value are (`spells_encoded`).  What the formatter writes it
therefore accepts again, in either layout (`run_laid`).
-/
import Reb.Analysis.JsonFormatterComplete

namespace Reb.Analysis

set_option autoImplicit false

/-! ## Spellings -/

section Spellings

variable (layout : Layout)

theorem newline_blank (k : Nat) : Blank (layout.newline k) := by
  intro byte member
  unfold Layout.newline at member
  split at member
  · rcases List.mem_cons.1 member with rfl | space
    · rfl
    · rw [List.eq_of_mem_replicate space]
      rfl
  · cases member

theorem key_spells (bracket : Bracket) (key : bracket.Key) (k : Nat) :
    ∃ first blanks, SpellsKey bracket key first ∧ Blank blanks
      ∧ layout.newline k ++ layout.key bracket key = first ++ blanks := by
  cases bracket with
  | array => exact ⟨[], layout.newline k, .array, newline_blank layout k, by simp [Layout.key]⟩
  | object =>
      refine ⟨layout.newline k ++ (Text.quoted key ++ ([] ++ [colon])),
        if layout.pretty then [0x20] else [], .object (newline_blank layout k)
          JsonFormatter.blank_nil, ?_, ?_⟩
      · intro byte member
        split at member
        · rw [List.mem_singleton.1 member]
          rfl
        · cases member
      · cases pretty : layout.pretty <;> simp [Layout.key, Layout.separator, pretty]

mutual

theorem laid_spells (k : Nat) : (doc : Doc) → Spells doc (doc.laid layout k)
  | .text text => .text text
  | .number numeral => .number numeral
  | .word word => .word word
  | .group bracket .nil => .empty JsonFormatter.blank_nil
  | .group bracket (.cons key value others) => by
      obtain ⟨first, blanks, names, blank, same⟩ := key_spells layout bracket key (k + 1)
      rw [Doc.laid, same, List.append_assoc, List.append_assoc]
      exact .group names blank (laid_spells (k + 1) value) (laid_spellsRest k others)

theorem laid_spellsRest {bracket : Bracket} (k : Nat) :
    (entries : Entries bracket) → SpellsRest entries (entries.laid layout k)
  | .nil => .close (newline_blank layout k)
  | .cons key value others => by
      obtain ⟨first, blanks, names, blank, same⟩ := key_spells layout bracket key (k + 1)
      rw [Entries.laid, same, List.append_assoc, List.append_assoc]
      exact .more JsonFormatter.blank_nil names blank (laid_spells (k + 1) value)
        (laid_spellsRest k others)

end

theorem laid_spelledBy (doc : Doc) : SpelledBy doc (doc.laid layout 0) :=
  ⟨[], doc.laid layout 0, [], by simp, JsonFormatter.blank_nil, JsonFormatter.blank_nil,
    laid_spells layout 0 doc⟩

end Spellings

/-! ## Encoding -/

def keyEncoded : (bracket : Bracket) → bracket.Key → Bool
  | .object, text => isValidUtf8 (Text.spelled text)
  | .array, () => true

mutual

/-- The strings of the value are valid UTF-8. -/
def Doc.encoded : Doc → Bool
  | .text text => isValidUtf8 text.spelled
  | .number _ | .word _ => true
  | .group _ entries => entries.encoded

def Entries.encoded {bracket : Bracket} : Entries bracket → Bool
  | .nil => true
  | .cons key value rest => keyEncoded bracket key && value.encoded && rest.encoded

end

theorem blank_ascii {blanks : List UInt8} (blank : Blank blanks) : ∀ byte ∈ blanks, byte ≤ 0x7f := by
  intro byte member
  have white := blank byte member
  simp only [isBlank, Bool.or_eq_true, beq_iff_eq] at white
  rcases white with ((rfl | rfl) | rfl) | rfl <;> decide

theorem digit_ascii {byte : UInt8} (digit : isDigit byte = true) : byte ≤ 0x7f := by
  simp only [isDigit, Bool.and_eq_true, decide_eq_true_eq] at digit
  exact UInt8.le_trans digit.2 (by decide)

theorem numeral_ascii (numeral : Numeral) : ∀ byte ∈ numeral.spelled, byte ≤ 0x7f := by
  obtain ⟨negative, whole, -, fraction, exponent⟩ := numeral
  intro byte member
  simp only [Numeral.spelled, List.mem_append] at member
  rcases member with ((sign | digit) | point) | mark
  · split at sign
    · rw [List.mem_singleton.1 sign]
      decide
    · cases sign
  · exact digit_ascii (whole.digits byte digit)
  · cases fraction with
    | none => cases point
    | some digits =>
        rcases List.mem_cons.1 point with rfl | digit
        · decide
        · exact digit_ascii (digits.digits byte digit)
  · cases exponent with
    | none => cases mark
    | some e =>
        simp only [Option.elim, Exponent.spelled, List.mem_cons, List.mem_append,
          Option.mem_toList] at mark
        rcases mark with rfl | sign | digit
        · rcases e.marks with same | same <;> rw [same] <;> decide
        · rcases e.signs byte sign with rfl | rfl <;> decide
        · exact digit_ascii (e.digits.digits byte digit)

theorem word_ascii (word : Word) : ∀ byte ∈ word.spelled, byte ≤ 0x7f := by
  cases word <;> simp [Word.spelled] <;> decide

theorem isValidUtf8_quoted (text : Text) (rest : List UInt8) :
    isValidUtf8 (text.quoted ++ rest) = (isValidUtf8 text.spelled && isValidUtf8 rest) := by
  rw [Text.quoted, List.cons_append, isValidUtf8_ascii (by decide), List.append_assoc,
    List.singleton_append, isValidUtf8_cut _ (by decide)]

theorem spellsKey_encoded {bracket : Bracket} {key : bracket.Key} {first : List UInt8}
    (names : SpellsKey bracket key first) (rest : List UInt8) :
    isValidUtf8 (first ++ rest) = (keyEncoded bracket key && isValidUtf8 rest) := by
  cases names with
  | array => simp [keyEncoded]
  | object early late =>
      rw [List.append_assoc, isValidUtf8_blank (blank_ascii early), List.append_assoc,
        isValidUtf8_quoted, List.append_assoc, isValidUtf8_blank (blank_ascii late),
        List.singleton_append, isValidUtf8_ascii (by decide)]
      rfl

mutual

theorem spells_encoded : (doc : Doc) → ∀ {bytes : List UInt8}, Spells doc bytes → ∀ rest : List UInt8,
    isValidUtf8 (bytes ++ rest) = (doc.encoded && isValidUtf8 rest)
  | .text text, _, spells, rest => by
      cases spells
      rw [isValidUtf8_quoted, Doc.encoded]
  | .number numeral, _, spells, rest => by
      cases spells
      rw [isValidUtf8_blank (numeral_ascii numeral), Doc.encoded, Bool.true_and]
  | .word word, _, spells, rest => by
      cases spells
      rw [isValidUtf8_blank (word_ascii word), Doc.encoded, Bool.true_and]
  | .group bracket .nil, _, spells, rest => by
      cases spells with
      | empty blank =>
          rw [List.cons_append, isValidUtf8_ascii (by cases bracket <;> decide), List.append_assoc,
            isValidUtf8_blank (blank_ascii blank), List.singleton_append,
            isValidUtf8_ascii (by cases bracket <;> decide), Doc.encoded, Entries.encoded,
            Bool.true_and]
  | .group bracket (.cons key value others), _, spells, rest => by
      cases spells with
      | group names blank spells follows =>
          simp only [List.cons_append, List.append_assoc, Doc.encoded, Entries.encoded]
          rw [isValidUtf8_ascii (by cases bracket <;> decide), spellsKey_encoded names,
            isValidUtf8_blank (blank_ascii blank), spells_encoded value spells,
            spellsRest_encoded others follows, Bool.and_assoc, Bool.and_assoc]

theorem spellsRest_encoded {bracket : Bracket} : (entries : Entries bracket) →
    ∀ {bytes : List UInt8}, SpellsRest entries bytes → ∀ rest : List UInt8,
      isValidUtf8 (bytes ++ rest) = (entries.encoded && isValidUtf8 rest)
  | .nil, _, spells, rest => by
      cases spells with
      | close blank =>
          rw [List.append_assoc, isValidUtf8_blank (blank_ascii blank), List.singleton_append,
            isValidUtf8_ascii (by cases bracket <;> decide), Entries.encoded, Bool.true_and]
  | .cons key value others, _, spells, rest => by
      cases spells with
      | more first names blank spells follows =>
          simp only [List.cons_append, List.append_assoc, Entries.encoded]
          rw [isValidUtf8_blank (blank_ascii first), isValidUtf8_ascii (by decide),
            spellsKey_encoded names, isValidUtf8_blank (blank_ascii blank),
            spells_encoded value spells, spellsRest_encoded others follows, Bool.and_assoc,
            Bool.and_assoc]

end

theorem spelledBy_encoded {doc : Doc} {input : List UInt8} (spelled : SpelledBy doc input) :
    isValidUtf8 input = doc.encoded := by
  obtain ⟨before, middle, after, rfl, first, last, spells⟩ := spelled
  have ends := isValidUtf8_blank (blank_ascii last) []
  rw [List.append_nil, isValidUtf8_nil] at ends
  rw [isValidUtf8_blank (blank_ascii first), spells_encoded doc spells, ends, Bool.and_true]

/-! ## Layouts accepted again -/

namespace JsonFormatter

/-- What one run of the formatter accepts, another accepts in any layout that fits. -/
theorem run_laid {f : Settings} (layout : Layout) {doc : Doc}
    (counts : doc.tokens ≤ kDecoderMaxJsonTokens) (shallow : doc.depth ≤ kDecoderMaxJsonDepth)
    (encoded : doc.encoded = true) (fits : (doc.laid f.toLayout 0).length ≤ f.outputLimit) :
    run f (doc.laid layout 0) = .success (doc.laid f.toLayout 0) :=
  run_complete (laid_spelledBy layout doc) counts shallow fits
    ((spelledBy_encoded (laid_spelledBy layout doc)).trans encoded)

/-- A text spells no two values that are laid out differently. -/
theorem spelled_unique {doc doc' : Doc} {input : List UInt8} (spelled : SpelledBy doc input)
    (spelled' : SpelledBy doc' input) (layout : Layout)
    (counts : max doc.tokens doc'.tokens ≤ kDecoderMaxJsonTokens)
    (shallow : max doc.depth doc'.depth ≤ kDecoderMaxJsonDepth) (valid : isValidUtf8 input = true) :
    doc.laid layout 0 = doc'.laid layout 0 := by
  have runs := run_complete
    (f := ⟨layout, (doc.laid layout 0).length + (doc'.laid layout 0).length⟩) spelled
    (by omega) (by omega) (Nat.le_add_right _ _) valid
  have runs' := run_complete
    (f := ⟨layout, (doc.laid layout 0).length + (doc'.laid layout 0).length⟩) spelled'
    (by omega) (by omega) (Nat.le_add_left _ _) valid
  exact congrArg DecoderResult.output (runs.symm.trans runs')

/-- Over its limit a value is refused. -/
theorem run_exceeds {f : Settings} {doc : Doc} {input : List UInt8} (spelled : SpelledBy doc input)
    (counts : doc.tokens ≤ kDecoderMaxJsonTokens) (shallow : doc.depth ≤ kDecoderMaxJsonDepth)
    (exceeds : f.outputLimit < (doc.laid f.toLayout 0).length) : (run f input).status ≠ .ok := by
  intro ok
  obtain ⟨doc', spelled', -, counts', shallow', fits, valid⟩ := run_sound ok
  rw [spelled_unique spelled spelled' f.toLayout (by omega) (by omega) valid] at exceeds
  omega

end JsonFormatter

end Reb.Analysis
