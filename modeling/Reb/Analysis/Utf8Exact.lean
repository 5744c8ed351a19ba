/-
# Analysis.Utf8Exact -- the text checks accept exactly UTF-8

One sequence of the decoder's check is the encoding of one character (`sequence_char`,
`char_sequence`), so the check accepts exactly the encodings of the lists of characters
(`Analysis.isValidUtf8_iff`).  The artifact store's check takes the same sequences and
refuses control characters besides, so it accepts the encodings of texts without them.
-/
import Reb.Analysis.Utf8
import Reb.Theory.Utf8

namespace Reb.Analysis

open Reb.Evidence

set_option autoImplicit false

/-! ## Bytes as numbers -/

/-- What a lead byte announces, by its value. -/
theorem utf8Lead_eq (byte : UInt8) :
    utf8Lead byte
      = if 0xc0 ≤ byte.toNat ∧ byte.toNat < 0xe0 then some (1, .ofNat (byte.toNat - 0xc0))
        else if 0xe0 ≤ byte.toNat ∧ byte.toNat < 0xf0 then some (2, .ofNat (byte.toNat - 0xe0))
        else if 0xf0 ≤ byte.toNat ∧ byte.toNat < 0xf8 then some (3, .ofNat (byte.toNat - 0xf0))
        else none := by
  revert byte
  decide +kernel

theorem continues_iff (byte : UInt8) :
    (byte &&& 0xc0 == 0x80) = true ↔ 0x80 ≤ byte.toNat ∧ byte.toNat < 0xc0 := by
  revert byte
  decide +kernel

theorem low_bits (byte : UInt8) : (byte &&& 0x3f).toUInt32.toNat = byte.toNat % 64 := by
  revert byte
  decide +kernel

/-- One continuation byte more. -/
theorem codePoint_step (point : UInt32) (small : point.toNat < 2 ^ 26) (byte : UInt8) :
    ((point <<< 6) ||| (byte &&& 0x3f).toUInt32).toNat = point.toNat * 64 + byte.toNat % 64 := by
  rw [UInt32.toNat_or, UInt32.toNat_shiftLeft, low_bits]
  have shift : point.toNat <<< ((6 : UInt32).toNat % 32) % 2 ^ 32 = 2 ^ 6 * point.toNat := by
    rw [show (6 : UInt32).toNat % 32 = 6 from rfl, Nat.shiftLeft_eq, Nat.mod_eq_of_lt (by omega),
      Nat.mul_comm]
  rw [shift, ← Nat.two_pow_add_eq_or_of_lt (Nat.mod_lt _ (by decide))]
  omega

/-- The number that a lead's bits and continuation bytes spell. -/
def pointOf (lead : Nat) (tail : List UInt8) : Nat :=
  tail.foldl (fun point byte => point * 64 + byte.toNat % 64) lead

theorem codePoint_eq {tail : List UInt8} (short : tail.length ≤ 3) {lead : Nat} (small : lead < 32) :
    (utf8CodePoint (.ofNat lead) tail).toNat = pointOf lead tail := by
  have start : (UInt32.ofNat lead).toNat = lead := UInt32.toNat_ofNat_of_lt' (by
    change lead < 4294967296
    omega)
  match tail, short with
  | [], _ => exact start
  | [a], _ =>
      simp only [utf8CodePoint, pointOf, List.foldl_cons, List.foldl_nil]
      rw [codePoint_step _ (by omega), start]
  | [a, b], _ =>
      simp only [utf8CodePoint, pointOf, List.foldl_cons, List.foldl_nil]
      have one := codePoint_step (.ofNat lead) (by omega) a
      rw [codePoint_step _ (by omega), one, start]
  | [a, b, c], _ =>
      simp only [utf8CodePoint, pointOf, List.foldl_cons, List.foldl_nil]
      have one := codePoint_step (.ofNat lead) (by omega) a
      have two := codePoint_step ((UInt32.ofNat lead <<< 6) ||| (a &&& 0x3f).toUInt32)
        (by omega) b
      rw [codePoint_step _ (by omega), two, one, start]

/-- A sequence, by the values of its bytes. -/
def Sequence (first : UInt8) (tail : List UInt8) : Prop :=
  (∀ byte ∈ tail, 0x80 ≤ byte.toNat ∧ byte.toNat < 0xc0)
    ∧ (tail.length = 0 ∧ first.toNat < 0x80
      ∨ tail.length = 1 ∧ 0xc0 ≤ first.toNat ∧ first.toNat < 0xe0
        ∧ 0x80 ≤ pointOf (first.toNat - 0xc0) tail
      ∨ tail.length = 2 ∧ 0xe0 ≤ first.toNat ∧ first.toNat < 0xf0
        ∧ 0x800 ≤ pointOf (first.toNat - 0xe0) tail
        ∧ ¬ (0xd800 ≤ pointOf (first.toNat - 0xe0) tail ∧ pointOf (first.toNat - 0xe0) tail ≤ 0xdfff)
      ∨ tail.length = 3 ∧ 0xf0 ≤ first.toNat ∧ first.toNat < 0xf8
        ∧ 0x10000 ≤ pointOf (first.toNat - 0xf0) tail ∧ pointOf (first.toNat - 0xf0) tail ≤ 0x10ffff)

theorem pointOf_lt (tail : List UInt8) (lead : Nat) :
    pointOf lead tail < (lead + 1) * 64 ^ tail.length := by
  induction tail generalizing lead with
  | nil => simp [pointOf]
  | cons byte tail ih =>
      have next := ih (lead * 64 + byte.toNat % 64)
      rw [pointOf, List.foldl_cons, ← pointOf, List.length_cons, pow_succ']
      calc pointOf (lead * 64 + byte.toNat % 64) tail
          < (lead * 64 + byte.toNat % 64 + 1) * 64 ^ tail.length := next
        _ ≤ ((lead + 1) * 64) * 64 ^ tail.length := Nat.mul_le_mul_right _ (by omega)
        _ = (lead + 1) * (64 * 64 ^ tail.length) := Nat.mul_assoc _ _ _

/-- What the check refuses in a code point of so many continuation bytes. -/
def Refused (count point : Nat) : Prop :=
  count = 1 ∧ point < 0x80 ∨ count = 2 ∧ point < 0x800 ∨ count = 3 ∧ point < 0x10000
    ∨ 0x10ffff < point ∨ 0xd800 ≤ point ∧ point ≤ 0xdfff

theorem refused_iff (count : Nat) (point : UInt32) :
    (utf8Overlong count point || point > 0x10ffff || (point ≥ 0xd800 && point ≤ 0xdfff)) = true
      ↔ Refused count point.toNat := by
  have values : (0x80 : UInt32).toNat = 0x80 ∧ (0x800 : UInt32).toNat = 0x800
      ∧ (0x10000 : UInt32).toNat = 0x10000 ∧ (0x10ffff : UInt32).toNat = 0x10ffff
      ∧ (0xd800 : UInt32).toNat = 0xd800 ∧ (0xdfff : UInt32).toNat = 0xdfff := by decide
  simp only [utf8Overlong, Refused, Bool.or_eq_true, Bool.and_eq_true, beq_iff_eq, decide_eq_true_eq,
    UInt32.lt_iff_toNat_lt, UInt32.le_iff_toNat_le, gt_iff_lt, ge_iff_le, values, or_assoc]

theorem continuationCount_lead {first : UInt8} {rest : List UInt8} {announced lead count : Nat}
    (large : ¬ first ≤ 0x7f) (leads : utf8Lead first = some (announced, .ofNat lead))
    (small : lead < 32) (few : announced ≤ 3) :
    continuationCount first rest = some count
      ↔ count = announced ∧ announced ≤ rest.length
        ∧ (∀ byte ∈ rest.take announced, 0x80 ≤ byte.toNat ∧ byte.toNat < 0xc0)
        ∧ ¬ Refused announced (pointOf lead (rest.take announced)) := by
  have short : (rest.take announced).length ≤ 3 := by
    rw [List.length_take]
    omega
  rw [continuationCount, if_neg large, leads]
  dsimp only
  by_cases enough : rest.length < announced
  · rw [if_pos enough]
    constructor
    · intro impossible
      cases impossible
    · rintro ⟨-, fits, -⟩
      exact absurd enough (Nat.not_lt.2 fits)
  rw [if_neg enough]
  have tails : (rest.take announced).all (fun byte => byte &&& 0xc0 == 0x80) = true
      ↔ ∀ byte ∈ rest.take announced, 0x80 ≤ byte.toNat ∧ byte.toNat < 0xc0 := by
    rw [List.all_eq_true]
    exact forall₂_congr fun byte _ => continues_iff byte
  by_cases continued : (rest.take announced).all (fun byte => byte &&& 0xc0 == 0x80) = true
  · rw [continued, if_neg (by decide)]
    have decides := refused_iff announced
      (utf8CodePoint (.ofNat lead) (rest.take announced))
    rw [codePoint_eq short small] at decides
    by_cases refused : Refused announced (pointOf lead (rest.take announced))
    · rw [if_pos (decides.2 refused)]
      constructor
      · intro impossible
        cases impossible
      · rintro ⟨-, -, -, good⟩
        exact absurd refused good
    · rw [if_neg fun bad => refused (decides.1 bad), Option.some.injEq]
      constructor
      · intro same
        exact ⟨same.symm, Nat.not_lt.1 enough, tails.1 continued, refused⟩
      · rintro ⟨same, -⟩
        exact same.symm
  · rw [Bool.not_eq_true] at continued
    rw [continued, if_pos (show (!false) = true from rfl)]
    constructor
    · intro impossible
      cases impossible
    · rintro ⟨-, -, all, -⟩
      rw [tails.2 all] at continued
      cases continued

/-- The check takes a sequence whole, and nothing else. -/
theorem continuationCount_iff {first : UInt8} {rest : List UInt8} {count : Nat} :
    continuationCount first rest = some count
      ↔ count ≤ rest.length ∧ Sequence first (rest.take count) := by
  have leads := utf8Lead_eq first
  have bound := pointOf_lt (rest.take count)
  by_cases plain : first ≤ 0x7f
  · have small : first.toNat < 0x80 := Nat.lt_succ_of_le (UInt8.le_iff_toNat_le.1 plain)
    rw [continuationCount, if_pos plain, Option.some.injEq]
    constructor
    · rintro rfl
      exact ⟨Nat.zero_le _, by simp [Sequence, small]⟩
    · rintro ⟨fits, -, sequence⟩
      rw [List.length_take_of_le fits] at sequence
      omega
  have large : 0x80 ≤ first.toNat := by
    rw [UInt8.le_iff_toNat_le] at plain
    exact Nat.lt_of_not_le plain
  by_cases one : 0xc0 ≤ first.toNat ∧ first.toNat < 0xe0
  · rw [if_pos one] at leads
    rw [continuationCount_lead plain leads (by omega) (by omega)]
    constructor
    · rintro ⟨rfl, fits, tails, good⟩
      rw [Refused] at good
      refine ⟨fits, tails, .inr (.inl ?_)⟩
      rw [List.length_take_of_le fits]
      omega
    · rintro ⟨fits, tails, sequence⟩
      have total := bound (first.toNat - 0xc0)
      rw [List.length_take_of_le fits] at sequence total
      obtain rfl : count = 1 := by omega
      refine ⟨rfl, fits, tails, ?_⟩
      rw [Refused]
      omega
  by_cases two : 0xe0 ≤ first.toNat ∧ first.toNat < 0xf0
  · rw [if_neg one, if_pos two] at leads
    rw [continuationCount_lead plain leads (by omega) (by omega)]
    constructor
    · rintro ⟨rfl, fits, tails, good⟩
      rw [Refused] at good
      refine ⟨fits, tails, .inr (.inr (.inl ?_))⟩
      rw [List.length_take_of_le fits]
      omega
    · rintro ⟨fits, tails, sequence⟩
      have total := bound (first.toNat - 0xe0)
      rw [List.length_take_of_le fits] at sequence total
      obtain rfl : count = 2 := by omega
      refine ⟨rfl, fits, tails, ?_⟩
      rw [Refused]
      omega
  by_cases three : 0xf0 ≤ first.toNat ∧ first.toNat < 0xf8
  · rw [if_neg one, if_neg two, if_pos three] at leads
    rw [continuationCount_lead plain leads (by omega) (by omega)]
    constructor
    · rintro ⟨rfl, fits, tails, good⟩
      rw [Refused] at good
      refine ⟨fits, tails, .inr (.inr (.inr ?_))⟩
      rw [List.length_take_of_le fits]
      omega
    · rintro ⟨fits, tails, sequence⟩
      rw [List.length_take_of_le fits] at sequence
      obtain rfl : count = 3 := by omega
      refine ⟨rfl, fits, tails, ?_⟩
      rw [Refused]
      omega
  · rw [if_neg one, if_neg two, if_neg three] at leads
    rw [continuationCount, if_neg plain, leads]
    constructor
    · intro impossible
      cases impossible
    · rintro ⟨fits, -, sequence⟩
      rw [List.length_take_of_le fits] at sequence
      omega

/-! ## Characters -/

theorem toNat_ofNat_byte {n : Nat} (small : n < 256) : (UInt8.ofNat n).toNat = n :=
  UInt8.toNat_ofNat_of_lt' small

/-- The bytes of a character are a sequence. -/
theorem sequence_char (c : Char) :
    ∃ first tail, String.utf8EncodeChar c = first :: tail ∧ Sequence first tail := by
  have range : c.val.toNat < 0xd800 ∨ 0xdfff < c.val.toNat ∧ c.val.toNat < 0x110000 := c.valid
  have value {n : Nat} (small : n < 256) := toNat_ofNat_byte small
  rw [String.utf8EncodeChar]
  generalize c.val.toNat = point at *
  split
  · exact ⟨_, [], rfl, by simp, .inl ⟨rfl, by rw [value (by omega)]; omega⟩⟩
  · split
    · refine ⟨_, _, rfl, ?_, .inr (.inl ?_)⟩
      · simp only [List.forall_mem_cons, List.not_mem_nil, false_imp_iff, implies_true, and_true]
        rw [value (by omega)]
        omega
      · simp only [pointOf, List.foldl_cons, List.foldl_nil]
        rw [value (by omega), value (by omega)]
        refine ⟨rfl, ?_, ?_, ?_⟩ <;> omega
    · split
      · refine ⟨_, _, rfl, ?_, .inr (.inr (.inl ?_))⟩
        · simp only [List.forall_mem_cons, List.not_mem_nil, false_imp_iff, implies_true, and_true]
          rw [value (by omega), value (by omega)]
          omega
        · simp only [pointOf, List.foldl_cons, List.foldl_nil]
          rw [value (by omega), value (by omega), value (by omega)]
          refine ⟨rfl, ?_, ?_, ?_, ?_⟩ <;> omega
      · refine ⟨_, _, rfl, ?_, .inr (.inr (.inr ?_))⟩
        · simp only [List.forall_mem_cons, List.not_mem_nil, false_imp_iff, implies_true, and_true]
          rw [value (by omega), value (by omega), value (by omega)]
          omega
        · simp only [pointOf, List.foldl_cons, List.foldl_nil]
          rw [value (by omega), value (by omega), value (by omega), value (by omega)]
          refine ⟨rfl, ?_, ?_, ?_, ?_⟩ <;> omega

theorem ofNat_byte {n : Nat} {byte : UInt8} (same : n = byte.toNat) : UInt8.ofNat n = byte := by
  rw [same, UInt8.ofNat_toNat]

/-- A sequence is the encoding of a character. -/
theorem char_sequence {first : UInt8} {tail : List UInt8} (sequence : Sequence first tail) :
    ∃ c : Char, String.utf8EncodeChar c = first :: tail := by
  have encodes (point : Nat) (valid : point.isValidChar) :
      ∃ c : Char, c.val.toNat = point := ⟨Char.ofNatAux point valid, rfl⟩
  obtain ⟨tails, one | two | three | four⟩ := sequence
  · obtain ⟨none, small⟩ := one
    obtain ⟨c, same⟩ := encodes first.toNat (.inl (by omega))
    refine ⟨c, ?_⟩
    rw [String.utf8EncodeChar, same, List.length_eq_zero_iff.1 none]
    rw [if_pos (by omega), ofNat_byte rfl]
  · obtain ⟨length, low, high, least⟩ := two
    obtain ⟨a, rfl⟩ := List.length_eq_one_iff.1 length
    simp only [pointOf, List.foldl_cons, List.foldl_nil, List.forall_mem_cons, List.not_mem_nil,
      false_imp_iff, implies_true, and_true] at least tails
    obtain ⟨c, same⟩ := encodes ((first.toNat - 0xc0) * 64 + a.toNat % 64) (.inl (by omega))
    refine ⟨c, ?_⟩
    rw [String.utf8EncodeChar, same]
    rw [if_neg (by omega), if_pos (by omega)]
    exact congrArg₂ List.cons (ofNat_byte (by omega)) (congrArg (fun b => [b]) (ofNat_byte (by omega)))
  · obtain ⟨length, low, high, least, apart⟩ := three
    obtain ⟨a, b, rfl⟩ := List.length_eq_two.1 length
    simp only [pointOf, List.foldl_cons, List.foldl_nil, List.forall_mem_cons, List.not_mem_nil,
      false_imp_iff, implies_true, and_true] at least apart tails
    obtain ⟨c, same⟩ := encodes (((first.toNat - 0xe0) * 64 + a.toNat % 64) * 64 + b.toNat % 64) (by
      rw [Nat.isValidChar]
      omega)
    refine ⟨c, ?_⟩
    rw [String.utf8EncodeChar, same]
    rw [if_neg (by omega), if_neg (by omega), if_pos (by omega)]
    exact congrArg₂ List.cons (ofNat_byte (by omega)) (congrArg₂ (fun b d => [b, d])
      (ofNat_byte (by omega)) (ofNat_byte (by omega)))
  · obtain ⟨length, low, high, least, most⟩ := four
    obtain ⟨a, b, d, rfl⟩ := List.length_eq_three.1 length
    simp only [pointOf, List.foldl_cons, List.foldl_nil, List.forall_mem_cons, List.not_mem_nil,
      false_imp_iff, implies_true, and_true] at least most tails
    obtain ⟨c, same⟩ := encodes
      ((((first.toNat - 0xf0) * 64 + a.toNat % 64) * 64 + b.toNat % 64) * 64 + d.toNat % 64) (by
      rw [Nat.isValidChar]
      omega)
    refine ⟨c, ?_⟩
    rw [String.utf8EncodeChar, same]
    rw [if_neg (by omega), if_neg (by omega), if_neg (by omega)]
    refine congrArg₂ List.cons (ofNat_byte (by omega)) (congrArg₂ List.cons (ofNat_byte (by omega)) ?_)
    exact congrArg₂ (fun b d => [b, d]) (ofNat_byte (by omega)) (ofNat_byte (by omega))

/-- The check accepts exactly the encodings. -/
theorem isValidUtf8_iff {text : List UInt8} :
    isValidUtf8 text = true ↔ ∃ cs, text = Theory.Utf8.utf8 cs := by
  constructor
  · intro valid
    induction size : text.length using Nat.strong_induction_on generalizing text with
    | _ size ih =>
        cases text with
        | nil => exact ⟨[], rfl⟩
        | cons first rest =>
            rw [isValidUtf8_cons] at valid
            cases counts : continuationCount first rest with
            | none =>
                rw [counts] at valid
                cases valid
            | some count =>
                rw [counts] at valid
                obtain ⟨fits, sequence⟩ := continuationCount_iff.1 counts
                obtain ⟨c, encoded⟩ := char_sequence sequence
                obtain ⟨cs, left⟩ := ih (rest.drop count).length (by
                  rw [← size, List.length_drop, List.length_cons]
                  omega) valid rfl
                refine ⟨c :: cs, ?_⟩
                rw [Theory.Utf8.utf8_cons, encoded, ← left, List.cons_append, List.take_append_drop]
  · rintro ⟨cs, rfl⟩
    induction cs with
    | nil => rfl
    | cons c cs ih =>
        obtain ⟨first, tail, encoded, sequence⟩ := sequence_char c
        have counts : continuationCount first (tail ++ Theory.Utf8.utf8 cs) = some tail.length := by
          rw [continuationCount_iff, List.take_left]
          exact ⟨by simp, sequence⟩
        rw [Theory.Utf8.utf8_cons, encoded, List.cons_append, isValidUtf8_cons, counts]
        dsimp only
        rw [List.drop_left]
        exact ih

end Reb.Analysis

namespace Reb.Evidence

open Reb.Analysis (continuationCount continuationCount_iff continuationCount_le char_sequence
  sequence_char)
open Reb.Theory.Utf8

/-! # The check on artifact metadata -/

/-- The bytes below the printable ones, and the byte of the delete character. -/
def ControlByte (byte : UInt8) : Prop := byte < 0x20 ∨ byte = 0x7f

instance (byte : UInt8) : Decidable (ControlByte byte) := inferInstanceAs (Decidable (_ ∨ _))

/-- A code point that metadata may not hold. -/
def Control (c : Char) : Prop := c.toNat < 0x20 ∨ c.toNat = 0x7f

theorem controlByte_iff (byte : UInt8) :
    (byte < 0x20 || byte == 0x7f) = true ↔ ControlByte byte := by
  simp [ControlByte]

/-- A control byte stands by itself. -/
theorem controlByte_plain {byte : UInt8} (control : ControlByte byte) : byte ≤ 0x7f := by
  revert byte
  decide +kernel

/-- One turn: no control character, then a sequence. -/
theorem isValidUtf8Loop_succ (turns : Nat) (byte : UInt8) (rest : List UInt8) :
    isValidUtf8Loop (turns + 1) (byte :: rest)
      = if ControlByte byte then false
        else match continuationCount byte rest with
          | none => false
          | some count => isValidUtf8Loop turns (rest.drop count) := by
  rw [isValidUtf8Loop, continuationCount]
  by_cases plain : byte ≤ 0x7f
  · rw [if_pos plain, if_pos plain]
    by_cases control : ControlByte byte
    · rw [if_pos control, if_pos ((controlByte_iff byte).2 control)]
    · rw [if_neg control, if_neg fun is => control ((controlByte_iff byte).1 is)]
      rfl
  · rw [if_neg plain, if_neg plain, if_neg fun control => plain (controlByte_plain control)]
    cases utf8Lead byte with
    | none => rfl
    | some announced =>
        obtain ⟨count, lead⟩ := announced
        dsimp only
        split
        · rfl
        · split
          · rfl
          · split
            · rfl
            · rfl

/-- More turns than bytes change nothing. -/
theorem isValidUtf8Loop_turns (turns : Nat) (text : List UInt8) (enough : text.length ≤ turns) :
    isValidUtf8Loop turns text = isValidUtf8 text := by
  rw [isValidUtf8]
  induction turns using Nat.strong_induction_on generalizing text with
  | _ turns ih =>
      cases text with
      | nil => cases turns <;> rfl
      | cons byte rest =>
          rw [List.length_cons] at enough
          obtain ⟨turns, rfl⟩ : ∃ less, turns = less + 1 := ⟨turns - 1, by omega⟩
          rw [List.length_cons, isValidUtf8Loop_succ, isValidUtf8Loop_succ]
          have short (count : Nat) : (rest.drop count).length ≤ rest.length := by simp
          cases continuationCount byte rest with
          | none => rfl
          | some count =>
              dsimp only
              rw [ih turns (Nat.lt_succ_self _) _ ((short count).trans (by omega))]
              rcases Nat.eq_or_lt_of_le enough with same | fewer
              · rw [Nat.succ.inj same, ih turns (Nat.lt_succ_self _) _ ((short count).trans (by omega))]
              · rw [ih rest.length (by omega) _ (short count)]

theorem isValidUtf8_cons (byte : UInt8) (rest : List UInt8) :
    isValidUtf8 (byte :: rest) = true
      ↔ ¬ ControlByte byte ∧ ∃ count, continuationCount byte rest = some count
        ∧ isValidUtf8 (rest.drop count) = true := by
  rw [isValidUtf8, List.length_cons, isValidUtf8Loop_succ]
  by_cases control : ControlByte byte
  · simp [control]
  · rw [if_neg control]
    cases continuationCount byte rest with
    | none => simp
    | some count =>
        dsimp only
        rw [isValidUtf8Loop_turns _ _ (by simp)]
        simp [control]

/-- The first byte of a character is a control byte exactly for the control characters. -/
theorem control_encoded {c : Char} {first : UInt8} {tail : List UInt8}
    (encoded : String.utf8EncodeChar c = first :: tail) : ControlByte first ↔ Control c := by
  have value {n : Nat} (small : n < 256) := Reb.Analysis.toNat_ofNat_byte small
  have bytes (byte : UInt8) : ControlByte byte ↔ byte.toNat < 0x20 ∨ byte.toNat = 0x7f := by
    rw [ControlByte, UInt8.lt_iff_toNat_lt, ← UInt8.toNat_inj]
    exact Iff.rfl
  rw [bytes, Control, Char.toNat]
  rw [String.utf8EncodeChar] at encoded
  generalize c.val.toNat = point at encoded
  split at encoded
  · rw [← (List.cons.inj encoded).1, value (by omega)]
  · split at encoded
    · rw [← (List.cons.inj encoded).1, value (by omega)]
      omega
    · split at encoded
      · rw [← (List.cons.inj encoded).1, value (by omega)]
        omega
      · rw [← (List.cons.inj encoded).1, value (by omega)]
        omega

/-- The check accepts exactly the encodings of texts without control characters. -/
theorem isValidUtf8_printable (text : List UInt8) :
    isValidUtf8 text = true
      ↔ ∃ codePoints : List Char, text = utf8 codePoints
        ∧ ∀ c ∈ codePoints, 0x20 ≤ c.toNat ∧ c.toNat ≠ 0x7f := by
  have printable (c : Char) : (0x20 ≤ c.toNat ∧ c.toNat ≠ 0x7f) ↔ ¬ Control c := by
    rw [Control, not_or, Nat.not_lt]
  simp only [printable]
  constructor
  · intro valid
    induction size : text.length using Nat.strong_induction_on generalizing text with
    | _ size ih =>
        cases text with
        | nil => exact ⟨[], rfl, by simp⟩
        | cons first rest =>
            obtain ⟨fine, count, counts, left⟩ := (isValidUtf8_cons first rest).1 valid
            obtain ⟨fits, sequence⟩ := continuationCount_iff.1 counts
            obtain ⟨c, encoded⟩ := char_sequence sequence
            obtain ⟨cs, same, others⟩ := ih (rest.drop count).length (by
              rw [← size, List.length_drop, List.length_cons]
              omega) _ left rfl
            refine ⟨c :: cs, ?_, List.forall_mem_cons.2 ⟨?_, others⟩⟩
            · rw [utf8_cons, encoded, ← same, List.cons_append, List.take_append_drop]
            · rwa [control_encoded encoded] at fine
  · rintro ⟨cs, rfl, fine⟩
    induction cs with
    | nil => rfl
    | cons c cs ih =>
        obtain ⟨this, others⟩ := List.forall_mem_cons.1 fine
        obtain ⟨first, tail, encoded, sequence⟩ := sequence_char c
        rw [utf8_cons, encoded, List.cons_append, isValidUtf8_cons, control_encoded encoded]
        refine ⟨this, tail.length, ?_, ?_⟩
        · rw [continuationCount_iff, List.take_left]
          exact ⟨by simp, sequence⟩
        · rw [List.drop_left]
          exact ih others

end Reb.Evidence
