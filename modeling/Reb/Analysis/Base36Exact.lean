/-
# Analysis.Base36Exact -- the conversions are exact

Each conversion reads the integer of a signed text and writes its canonical spelling in the
other base, or says that there is no room for it.  On canonical spellings the two undo each
other.
-/
import Reb.Analysis.Base36

namespace Reb.Analysis

set_option autoImplicit false

open Theory.Positional

/-! ## Reading the text -/

theorem splitSign_spelled (sign : Sign) {first : UInt8} (plain : first ≠ 0x2d ∧ first ≠ 0x2b)
    (rest : List UInt8) :
    splitSign (sign.spelled ++ first :: rest) = (sign.negative, first :: rest) := by
  cases sign with
  | none => exact if_neg (by rintro (same | same) <;> simp [same] at plain)
  | plus => rfl
  | minus => rfl

theorem spelled_ascii (sign : Sign) {rest : List UInt8} (ascii : ∀ byte ∈ rest, byte ≤ 0x7f) :
    isValidUtf8 (sign.spelled ++ rest) = true := by
  have whole : ∀ byte ∈ sign.spelled ++ rest, byte ≤ 0x7f := by
    intro byte inside
    rcases List.mem_append.1 inside with front | back
    · cases sign <;> simp only [Sign.spelled, List.not_mem_nil, List.mem_singleton] at front
      all_goals
        subst front
        decide
    · exact ascii byte back
  rw [← List.append_nil (sign.spelled ++ rest), isValidUtf8_blank whole, isValidUtf8_nil]

theorem isDigit_bounds {byte : UInt8} (digit : isDigit byte = true) :
    0x30 ≤ byte.toNat ∧ byte.toNat ≤ 0x39 := by
  simpa [isDigit, UInt8.le_iff_toNat_le] using digit

theorem digit_plain {byte : UInt8} (digit : (base36Value byte).isSome = true) :
    byte ≤ 0x7f ∧ byte ≠ 0x2d ∧ byte ≠ 0x2b := by
  refine ⟨?_, ?_, ?_⟩
  · simp only [base36Value, Bool.and_eq_true, decide_eq_true_eq] at digit
    split at digit
    · exact UInt8.le_trans (by assumption : _ ∧ _).2 (by decide)
    · split at digit
      · exact UInt8.le_trans (by assumption : _ ∧ _).2 (by decide)
      · split at digit
        · exact UInt8.le_trans (by assumption : _ ∧ _).2 (by decide)
        · cases digit
  · rintro rfl
    cases digit
  · rintro rfl
    cases digit

/-- A decimal digit is one in base 36. -/
theorem isDigit_base36 {byte : UInt8} (digit : isDigit byte = true) :
    (base36Value byte).isSome = true := by
  rw [isDigit] at digit
  rw [base36Value, if_pos digit]
  rfl

theorem skipZeros_digits {bytes : List UInt8} (some_digit : bytes ≠ [])
    (digits : ∀ byte ∈ bytes, isDigit byte = true) :
    (skipZeros bytes).all isDigit = true
      ∧ (skipZeros bytes).map (fun byte => byte.toNat - 0x30)
        = decimalOf (value 10 (bytes.map fun byte => byte.toNat - 0x30)) := by
  induction bytes using skipZeros.induct with
  | case1 => exact absurd rfl some_digit
  | case2 last =>
      have bounds := isDigit_bounds (digits last (List.mem_singleton_self last))
      refine ⟨by simpa [skipZeros] using digits last (List.mem_singleton_self last), ?_⟩
      have single : value 10 [last.toNat - 0x30] = last.toNat - 0x30 := by simp [value]
      rw [skipZeros, List.map_singleton, single, decimalOf]
      split
      · next zero => rw [zero]
      · next nonzero => rw [Nat.digits_of_lt 10 _ nonzero (by omega), List.reverse_singleton]
  | case3 next rest ih =>
      obtain ⟨all, same⟩ := ih (List.cons_ne_nil _ _) fun byte inside =>
        digits byte (List.mem_cons_of_mem _ inside)
      rw [skipZeros, if_pos rfl, List.map_cons, value_cons]
      refine ⟨all, same.trans ?_⟩
      congr 1
      rw [show (0x30 : UInt8).toNat - 0x30 = 0 from rfl, Nat.zero_mul, Nat.zero_add]
  | case4 first next rest nonzero =>
      rw [skipZeros, if_neg nonzero]
      refine ⟨List.all_eq_true.2 digits, decimalOf_eq ?_ ?_ (by simp)⟩
      · intro digit inside
        obtain ⟨byte, member, rfl⟩ := List.mem_map.1 inside
        have bounds := isDigit_bounds (digits byte member)
        omega
      · rintro digit ⟨⟩ zero
        have bounds := isDigit_bounds (digits first List.mem_cons_self)
        have low : first.toNat - 0x30 = 0 := zero
        have least : (0x30 : UInt8).toNat = 0x30 := rfl
        exact nonzero (UInt8.toNat_inj.1 (by omega))

/-! ## What is written -/

theorem applied_natAbs (sign : Sign) (magnitude : Nat) :
    (sign.applied magnitude).natAbs = magnitude := by
  rw [Sign.applied]
  split <;> simp

theorem applied_negative (sign : Sign) {magnitude : Nat} (nonzero : magnitude ≠ 0) :
    decide (sign.applied magnitude < 0) = sign.negative := by
  rw [Sign.applied]
  cases sign.negative with
  | false => exact decide_eq_false (Int.not_lt.2 (Int.natCast_nonneg _))
  | true => exact decide_eq_true (by simpa using Nat.pos_of_ne_zero nonzero)

theorem applied_eq_zero {sign : Sign} {magnitude : Nat} :
    sign.applied magnitude = 0 ↔ magnitude = 0 := by
  rw [← Int.natAbs_eq_zero, applied_natAbs]

theorem spelling_applied (base : Nat) (sign : Sign) (magnitude : Nat) :
    spelling base (sign.applied magnitude)
      = if magnitude = 0 then [0x30]
        else signed sign.negative ((Nat.digits base magnitude).reverse.map base36Digit) := by
  rw [spelling, applied_natAbs]
  by_cases zero : magnitude = 0
  · rw [if_pos (applied_eq_zero.2 zero), if_pos zero]
  · rw [if_neg (mt applied_eq_zero.1 zero), if_neg zero, applied_negative sign zero]

theorem signed_length (negative : Bool) (digits : List UInt8) :
    (signed negative digits).length = digits.length + negative.toNat := by
  cases negative <;> simp [signed]

theorem decimalToBase36_spelled (sign : Sign) (first : DecimalDigit) (rest : List DecimalDigit)
    (outputLimit : Nat) :
    decimalToBase36 (sign.spelled ++ (first :: rest).map Subtype.val) outputLimit
      = (let number := sign.applied (value 10 ((first :: rest).map DecimalDigit.value))
        if number ≠ 0 ∧ outputLimit < (spelling 36 number).length then
          .failure .outputLimit "Base36 output exceeds the configured byte limit"
        else .success (spelling 36 number)) := by
  have digits : ∀ byte ∈ (first :: rest).map Subtype.val, isDigit byte = true := by
    intro byte inside
    obtain ⟨digit, _, rfl⟩ := List.mem_map.1 inside
    exact digit.2
  have plain := digit_plain (isDigit_base36 first.2)
  have valid := spelled_ascii sign fun byte inside => (digit_plain (isDigit_base36 (digits byte inside))).1
  have split := splitSign_spelled sign plain.2 (rest.map Subtype.val)
  obtain ⟨all, kept⟩ := skipZeros_digits (show (first :: rest).map Subtype.val ≠ [] by simp) digits
  have values : ((first :: rest).map Subtype.val).map (fun byte => byte.toNat - 0x30)
      = (first :: rest).map DecimalDigit.value := by
    rw [List.map_map]
    rfl
  rw [values] at kept
  have some_byte : sign.spelled ++ (first :: rest).map Subtype.val ≠ [] :=
    List.append_ne_nil_of_right_ne_nil _ (List.cons_ne_nil _ _)
  rw [decimalToBase36, valid, decide_eq_false some_byte]
  rw [← List.map_cons] at split
  simp only [Bool.not_true, Bool.or_false, Bool.false_eq_true, if_false, split, all, kept]
  rw [if_neg (by simp), spelling_applied]
  generalize value 10 ((first :: rest).map DecimalDigit.value) = magnitude
  by_cases zero : magnitude = 0
  · rw [zero, if_pos (show (decimalOf 0).all (· == 0) = true from rfl),
      if_neg fun wrong => wrong.1 (applied_eq_zero.2 rfl)]
    rfl
  · have reverse : decimalOf magnitude = (Nat.digits 10 magnitude).reverse := if_neg zero
    have nonzero : ¬ (decimalOf magnitude).all (· == 0) = true := by
      intro zeros
      have whole := decimalOf_value magnitude
      have none : ∀ digit ∈ decimalOf magnitude, digit = 0 := by simpa using zeros
      rw [List.eq_replicate_of_mem none] at whole
      have powers (count : Nat) : value 10 (List.replicate count 0) = 0 := by
        induction count with
        | zero => rfl
        | succ count ih => rw [List.replicate_succ, value_cons, ih, Nat.zero_mul]
      exact zero (whole.symm.trans (powers _))
    rw [if_neg nonzero, if_neg zero, divisions_eq le_rfl (by
        rw [reverse]
        exact reverse_small (by decide)) (by
        rw [reverse]
        exact digits_head 10 magnitude), decimalOf_value]
    have some_digit : decimalOf magnitude ≠ [] := by
      rw [reverse, ne_eq, List.reverse_eq_nil_iff]
      exact Nat.digits_ne_nil_iff_ne_zero.2 zero
    simp only [signed_length, List.length_map, List.length_reverse, List.length_nil, Nat.zero_add,
      List.nil_append, applied_eq_zero, ne_eq, some_digit, zero, not_false_eq_true, true_and]
    by_cases exceeds : outputLimit < (Nat.digits 36 magnitude).length + sign.negative.toNat
    · rw [if_pos exceeds, if_pos exceeds]
    · rw [if_neg exceeds, if_neg exceeds, List.map_reverse]

theorem base36ToDecimal_spelled (sign : Sign) (first : Base36Digit) (rest : List Base36Digit)
    (outputLimit : Nat) :
    base36ToDecimal (sign.spelled ++ (first :: rest).map Subtype.val) outputLimit
      = (let magnitude := value 36 ((first :: rest).map Base36Digit.value)
        if outputLimit < (spelling 10 magnitude).length + sign.negative.toNat then
          .failure .outputLimit "Decimal output exceeds the configured byte limit"
        else .success (spelling 10 (sign.applied magnitude))) := by
  have plain := digit_plain first.2
  have ascii : ∀ byte ∈ (first :: rest).map Subtype.val, byte ≤ 0x7f := by
    intro byte inside
    obtain ⟨digit, _, rfl⟩ := List.mem_map.1 inside
    exact (digit_plain digit.2).1
  have valid := spelled_ascii sign ascii
  have split := splitSign_spelled sign plain.2 (rest.map Subtype.val)
  have some_byte : sign.spelled ++ (first :: rest).map Subtype.val ≠ [] :=
    List.append_ne_nil_of_right_ne_nil _ (List.cons_ne_nil _ _)
  have folded : (first :: rest).foldl (fun sum digit => sum * 36 + digit.value) 0
      = value 36 ((first :: rest).map Base36Digit.value) := by
    rw [value, List.foldl_map]
  have loops := multiplications_eq outputLimit sign.negative (first :: rest) 0
  rw [folded] at loops
  rw [base36ToDecimal, valid, decide_eq_false some_byte]
  rw [← List.map_cons] at split
  simp only [Bool.not_true, Bool.or_false, Bool.false_eq_true, if_false, split]
  rw [if_neg (by simp), show [0] = decimalOf 0 from rfl, loops]
  generalize value 36 ((first :: rest).map Base36Digit.value) = magnitude
  have length : (spelling 10 magnitude).length = (decimalOf magnitude).length := by
    have positive := spelling_applied 10 .none magnitude
    rw [show Sign.none.applied magnitude = magnitude from rfl] at positive
    rw [positive, decimalOf]
    split
    · rfl
    · rw [signed_length, List.length_map]
      rfl
  simp only [ne_eq, reduceCtorEq, not_false_eq_true, true_and, length, spelling_applied]
  by_cases exceeds : outputLimit < (decimalOf magnitude).length + sign.negative.toNat
  · rw [if_pos exceeds, if_pos exceeds]
  · rw [if_neg exceeds, if_neg exceeds]
    dsimp only
    by_cases zero : magnitude = 0
    · rw [zero]
      rfl
    · have leads := digits_head 10 magnitude
      rw [decimalOf, if_neg zero, if_neg zero]
      have some_digit : (Nat.digits 10 magnitude).reverse ≠ [] := by
        rw [ne_eq, List.reverse_eq_nil_iff]
        exact Nat.digits_ne_nil_iff_ne_zero.2 zero
      have same : (Nat.digits 10 magnitude).reverse.map decimalDigit
          = (Nat.digits 10 magnitude).reverse.map base36Digit :=
        List.map_congr_left fun digit inside => decimalDigit_eq (reverse_small (by decide) digit inside)
      have kept : (Nat.digits 10 magnitude).reverse.dropWhile (· == 0)
          = (Nat.digits 10 magnitude).reverse := by
        generalize (Nat.digits 10 magnitude).reverse = digits at *
        cases digits with
        | nil => rfl
        | cons digit digits => exact List.dropWhile_cons_of_neg (by simpa using leads digit rfl)
      rw [kept, if_neg some_digit, same]

/-! ## Canonical spellings -/

/-- The digits of a canonical spelling. -/
def digitsOf (base number : Nat) : List Nat :=
  if number = 0 then [0] else (Nat.digits base number).reverse

theorem digitsOf_small {base : Nat} (large : 1 < base) (number : Nat) :
    ∀ digit ∈ digitsOf base number, digit < base := by
  rw [digitsOf]
  split
  · intro digit inside
    rw [List.mem_singleton.1 inside]
    omega
  · exact reverse_small large

theorem digitsOf_value (base number : Nat) : value base (digitsOf base number) = number := by
  rw [digitsOf]
  split
  · next zero => rw [zero, value_cons, Nat.zero_mul]; rfl
  · exact value_digits number

theorem digitsOf_ne_nil (base number : Nat) : digitsOf base number ≠ [] := by
  rw [digitsOf]
  split
  · exact List.cons_ne_nil _ _
  · next nonzero =>
      rw [ne_eq, List.reverse_eq_nil_iff]
      exact Nat.digits_ne_nil_iff_ne_zero.2 nonzero

def signOf (number : Int) : Sign := if number < 0 then .minus else .none

theorem signOf_applied (number : Int) : (signOf number).applied number.natAbs = number := by
  rw [signOf]
  split
  · next negative =>
      rw [Sign.applied, if_pos (show Sign.minus.negative = true from rfl)]
      omega
  · next positive =>
      rw [Sign.applied, if_neg (by decide)]
      omega

theorem spelling_digits (base : Nat) (number : Int) :
    spelling base number
      = (signOf number).spelled ++ (digitsOf base number.natAbs).map base36Digit := by
  rw [spelling, digitsOf, signOf]
  by_cases zero : number = 0
  · subst zero
    rfl
  · rw [if_neg zero, if_neg (mt Int.natAbs_eq_zero.1 zero)]
    by_cases negative : number < 0
    · rw [decide_eq_true negative, if_pos negative]
      rfl
    · rw [decide_eq_false negative, if_neg negative]
      rfl

theorem exists_decimal {digits : List Nat} (small : ∀ digit ∈ digits, digit < 10) :
    ∃ text : List DecimalDigit,
      text.map Subtype.val = digits.map base36Digit ∧ text.map DecimalDigit.value = digits := by
  induction digits with
  | nil => exact ⟨[], rfl, rfl⟩
  | cons digit digits ih =>
      rw [List.forall_mem_cons] at small
      obtain ⟨text, spelled, values⟩ := ih small.2
      have back : (base36Digit digit).toNat - 0x30 = digit := by
        have all : ∀ digit < 10, (base36Digit digit).toNat - 0x30 = digit := by decide +kernel
        exact all digit small.1
      refine ⟨⟨base36Digit digit, isDigit_decimal small.1⟩ :: text, ?_, ?_⟩
      · rw [List.map_cons, List.map_cons, spelled]
      · rw [List.map_cons, values]
        exact congrArg (· :: digits) back

theorem exists_base36 {digits : List Nat} (small : ∀ digit ∈ digits, digit < 36) :
    ∃ text : List Base36Digit,
      text.map Subtype.val = digits.map base36Digit ∧ text.map Base36Digit.value = digits := by
  induction digits with
  | nil => exact ⟨[], rfl, rfl⟩
  | cons digit digits ih =>
      rw [List.forall_mem_cons] at small
      obtain ⟨text, spelled, values⟩ := ih small.2
      have read := base36Value_digit small.1
      have some_value : (base36Value (base36Digit digit)).isSome = true := by rw [read]; rfl
      refine ⟨⟨base36Digit digit, some_value⟩ :: text, ?_, ?_⟩
      · rw [List.map_cons, List.map_cons, spelled]
      · rw [List.map_cons, values]
        exact congrArg (· :: digits) ((Option.get_of_eq_some _ read))

theorem decimalToBase36_spelling (number : Int) (extra : Nat) :
    decimalToBase36 (spelling 10 number) ((spelling 36 number).length + extra)
      = .success (spelling 36 number) := by
  obtain ⟨text, spelled, values⟩ := exists_decimal (digitsOf_small (by decide) number.natAbs)
  rw [spelling_digits 10, ← spelled]
  cases text with
  | nil => exact absurd values.symm (digitsOf_ne_nil 10 number.natAbs)
  | cons first rest =>
      rw [decimalToBase36_spelled]
      simp only [values, digitsOf_value, signOf_applied]
      rw [if_neg (by omega)]

theorem base36ToDecimal_spelling (number : Int) (extra : Nat) :
    base36ToDecimal (spelling 36 number) ((spelling 10 number).length + extra)
      = .success (spelling 10 number) := by
  obtain ⟨text, spelled, values⟩ := exists_base36 (digitsOf_small (by decide) number.natAbs)
  have length : (spelling 10 number).length
      = (spelling 10 (number.natAbs : Int)).length + (signOf number).negative.toNat := by
    have positive : signOf number.natAbs = .none := if_neg (by omega)
    rw [spelling_digits 10, spelling_digits 10 (number.natAbs : Int), positive, Int.natAbs_natCast,
      List.length_append, List.length_append, signOf]
    split
    · rw [show Sign.none.spelled.length = 0 from rfl, Nat.zero_add, Nat.add_comm]
      rfl
    · rfl
  rw [spelling_digits 36, ← spelled]
  cases text with
  | nil => exact absurd values.symm (digitsOf_ne_nil 36 number.natAbs)
  | cons first rest =>
      rw [base36ToDecimal_spelled]
      simp only [values, digitsOf_value, signOf_applied]
      rw [if_neg (by omega)]

/-! ## The loops end -/

theorem skipZeros_all {bytes : List UInt8} (digits : (skipZeros bytes).all isDigit = true) :
    ∀ byte ∈ bytes, isDigit byte = true := by
  induction bytes using skipZeros.induct with
  | case1 => simp
  | case2 last => simpa [skipZeros] using digits
  | case3 next rest ih =>
      rw [skipZeros, if_pos rfl] at digits
      exact List.forall_mem_cons.2 ⟨rfl, ih digits⟩
  | case4 first next rest nonzero =>
      rw [skipZeros, if_neg nonzero] at digits
      exact List.all_eq_true.1 digits

theorem decimalToBase36_ends (input : List UInt8) (outputLimit : Nat) :
    (decimalToBase36 input outputLimit).status ≠ .internalError := by
  rw [decimalToBase36]
  dsimp only
  split
  · simp [DecoderResult.failure]
  split
  · simp [DecoderResult.failure]
  rename_i some_digit
  split
  · simp [DecoderResult.failure]
  rename_i all
  have digits : (skipZeros (splitSign input).2).all isDigit = true := by simpa using all
  obtain ⟨_, kept⟩ := skipZeros_digits some_digit (skipZeros_all digits)
  rw [kept]
  generalize value 10 ((splitSign input).2.map fun byte => byte.toNat - 0x30) = number
  split
  · simp [DecoderResult.success]
  rename_i nonzero
  have reverse : decimalOf number = (Nat.digits 10 number).reverse := by
    refine if_neg ?_
    rintro rfl
    exact nonzero rfl
  rw [divisions_eq le_rfl (by rw [reverse]; exact reverse_small (by decide))
    (by rw [reverse]; exact digits_head 10 number)]
  by_cases exceeds : decimalOf number ≠ [] ∧ outputLimit
      < ([] : List UInt8).length + (Nat.digits 36 (value 10 (decimalOf number))).length
        + (splitSign input).1.toNat
  · rw [if_pos exceeds]
    simp [DecoderResult.failure]
  · rw [if_neg exceeds]
    simp [DecoderResult.success]

theorem multiplications_ends (outputLimit : Nat) (negative : Bool) (bytes : List UInt8)
    (number : Nat) : ∀ failure,
      multiplications outputLimit negative bytes (decimalOf number) = .inl failure →
        failure.status ≠ .internalError := by
  induction bytes generalizing number with
  | nil => simp [multiplications]
  | cons byte bytes ih =>
      intro failure ends
      rw [multiplications] at ends
      cases read : base36Value byte with
      | none =>
          rw [read] at ends
          cases ends
          decide
      | some digit =>
          have small := base36Value_lt ⟨byte, by rw [read]; rfl⟩
          have same : Base36Digit.value ⟨byte, by rw [read]; rfl⟩ = digit :=
            Option.get_of_eq_some _ read
          rw [same] at small
          rw [read] at ends
          dsimp only at ends
          rw [addDigit_eq small] at ends
          dsimp only at ends
          split at ends
          · cases ends
            decide
          · exact ih _ failure ends

theorem base36ToDecimal_ends (input : List UInt8) (outputLimit : Nat) :
    (base36ToDecimal input outputLimit).status ≠ .internalError := by
  rw [base36ToDecimal]
  dsimp only
  split
  · simp [DecoderResult.failure]
  split
  · simp [DecoderResult.failure]
  split
  · next failure ends => exact multiplications_ends outputLimit _ _ 0 failure ends
  · split <;> simp [DecoderResult.success]

/-- Both conversions are exact on texts of any length: each writes the canonical spelling of
the integer that it reads if there is room, they undo each other on canonical spellings, and
their loops end on every input. -/
theorem base36_exact :
    (∀ (sign : Sign) (first : DecimalDigit) (rest : List DecimalDigit) (outputLimit : Nat),
      decimalToBase36 (sign.spelled ++ (first :: rest).map Subtype.val) outputLimit
        = (let number := sign.applied (value 10 ((first :: rest).map DecimalDigit.value))
          if number ≠ 0 ∧ outputLimit < (spelling 36 number).length then
            .failure .outputLimit "Base36 output exceeds the configured byte limit"
          else .success (spelling 36 number)))
    ∧ (∀ (sign : Sign) (first : Base36Digit) (rest : List Base36Digit) (outputLimit : Nat),
      base36ToDecimal (sign.spelled ++ (first :: rest).map Subtype.val) outputLimit
        = (let magnitude := value 36 ((first :: rest).map Base36Digit.value)
          if outputLimit < (spelling 10 magnitude).length + sign.negative.toNat then
            .failure .outputLimit "Decimal output exceeds the configured byte limit"
          else .success (spelling 10 (sign.applied magnitude))))
    ∧ (∀ (number : Int) (extra : Nat),
      decimalToBase36 (spelling 10 number) ((spelling 36 number).length + extra)
          = .success (spelling 36 number)
        ∧ base36ToDecimal (spelling 36 number) ((spelling 10 number).length + extra)
          = .success (spelling 10 number))
    ∧ ∀ (input : List UInt8) (outputLimit : Nat),
      (decimalToBase36 input outputLimit).status ≠ .internalError
        ∧ (base36ToDecimal input outputLimit).status ≠ .internalError :=
  ⟨decimalToBase36_spelled, base36ToDecimal_spelled,
    fun number extra => ⟨decimalToBase36_spelling number extra, base36ToDecimal_spelling number extra⟩,
    fun input outputLimit =>
      ⟨decimalToBase36_ends input outputLimit, base36ToDecimal_ends input outputLimit⟩⟩

end Reb.Analysis
