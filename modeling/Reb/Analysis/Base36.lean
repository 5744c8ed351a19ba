/-
# Analysis.Base36 -- integers of any size in base 36

`DecimalToBase36` divides a list of decimal digits in place, and `Base36ToDecimal` multiplies
one.  Either writes the canonical spelling of the integer that it reads, if that fits
(`decimalToBase36_exact`, `base36ToDecimal_exact`).  A loop that would not end within its
turns is an internal error of the model; no input gets there.
-/
import Reb.Analysis.JsonFormatter
import Reb.Theory.Decimal
import Reb.Theory.Positional

namespace Reb.Analysis

set_option autoImplicit false

open Theory.Positional

def kDigits : List UInt8 := Theory.Decimal.ascii "0123456789abcdefghijklmnopqrstuvwxyz"

def base36Digit (digit : Nat) : UInt8 := kDigits.getD digit 0

def decimalDigit (digit : Nat) : UInt8 := .ofNat (0x30 + digit)

def base36Value (byte : UInt8) : Option Nat :=
  if 0x30 ≤ byte && byte ≤ 0x39 then some (byte.toNat - 0x30)
  else if 0x61 ≤ byte && byte ≤ 0x7a then some (byte.toNat - 0x61 + 10)
  else if 0x41 ≤ byte && byte ≤ 0x5a then some (byte.toNat - 0x41 + 10)
  else none

/-- The sign at the start of an integer, and what follows it. -/
def splitSign : List UInt8 → Bool × List UInt8
  | [] => (false, [])
  | first :: rest => if first = 0x2d ∨ first = 0x2b then (first == 0x2d, rest) else (false, first :: rest)

def signed (negative : Bool) (digits : List UInt8) : List UInt8 :=
  if negative then 0x2d :: digits else digits

/-! ## To base 36 -/

/-- How a loop ends. -/
inductive LoopEnd where
  | outOfTurns | overLimit
  | done (digits : List UInt8)
  deriving DecidableEq, Repr

/-- Zeros in front of another digit are skipped. -/
def skipZeros : List UInt8 → List UInt8
  | [] => []
  | [last] => [last]
  | first :: next :: rest => if first = 0x30 then skipZeros (next :: rest) else first :: next :: rest

/-- The loop of divisions: the digits in base 36, the last one first. -/
def divisions (outputLimit : Nat) (negative : Bool) : Nat → List Nat → List UInt8 → LoopEnd
  | turns, decimal, reversed =>
      if decimal = [] then .done reversed
      else
        match turns with
        | 0 => .outOfTurns
        | turns + 1 =>
            let (quotient, remainder) := divide 10 36 decimal 0
            let reversed := reversed ++ [base36Digit remainder]
            if reversed.length + negative.toNat > outputLimit then .overLimit
            else divisions outputLimit negative turns (quotient.dropWhile (· == 0)) reversed

def decimalToBase36 (input : List UInt8) (outputLimit : Nat) : DecoderResult :=
  let invalid : DecoderResult :=
    .failure .invalidInput "Base36 encoding requires a decimal integer"
  if input = [] || !isValidUtf8 input then invalid
  else
    let (negative, rest) := splitSign input
    if rest = [] then invalid
    else if !(skipZeros rest).all isDigit then invalid
    else
      let decimal := (skipZeros rest).map fun byte => byte.toNat - 0x30
      if decimal.all (· == 0) then .success [0x30]
      else
        match divisions outputLimit negative decimal.length decimal [] with
        | .outOfTurns => .failure .internalError ""
        | .overLimit => .failure .outputLimit "Base36 output exceeds the configured byte limit"
        | .done reversed => .success (signed negative reversed.reverse)

/-! ## To decimal -/

/-- The loop over the carry that is left. -/
def pushCarry : Nat → Nat → List Nat → Option (List Nat)
  | turns, carry, decimal =>
      if carry = 0 then some decimal
      else
        match turns with
        | 0 => none
        | turns + 1 => pushCarry turns (carry / 10) (carry % 10 :: decimal)

/-- The decimal digits times 36, and a digit more. -/
def addDigit (digit : Nat) (decimal : List Nat) : Option (List Nat) :=
  let (decimal, carry) := multiply 10 36 digit decimal
  pushCarry carry carry decimal

/-- The loop over the digits in base 36. -/
def multiplications (outputLimit : Nat) (negative : Bool) :
    List UInt8 → List Nat → DecoderResult ⊕ List Nat
  | [], decimal => .inr decimal
  | byte :: rest, decimal =>
      match base36Value byte with
      | none => .inl (.failure .invalidInput "Base36 input contains an invalid character")
      | some digit =>
          match addDigit digit decimal with
          | none => .inl (.failure .internalError "")
          | some decimal =>
              if decimal.length + negative.toNat > outputLimit then
                .inl (.failure .outputLimit "Decimal output exceeds the configured byte limit")
              else multiplications outputLimit negative rest decimal

def base36ToDecimal (input : List UInt8) (outputLimit : Nat) : DecoderResult :=
  let invalid : DecoderResult := .failure .invalidInput "Base36 decoding requires an integer"
  if input = [] || !isValidUtf8 input then invalid
  else
    let (negative, rest) := splitSign input
    if rest = [] then invalid
    else
      match multiplications outputLimit negative rest [0] with
      | .inl failure => failure
      | .inr decimal =>
          let digits := decimal.dropWhile (· == 0)
          if digits = [] then .success [0x30]
          else .success (signed negative (digits.map decimalDigit))

/-! ## Spellings -/

/-- The one spelling of an integer without leading zeros, and without a sign if it is zero
or more. -/
def spelling (base : Nat) (number : Int) : List UInt8 :=
  if number = 0 then [0x30]
  else signed (decide (number < 0)) ((Nat.digits base number.natAbs).reverse.map base36Digit)

inductive Sign where
  | none | plus | minus
  deriving DecidableEq, Repr

def Sign.spelled : Sign → List UInt8
  | .none => []
  | .plus => [0x2b]
  | .minus => [0x2d]

def Sign.negative (sign : Sign) : Bool := sign == .minus

def Sign.applied (sign : Sign) (magnitude : Nat) : Int := if sign.negative then -magnitude else magnitude

/-- A digit in base 36, in either letter case. -/
abbrev Base36Digit := { byte : UInt8 // (base36Value byte).isSome = true }

def Base36Digit.value (digit : Base36Digit) : Nat := (base36Value digit.1).get digit.2

abbrev DecimalDigit := { byte : UInt8 // isDigit byte = true }

def DecimalDigit.value (digit : DecimalDigit) : Nat := digit.1.toNat - 0x30

/-! ## Digits -/

theorem base36Value_digit {digit : Nat} (small : digit < 36) :
    base36Value (base36Digit digit) = some digit := by
  have all : ∀ digit < 36, base36Value (base36Digit digit) = some digit := by decide +kernel
  exact all digit small

theorem decimalDigit_eq {digit : Nat} (small : digit < 10) : decimalDigit digit = base36Digit digit := by
  have all : ∀ digit < 10, decimalDigit digit = base36Digit digit := by decide +kernel
  exact all digit small

theorem isDigit_decimal {digit : Nat} (small : digit < 10) : isDigit (base36Digit digit) = true := by
  have all : ∀ digit < 10, isDigit (base36Digit digit) = true := by decide +kernel
  exact all digit small

theorem digits_head (base number : Nat) :
    ∀ digit ∈ (Nat.digits base number).reverse.head?, digit ≠ 0 := by
  intro digit first zero
  rw [List.head?_reverse] at first
  have some_digit : Nat.digits base number ≠ [] := by
    intro none
    rw [none] at first
    cases first
  rw [List.getLast?_eq_some_getLast some_digit] at first
  refine Nat.getLast_digit_ne_zero base (m := number) ?_ ?_
  · rintro rfl
    exact some_digit (Nat.digits_zero base)
  · exact (Option.some.inj first).trans zero

theorem reverse_small {base number : Nat} (large : 1 < base) :
    ∀ digit ∈ (Nat.digits base number).reverse, digit < base := fun _ inside =>
  Nat.digits_lt_base large (List.mem_reverse.1 inside)

/-! ## Divisions -/

section Divisions

variable {outputLimit turns : Nat} {negative : Bool} {decimal : List Nat} {reversed : List UInt8}

/-- One turn takes the last digit in base 36 off. -/
theorem divide_turn {first : Nat} {rest : List Nat} (small : ∀ digit ∈ first :: rest, digit < 10) :
    (divide 10 36 (first :: rest) 0).2 = value 10 (first :: rest) % 36
      ∧ value 10 ((divide 10 36 (first :: rest) 0).1.dropWhile (· == 0)) = value 10 (first :: rest) / 36
      ∧ ((divide 10 36 (first :: rest) 0).1.dropWhile (· == 0)).length ≤ rest.length := by
  have whole := divide_value 10 36 (first :: rest) 0
  have less := divide_remainder 10 (show 0 < 36 by decide) (first :: rest) (show 0 < 36 by decide)
  rw [Nat.zero_mul, Nat.zero_add] at whole
  refine ⟨by omega, by rw [value_trimmed]; omega, ?_⟩
  have low : (0 * 10 + first) / 36 = 0 := by
    have bound := small first List.mem_cons_self
    omega
  rw [divide, low, List.dropWhile_cons_of_pos (by rfl)]
  calc _ ≤ (divide 10 36 rest ((0 * 10 + first) % 36)).1.length := (List.dropWhile_sublist _).length_le
    _ = rest.length := divide_length _ _

theorem divisions_eq (enough : decimal.length ≤ turns) (small : ∀ digit ∈ decimal, digit < 10)
    (leads : ∀ digit ∈ decimal.head?, digit ≠ 0) :
    divisions outputLimit negative turns decimal reversed
      = if decimal ≠ [] ∧ outputLimit
            < reversed.length + (Nat.digits 36 (value 10 decimal)).length + negative.toNat then .overLimit
        else .done (reversed ++ (Nat.digits 36 (value 10 decimal)).map base36Digit) := by
  induction turns generalizing decimal reversed with
  | zero =>
      rw [List.length_eq_zero_iff.1 (Nat.le_zero.1 enough), divisions, if_pos rfl, if_neg (by simp)]
      simp [value]
  | succ turns ih =>
      cases decimal with
      | nil =>
          rw [divisions, if_pos rfl, if_neg (by simp)]
          simp [value]
      | cons first rest =>
          obtain ⟨last, quotient, shorter⟩ := divide_turn small
          have positive : 0 < value 10 (first :: rest) := by
            have nonzero := leads first rfl
            rw [value_cons]
            positivity
          have next := @ih ((divide 10 36 (first :: rest) 0).1.dropWhile (· == 0))
            (reversed ++ [base36Digit (value 10 (first :: rest) % 36)])
            (by rw [List.length_cons] at enough; omega)
            (fun digit inside => divide_small (by decide) (by decide) small digit
              ((List.dropWhile_sublist _).subset inside))
            (fun digit inside zero => by
              have := List.head?_dropWhile_not (· == 0) (divide 10 36 (first :: rest) 0).1
              rw [Option.mem_def.1 inside] at this
              simp [zero] at this)
          rw [quotient] at next
          rw [divisions, if_neg (List.cons_ne_nil _ _)]
          dsimp only
          rw [last, next, Nat.digits_def' (by decide) positive]
          simp only [List.length_append, List.length_cons, List.length_nil, Nat.zero_add, List.map_cons,
            ne_eq, reduceCtorEq, not_false_eq_true, true_and, List.append_assoc, List.singleton_append]
          by_cases exceeds : reversed.length + 1 + negative.toNat > outputLimit
          · rw [if_pos exceeds, if_pos (by omega)]
          · rw [if_neg exceeds]
            congr 1
            rw [eq_iff_iff]
            constructor
            · rintro ⟨-, long⟩
              omega
            · intro long
              refine ⟨fun none => ?_, by omega⟩
              rw [none, value_nil] at quotient
              rw [← quotient, Nat.digits_zero, List.length_nil] at long
              omega

end Divisions

/-! ## Multiplications -/

/-- The decimal digits of a number, as the loop keeps them. -/
def decimalOf (number : Nat) : List Nat :=
  if number = 0 then [0] else (Nat.digits 10 number).reverse

theorem decimalOf_value (number : Nat) : value 10 (decimalOf number) = number := by
  rw [decimalOf]
  split
  · next zero => rw [zero]; rfl
  · exact value_digits number

theorem decimalOf_eq {decimal : List Nat} (small : ∀ digit ∈ decimal, digit < 10)
    (leads : ∀ digit ∈ decimal.head?, digit ≠ 0) (some_digit : decimal ≠ []) :
    decimal = decimalOf (value 10 decimal) := by
  have whole := canonical_digits (by decide) small leads
  rw [decimalOf, if_neg, ← whole]
  intro zero
  rw [zero, Nat.digits_zero] at whole
  exact some_digit whole

theorem decimalOf_length {number other : Nat} (less : number ≤ other) :
    (decimalOf number).length ≤ (decimalOf other).length := by
  rw [decimalOf, decimalOf]
  split
  · split
    · exact le_rfl
    · next nonzero =>
        rw [List.length_reverse]
        exact List.length_pos_of_ne_nil (Nat.digits_ne_nil_iff_ne_zero.2 nonzero)
  · rw [if_neg (by omega), List.length_reverse, List.length_reverse]
    exact Nat.le_length_digits_le _ _ _ less

theorem pushCarry_eq {turns carry : Nat} (enough : carry ≤ turns) (decimal : List Nat) :
    pushCarry turns carry decimal = some ((Nat.digits 10 carry).reverse ++ decimal) := by
  induction turns generalizing carry decimal with
  | zero =>
      rw [Nat.le_zero.1 enough, pushCarry, if_pos rfl, Nat.digits_zero]
      rfl
  | succ turns ih =>
      rw [pushCarry]
      by_cases zero : carry = 0
      · rw [if_pos zero, zero, Nat.digits_zero]
        rfl
      · have positive := Nat.pos_of_ne_zero zero
        rw [if_neg zero, Nat.digits_def' (by decide) positive]
        rw [ih (by omega), List.reverse_cons, List.append_assoc]
        rfl

theorem addDigit_eq {digit : Nat} (small : digit < 36) (number : Nat) :
    addDigit digit (decimalOf number) = some (decimalOf (number * 36 + digit)) := by
  by_cases zero : number = 0
  · have all : ∀ digit < 36, addDigit digit (decimalOf 0) = some (decimalOf digit) := by
      decide +kernel
    rw [zero, all digit small, Nat.zero_mul, Nat.zero_add]
  have length := multiply_length 10 36 digit (decimalOf number)
  have whole := multiply_value 10 36 digit (decimalOf number)
  have digits := multiply_small 36 digit (show 0 < 10 by decide)
    (decimalOf number)
  rw [decimalOf_value, ← length] at whole
  rw [addDigit]
  generalize multiply 10 36 digit (decimalOf number) = product at *
  obtain ⟨decimal, carry⟩ := product
  dsimp only at *
  have many : 10 ^ decimal.length ≤ 10 * number := by
    rw [length, decimalOf, if_neg zero, List.length_reverse]
    exact Nat.base_pow_length_digits_le 10 number (by decide) zero
  have carries : carry ≠ 0 := by
    have low := value_lt digits
    rintro rfl
    omega
  have sum : value 10 ((Nat.digits 10 carry).reverse ++ decimal) = number * 36 + digit := by
    rw [value_append, value_digits, whole]
  have some_digit : (Nat.digits 10 carry).reverse ≠ [] := by
    rw [ne_eq, List.reverse_eq_nil_iff]
    exact Nat.digits_ne_nil_iff_ne_zero.2 carries
  rw [pushCarry_eq le_rfl, ← sum, ← decimalOf_eq]
  · intro other inside
    rcases List.mem_append.1 inside with front | back
    · exact reverse_small (by decide) other front
    · exact digits other back
  · intro other first
    rw [List.head?_append_of_ne_nil _ some_digit] at first
    exact digits_head 10 carry other first
  · exact List.append_ne_nil_of_left_ne_nil some_digit _

theorem base36Value_lt (digit : Base36Digit) : digit.value < 36 := by
  have all : ∀ byte : UInt8, ∀ value ∈ base36Value byte, value < 36 := by
    intro byte value read
    simp only [base36Value, Bool.and_eq_true, decide_eq_true_eq, UInt8.le_iff_toNat_le] at read
    have bounds : (0x39 : UInt8).toNat = 0x39 ∧ (0x7a : UInt8).toNat = 0x7a
        ∧ (0x5a : UInt8).toNat = 0x5a := by decide
    split at read
    · cases read; omega
    · split at read
      · cases read; omega
      · split at read
        · cases read; omega
        · cases read
  exact all digit.1 _ (Option.get_mem digit.2)

theorem le_folded (digits : List Base36Digit) (number : Nat) :
    number ≤ digits.foldl (fun sum digit => sum * 36 + digit.value) number := by
  induction digits generalizing number with
  | nil => exact le_rfl
  | cons digit digits ih => exact Nat.le_trans (by omega) (ih (number * 36 + digit.value))

theorem multiplications_eq (outputLimit : Nat) (negative : Bool) (digits : List Base36Digit)
    (number : Nat) :
    multiplications outputLimit negative (digits.map Subtype.val) (decimalOf number)
      = if digits ≠ [] ∧ outputLimit < (decimalOf (digits.foldl
            (fun sum digit => sum * 36 + digit.value) number)).length + negative.toNat then
          .inl (.failure .outputLimit "Decimal output exceeds the configured byte limit")
        else .inr (decimalOf (digits.foldl (fun sum digit => sum * 36 + digit.value) number)) := by
  induction digits generalizing number with
  | nil => rw [if_neg (by simp)]; rfl
  | cons digit digits ih =>
      have read : base36Value digit.1 = some digit.value := (Option.some_get digit.2).symm
      rw [List.map_cons, multiplications, read]
      dsimp only
      rw [addDigit_eq (base36Value_lt digit), List.foldl_cons]
      dsimp only
      rw [ih]
      have longer := decimalOf_length (le_folded digits (number * 36 + digit.value))
      by_cases exceeds : (decimalOf (number * 36 + digit.value)).length + negative.toNat > outputLimit
      · rw [if_pos exceeds, if_pos ⟨List.cons_ne_nil _ _, by omega⟩]
      · rw [if_neg exceeds]
        congr 1
        rw [eq_iff_iff]
        refine ⟨fun ⟨_, long⟩ => ⟨List.cons_ne_nil _ _, long⟩, fun ⟨_, long⟩ => ⟨?_, long⟩⟩
        rintro rfl
        exact exceeds long

end Reb.Analysis
