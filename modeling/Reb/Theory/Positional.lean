/-
# Theory.Positional -- digits in a base

The value of a list of digits, the first one the most significant.  When a window of digits
moves on by one, its value follows from the last one by a product and two sums (`slide`),
whatever the ring: over machine words too, where everything wraps.  Over the naturals the
digits may be divided in place (`divide_value`) and multiplied in place (`multiply_value`),
and a list without a leading zero is the one that its value has (`canonical_digits`).
-/
import Mathlib

namespace Reb.Theory.Positional

set_option autoImplicit false

/-! ## Values -/

section Values

variable {R : Type*} [CommSemiring R] (base : R)

def value (digits : List R) : R := digits.foldl (fun sum digit => sum * base + digit) 0

theorem value_nil : value base [] = 0 := rfl

theorem value_snoc (digits : List R) (last : R) :
    value base (digits ++ [last]) = value base digits * base + last := by
  rw [value, List.foldl_append]
  rfl

/-- The first digit weighs a power of the base. -/
theorem value_cons (first : R) (digits : List R) :
    value base (first :: digits) = first * base ^ digits.length + value base digits := by
  induction digits using List.reverseRecOn with
  | nil => simp [value]
  | append_singleton digits last ih =>
      rw [← List.cons_append, value_snoc, value_snoc, ih, List.length_append, List.length_singleton,
        pow_succ]
      ring

theorem value_append (digits others : List R) :
    value base (digits ++ others)
      = value base digits * base ^ others.length + value base others := by
  induction digits with
  | nil => rw [List.nil_append, value_nil, zero_mul, zero_add]
  | cons first digits ih =>
      rw [List.cons_append, value_cons, value_cons, ih, List.length_append, pow_add]
      ring

end Values

/-- The window moves on by one digit. -/
theorem slide {R : Type*} [CommRing R] (base out incoming : R) (digits : List R) :
    (value base (out :: digits) - out * base ^ digits.length) * base + incoming
      = value base (digits ++ [incoming]) := by
  rw [value_cons, value_snoc, add_sub_cancel_left]

/-! ## Digits of a natural number -/

variable {base : Nat}

theorem value_reverse (digits : List Nat) : value base digits.reverse = Nat.ofDigits base digits := by
  induction digits with
  | nil => rfl
  | cons first digits ih =>
      rw [List.reverse_cons, value_snoc, ih, Nat.ofDigits_cons, mul_comm, add_comm]

theorem value_digits (number : Nat) : value base (Nat.digits base number).reverse = number := by
  rw [value_reverse, Nat.ofDigits_digits]

theorem value_lt {digits : List Nat} (small : ∀ digit ∈ digits, digit < base) :
    value base digits < base ^ digits.length := by
  induction digits with
  | nil => exact Nat.zero_lt_one
  | cons first digits ih =>
      rw [List.forall_mem_cons] at small
      rw [value_cons, List.length_cons, pow_succ]
      calc first * base ^ digits.length + value base digits
          < first * base ^ digits.length + base ^ digits.length := Nat.add_lt_add_left (ih small.2) _
        _ = (first + 1) * base ^ digits.length := (Nat.succ_mul _ _).symm
        _ ≤ base * base ^ digits.length := Nat.mul_le_mul_right _ small.1
        _ = base ^ digits.length * base := mul_comm _ _

/-- Digits without a leading zero are those of their value. -/
theorem canonical_digits (large : 1 < base) {digits : List Nat}
    (small : ∀ digit ∈ digits, digit < base) (leads : ∀ digit ∈ digits.head?, digit ≠ 0) :
    digits = (Nat.digits base (value base digits)).reverse := by
  have whole := Nat.digits_ofDigits base large digits.reverse
    (fun digit inside => small digit (List.mem_reverse.1 inside)) (by
      intro some_digit
      rw [List.getLast_reverse]
      exact leads _ (List.head?_eq_some_head _))
  rw [← value_reverse, List.reverse_reverse] at whole
  rw [whole, List.reverse_reverse]

/-! ## Division in place -/

/-- Long division: the quotient's digits and the remainder. -/
def divide (base divisor : Nat) : List Nat → Nat → List Nat × Nat
  | [], remainder => ([], remainder)
  | digit :: digits, remainder =>
      let value := remainder * base + digit
      let rest := divide base divisor digits (value % divisor)
      (value / divisor :: rest.1, rest.2)

section Divide

variable {divisor : Nat}

theorem divide_length (digits : List Nat) (remainder : Nat) :
    (divide base divisor digits remainder).1.length = digits.length := by
  induction digits generalizing remainder with
  | nil => rfl
  | cons digit digits ih => rw [divide, List.length_cons, List.length_cons, ih]

theorem divide_value (base divisor : Nat) (digits : List Nat) (remainder : Nat) :
    value base (divide base divisor digits remainder).1 * divisor
        + (divide base divisor digits remainder).2
      = remainder * base ^ digits.length + value base digits := by
  induction digits generalizing remainder with
  | nil => simp [divide, value]
  | cons digit digits ih =>
      have rest := ih ((remainder * base + digit) % divisor)
      rw [divide, value_cons, value_cons, divide_length, List.length_cons, pow_succ, add_mul, add_assoc,
        rest]
      have split := Nat.div_add_mod (remainder * base + digit) divisor
      generalize (remainder * base + digit) / divisor = quotient at *
      generalize (remainder * base + digit) % divisor = left at *
      calc quotient * base ^ digits.length * divisor + (left * base ^ digits.length + value base digits)
          = (divisor * quotient + left) * base ^ digits.length + value base digits := by ring
        _ = (remainder * base + digit) * base ^ digits.length + value base digits := by rw [split]
        _ = _ := by ring

theorem divide_remainder (base : Nat) (positive : 0 < divisor) (digits : List Nat)
    {remainder : Nat} (less : remainder < divisor) : (divide base divisor digits remainder).2 < divisor := by
  induction digits generalizing remainder with
  | nil => exact less
  | cons digit digits ih => exact ih (Nat.mod_lt _ positive)

theorem divide_small (positive : 0 < divisor) {digits : List Nat} {remainder : Nat}
    (less : remainder < divisor) (small : ∀ digit ∈ digits, digit < base) :
    ∀ digit ∈ (divide base divisor digits remainder).1, digit < base := by
  induction digits generalizing remainder with
  | nil => simp [divide]
  | cons digit digits ih =>
      rw [List.forall_mem_cons] at small
      refine List.forall_mem_cons.2 ⟨?_, ih (Nat.mod_lt _ positive) small.2⟩
      rw [Nat.div_lt_iff_lt_mul positive]
      calc remainder * base + digit < remainder * base + base := Nat.add_lt_add_left small.1 _
        _ = (remainder + 1) * base := (Nat.succ_mul _ _).symm
        _ ≤ divisor * base := Nat.mul_le_mul_right _ less
        _ = base * divisor := mul_comm _ _

theorem value_trimmed (digits : List Nat) :
    value base (digits.dropWhile (· == 0)) = value base digits := by
  induction digits with
  | nil => rfl
  | cons digit digits ih =>
      by_cases zero : digit = 0
      · rw [List.dropWhile_cons_of_pos (by simpa using zero), ih, value_cons, zero, zero_mul, zero_add]
      · rw [List.dropWhile_cons_of_neg (by simpa using zero)]

end Divide

/-! ## Multiplication in place -/

/-- The digits times a factor plus a carry, from the last digit on: as many digits, and the
carry out of the first one. -/
def multiply (base factor carry : Nat) (digits : List Nat) : List Nat × Nat :=
  digits.foldr
    (fun digit (rest : List Nat × Nat) =>
      ((digit * factor + rest.2) % base :: rest.1, (digit * factor + rest.2) / base))
    ([], carry)

theorem multiply_length (base factor carry : Nat) (digits : List Nat) :
    (multiply base factor carry digits).1.length = digits.length := by
  induction digits with
  | nil => rfl
  | cons digit digits ih => exact congrArg Nat.succ ih

theorem multiply_value (base factor carry : Nat) (digits : List Nat) :
    (multiply base factor carry digits).2 * base ^ digits.length
        + value base (multiply base factor carry digits).1
      = value base digits * factor + carry := by
  induction digits with
  | nil => simp [multiply, value]
  | cons digit digits ih =>
      rw [multiply, List.foldr_cons, ← multiply, value_cons, value_cons, multiply_length,
        List.length_cons, pow_succ]
      generalize (multiply base factor carry digits).1 = rest at *
      generalize (multiply base factor carry digits).2 = out at *
      have split := Nat.div_add_mod (digit * factor + out) base
      generalize (digit * factor + out) / base = quotient at *
      generalize (digit * factor + out) % base = left at *
      calc quotient * (base ^ digits.length * base) + (left * base ^ digits.length + value base rest)
          = (base * quotient + left) * base ^ digits.length + value base rest := by ring
        _ = (digit * factor + out) * base ^ digits.length + value base rest := by rw [split]
        _ = digit * base ^ digits.length * factor + (out * base ^ digits.length + value base rest) := by
            ring
        _ = _ := by rw [ih]; ring

theorem multiply_small (factor carry : Nat) (positive : 0 < base) (digits : List Nat) :
    ∀ digit ∈ (multiply base factor carry digits).1, digit < base := by
  induction digits with
  | nil => simp [multiply]
  | cons digit digits ih => exact List.forall_mem_cons.2 ⟨Nat.mod_lt _ positive, ih⟩

end Reb.Theory.Positional
