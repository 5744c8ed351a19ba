/-
# Theory.Decimal -- decimal numerals in byte strings

A numeral is written without leading zeros and read back by its digits
(`fromDecimal_decimal`).  `dropInfix?_of_notMem` is how a field of a line is
found: by the first byte of the text that closes it, which the field does not
contain.
-/
import Mathlib

namespace Reb.Theory.Decimal

set_option autoImplicit false

/-- The bytes of a text of one-byte characters. -/
def ascii (text : String) : List UInt8 := text.toList.map fun c => UInt8.ofNat c.toNat

def isDigit (byte : UInt8) : Bool := 48 ≤ byte && byte ≤ 57

/-- The numeral of a number. -/
def decimal (n : Nat) : List UInt8 :=
  if n = 0 then [48] else (Nat.digits 10 n).reverse.map fun d => UInt8.ofNat (48 + d)

/-- The number that a nonempty string of digits denotes. -/
def fromDecimal (bytes : List UInt8) : Option Nat :=
  if bytes ≠ [] ∧ bytes.all isDigit then
    some (Nat.ofDigits 10 (bytes.reverse.map fun b => b.toNat - 48))
  else none

theorem toNat_digit {d : Nat} (lt : d < 10) : (UInt8.ofNat (48 + d)).toNat = 48 + d :=
  UInt8.toNat_ofNat_of_lt' (show 48 + d < 256 by omega)

theorem isDigit_iff {byte : UInt8} : isDigit byte = true ↔ 48 ≤ byte.toNat ∧ byte.toNat ≤ 57 := by
  simp [isDigit, UInt8.le_iff_toNat_le]

theorem isDigit_digit {d : Nat} (lt : d < 10) : isDigit (UInt8.ofNat (48 + d)) = true := by
  rw [isDigit_iff, toNat_digit lt]
  omega

theorem decimal_digits (n : Nat) : ∀ byte ∈ decimal n, isDigit byte = true := by
  intro byte member
  rw [decimal] at member
  split at member
  · rw [List.mem_singleton.1 member]
    rfl
  · obtain ⟨d, inDigits, rfl⟩ := List.mem_map.1 member
    exact isDigit_digit (Nat.digits_lt_base (by decide) (List.mem_reverse.1 inDigits))

theorem decimal_ne_nil (n : Nat) : decimal n ≠ [] := by
  rw [decimal]
  split
  · exact List.cons_ne_nil _ _
  · next nonzero => simpa [Nat.digits_ne_nil_iff_ne_zero] using nonzero

theorem decimal_of_lt {n : Nat} (lt : n < 10) : decimal n = [UInt8.ofNat (48 + n)] := by
  rw [decimal]
  split
  · next zero =>
      rw [zero]
      rfl
  · next nonzero =>
      rw [Nat.digits_of_lt 10 n nonzero lt]
      rfl

theorem decimal_step {n : Nat} (more : n / 10 ≠ 0) :
    decimal n = decimal (n / 10) ++ [UInt8.ofNat (48 + n % 10)] := by
  have nonzero : n ≠ 0 := by
    rintro rfl
    exact more rfl
  rw [decimal, decimal, if_neg nonzero, if_neg more,
    Nat.digits_def' (by decide) (Nat.pos_of_ne_zero nonzero), List.reverse_cons, List.map_append]
  rfl

/-- A numeral begins with zero only when it is zero. -/
theorem decimal_head {n : Nat} (nonzero : n ≠ 0) : (decimal n).head? ≠ some 48 := by
  rw [decimal, if_neg nonzero, List.head?_map, List.head?_reverse]
  have some : Nat.digits 10 n ≠ [] := Nat.digits_ne_nil_iff_ne_zero.2 nonzero
  rw [List.getLast?_eq_some_getLast some, Option.map_some, ne_eq, Option.some.injEq]
  intro zero
  have small := Nat.digits_lt_base (by decide : 1 < 10) (List.getLast_mem some)
  have value := congrArg UInt8.toNat zero
  rw [toNat_digit small] at value
  exact Nat.getLast_digit_ne_zero 10 nonzero (Nat.add_left_cancel (value : _ = 48 + 0))

/-- A numeral reads back as its number. -/
theorem fromDecimal_decimal (n : Nat) : fromDecimal (decimal n) = some n := by
  have digits : (decimal n).all isDigit = true := List.all_eq_true.2 (decimal_digits n)
  rw [fromDecimal, if_pos ⟨decimal_ne_nil n, digits⟩, decimal]
  split
  · next zero =>
      rw [zero]
      rfl
  · rw [List.map_reverse, List.map_map, List.map_reverse, List.reverse_reverse]
    congr 1
    have same : (Nat.digits 10 n).map ((fun b : UInt8 => b.toNat - 48) ∘
        fun d => UInt8.ofNat (48 + d)) = (Nat.digits 10 n).map id := by
      apply List.map_congr_left
      intro d inDigits
      rw [Function.comp_apply, toNat_digit (Nat.digits_lt_base (by decide) inDigits)]
      simp
    rw [same, List.map_id, Nat.ofDigits_digits]

/-! ## Checked accumulation -/

/-- The digits of `bytes` after a number already read. -/
def positional (count : Nat) (bytes : List UInt8) : Nat :=
  bytes.foldl (fun n b => n * 10 + (b.toNat - 48)) count

/-- A word read digit by digit, most significant first; refused at the first byte that is
no digit or would leave the word. -/
def readWord : List UInt8 → UInt64 → Option UInt64
  | [], count => some count
  | digit :: rest, count =>
      if digit < 0x30 || digit > 0x39 then none
      else if count > (0xffffffffffffffff - (digit - 0x30).toUInt64) / 10 then none
      else readWord rest (count * 10 + (digit - 0x30).toUInt64)

theorem positional_cons (count : Nat) (byte : UInt8) (rest : List UInt8) :
    positional count (byte :: rest) = positional (count * 10 + (byte.toNat - 48)) rest := by
  rw [positional, List.foldl_cons, ← positional]

theorem le_positional (count : Nat) (bytes : List UInt8) : count ≤ positional count bytes := by
  induction bytes generalizing count with
  | nil => exact Nat.le_refl count
  | cons byte rest ih =>
      rw [positional_cons]
      have := ih (count * 10 + (byte.toNat - 48))
      omega

theorem positional_lt (count : Nat) {bytes : List UInt8} (digits : bytes.all isDigit = true) :
    positional count bytes < (count + 1) * 10 ^ bytes.length := by
  induction bytes generalizing count with
  | nil => simp [positional]
  | cons byte rest ih =>
      rw [List.all_cons, Bool.and_eq_true, isDigit_iff] at digits
      have step := ih (count * 10 + (byte.toNat - 48)) digits.2
      have room : count * 10 + (byte.toNat - 48) + 1 ≤ (count + 1) * 10 := by omega
      rw [positional_cons, List.length_cons, Nat.pow_succ']
      calc positional (count * 10 + (byte.toNat - 48)) rest
          < (count * 10 + (byte.toNat - 48) + 1) * 10 ^ rest.length := step
        _ ≤ (count + 1) * 10 * 10 ^ rest.length := Nat.mul_le_mul_right _ room
        _ = (count + 1) * (10 * 10 ^ rest.length) := Nat.mul_assoc _ _ _

theorem isDigit_eq_not (byte : UInt8) : isDigit byte = !(byte < 0x30 || byte > 0x39) := by
  rw [Bool.eq_iff_iff, isDigit_iff, Bool.not_eq_true', Bool.or_eq_false_iff,
    decide_eq_false_iff_not, decide_eq_false_iff_not, UInt8.not_lt, gt_iff_lt, UInt8.not_lt]
  exact Iff.rfl

theorem toNat_digitValue {digit : UInt8} (digits : isDigit digit = true) :
    (digit - 0x30).toUInt64.toNat = digit.toNat - 48 := by
  rw [isDigit_iff] at digits
  have least : (0x30 : UInt8) ≤ digit := UInt8.le_iff_toNat_le.2 digits.1
  rw [UInt8.toNat_toUInt64, UInt8.toNat_sub_of_le _ _ least]
  rfl

/-- The guard of a digit is exact: it refuses when the longer number leaves the word. -/
theorem room_iff {digit : UInt8} (digits : isDigit digit = true) (count : UInt64) :
    (0xffffffffffffffff - (digit - 0x30).toUInt64) / 10 < count ↔
      2 ^ 64 ≤ count.toNat * 10 + (digit.toNat - 48) := by
  have value := toNat_digitValue digits
  rw [isDigit_iff] at digits
  have small : (digit - 0x30).toUInt64 ≤ 0xffffffffffffffff := by
    rw [UInt64.le_iff_toNat_le, value]
    show _ ≤ 2 ^ 64 - 1
    omega
  rw [UInt64.lt_iff_toNat_lt, UInt64.toNat_div, UInt64.toNat_sub_of_le _ _ small, value]
  show (2 ^ 64 - 1 - (digit.toNat - 48)) / 10 < count.toNat ↔ _
  omega

theorem readWord_eq (bytes : List UInt8) (count : UInt64) :
    readWord bytes count =
      if bytes.all isDigit = true ∧ positional count.toNat bytes < 2 ^ 64 then
        some (.ofNat (positional count.toNat bytes))
      else none := by
  induction bytes generalizing count with
  | nil => simp [readWord, positional, count.toNat_lt]
  | cons digit rest ih =>
      rw [readWord, List.all_cons, positional_cons]
      by_cases digits : isDigit digit = true
      · have notOutside : (digit < 0x30 || digit > 0x39) = false := by
          rw [isDigit_eq_not, Bool.not_eq_true'] at digits
          exact digits
        rw [notOutside, digits, Bool.true_and]
        simp only [Bool.false_eq_true, if_false, gt_iff_lt, room_iff digits]
        by_cases full : 2 ^ 64 ≤ count.toNat * 10 + (digit.toNat - 48)
        · have large := le_positional (count.toNat * 10 + (digit.toNat - 48)) rest
          rw [if_pos full, if_neg (by omega)]
        · have next : (count * 10 + (digit - 0x30).toUInt64).toNat =
              count.toNat * 10 + (digit.toNat - 48) := by
            rw [UInt64.toNat_add, UInt64.toNat_mul, toNat_digitValue digits]
            show (count.toNat * 10 % 2 ^ 64 + _) % 2 ^ 64 = _
            omega
          rw [if_neg full, ih, next]
      · have outside : (digit < 0x30 || digit > 0x39) = true := by
          rw [isDigit_eq_not, Bool.not_eq_true, Bool.not_eq_false'] at digits
          exact digits
        simp [outside, digits]

theorem fromDecimal_eq {bytes : List UInt8} (nonempty : bytes ≠ [])
    (digits : bytes.all isDigit = true) : fromDecimal bytes = some (positional 0 bytes) := by
  rw [fromDecimal, if_pos ⟨nonempty, digits⟩, Nat.ofDigits_eq_foldr, List.map_reverse,
    List.foldr_reverse, List.foldl_map, positional]
  congr 2
  funext n b
  rw [Nat.cast_id]
  ring

theorem positional_decimal (n : Nat) : positional 0 (decimal n) = n := by
  have digits : (decimal n).all isDigit = true := List.all_eq_true.2 (decimal_digits n)
  have both := fromDecimal_eq (decimal_ne_nil n) digits
  rw [fromDecimal_decimal] at both
  exact (Option.some.inj both).symm

/-! ## Fields of a line -/

/-- The first occurrence of a mark, after bytes without the mark's first byte. -/
theorem dropInfix?_of_notMem {first : UInt8} {mark front rest : List UInt8}
    (absent : first ∉ front) :
    List.dropInfix? (front ++ (first :: mark ++ rest)) (first :: mark) = some (front, rest) := by
  rw [List.dropInfix?_eq_some_iff]
  refine ⟨⟨first :: mark, (List.append_assoc ..).symm, beq_self_eq_true _⟩, ?_⟩
  intro before found after split same
  rw [eq_of_beq same] at split
  by_contra short
  have inFront : before.length < front.length := not_le.1 short
  have here : (front ++ (first :: mark ++ rest))[before.length]? = some first := by
    rw [split, List.append_assoc, List.getElem?_append_right (le_refl _), Nat.sub_self]
    rfl
  rw [List.getElem?_append_left inFront] at here
  exact absent (List.mem_of_getElem? here)

theorem dropPrefix?_append (front rest : List UInt8) :
    List.dropPrefix? (front ++ rest) front = some rest :=
  List.dropPrefix?_append_of_beq rest (beq_self_eq_true front)

/-- A mark that does not begin like a digit does not begin inside a numeral. -/
theorem notMem_decimal {byte : UInt8} (notDigit : isDigit byte = false) (n : Nat) :
    byte ∉ decimal n := by
  intro member
  rw [decimal_digits n byte member] at notDigit
  exact Bool.noConfusion notDigit

end Reb.Theory.Decimal
