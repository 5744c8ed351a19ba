/-
# Theory.Utf16 -- characters as 16-bit code units

`encode` spells characters in code units and `decode` reads units back: a pair of
surrogates is a character, a lone surrogate is none.  Units spell characters up to their
end or up to a lone surrogate (`encode_or_lone`).
-/
import Mathlib

namespace Reb.Theory.Utf16

set_option autoImplicit false

def isHigh (unit : UInt16) : Bool := 0xd800 ≤ unit && unit ≤ 0xdbff

def isLow (unit : UInt16) : Bool := 0xdc00 ≤ unit && unit ≤ 0xdfff

/-- The code point of a pair of surrogates. -/
def pairPoint (high low : UInt16) : Nat :=
  0x10000 + (high.toNat - 0xd800) * 0x400 + (low.toNat - 0xdc00)

/-- The units of a character. -/
def encodeChar (c : Char) : List UInt16 :=
  if c.toNat < 0x10000 then [.ofNat c.toNat]
  else [.ofNat (0xd800 + (c.toNat - 0x10000) / 0x400),
    .ofNat (0xdc00 + (c.toNat - 0x10000) % 0x400)]

def encode (cs : List Char) : List UInt16 := cs.flatMap encodeChar

/-- What the units spell; a lone surrogate is no character. -/
def decode : List UInt16 → List (Option Char)
  | [] => []
  | unit :: rest =>
      if isHigh unit then
        match rest with
        | [] => [none]
        | low :: rest =>
            if isLow low then some (.ofNat (pairPoint unit low)) :: decode rest
            else none :: decode (low :: rest)
      else if isLow unit then none :: decode rest
      else some (.ofNat unit.toNat) :: decode rest
termination_by units => units.length

theorem isHigh_iff {unit : UInt16} :
    isHigh unit = true ↔ 0xd800 ≤ unit.toNat ∧ unit.toNat ≤ 0xdbff := by
  simp [isHigh, UInt16.le_iff_toNat_le]

theorem isLow_iff {unit : UInt16} :
    isLow unit = true ↔ 0xdc00 ≤ unit.toNat ∧ unit.toNat ≤ 0xdfff := by
  simp [isLow, UInt16.le_iff_toNat_le]

/-! ## Characters and code points -/

theorem toNat_ofNat_char {n : Nat} (valid : n.isValidChar) : (Char.ofNat n).toNat = n := by
  rw [Char.ofNat, dif_pos valid]
  rfl

theorem toNat_char_lt (c : Char) : c.toNat < 0xd800 ∨ 0xdfff < c.toNat ∧ c.toNat < 0x110000 := c.valid

/-- A unit that is no surrogate is a code point. -/
theorem unit_valid {unit : UInt16} (high : isHigh unit = false) (low : isLow unit = false) :
    unit.toNat.isValidChar := by
  have small := unit.toNat_lt
  rw [← Bool.not_eq_true, isHigh_iff] at high
  rw [← Bool.not_eq_true, isLow_iff] at low
  unfold Nat.isValidChar
  omega

theorem pair_valid {high low : UInt16} (isHigh : isHigh high = true) (isLow : isLow low = true) :
    (pairPoint high low).isValidChar ∧ 0x10000 ≤ pairPoint high low := by
  rw [isHigh_iff] at isHigh
  rw [isLow_iff] at isLow
  unfold Nat.isValidChar pairPoint
  omega

theorem pair_split {n : Nat} (large : 0x10000 ≤ n) :
    0x10000 + (0xd800 + (n - 0x10000) / 0x400 - 0xd800) * 0x400
      + (0xdc00 + (n - 0x10000) % 0x400 - 0xdc00) = n := by
  omega

theorem toNat_ofNat_unit {n : Nat} (small : n < 0x10000) : (UInt16.ofNat n).toNat = n :=
  UInt16.toNat_ofNat_of_lt' small

/-! ## Reading back -/

theorem encodeChar_unit {unit : UInt16} (high : isHigh unit = false) (low : isLow unit = false) :
    encodeChar (.ofNat unit.toNat) = [unit] := by
  have same := toNat_ofNat_char (unit_valid high low)
  rw [encodeChar, same, if_pos unit.toNat_lt, UInt16.ofNat_toNat]

theorem encodeChar_pair {high low : UInt16} (isHigh : isHigh high = true)
    (isLow : isLow low = true) : encodeChar (.ofNat (pairPoint high low)) = [high, low] := by
  obtain ⟨valid, large⟩ := pair_valid isHigh isLow
  rw [isHigh_iff] at isHigh
  rw [isLow_iff] at isLow
  have first : 0xd800 + (pairPoint high low - 0x10000) / 0x400 = high.toNat := by
    unfold pairPoint
    omega
  have second : 0xdc00 + (pairPoint high low - 0x10000) % 0x400 = low.toNat := by
    unfold pairPoint
    omega
  rw [encodeChar, toNat_ofNat_char valid, if_neg (by omega), first, second, UInt16.ofNat_toNat,
    UInt16.ofNat_toNat]

/-- A lone surrogate stands first. -/
def Lone (units : List UInt16) : Prop :=
  ∃ unit rest, units = unit :: rest ∧ (isHigh unit = true ∨ isLow unit = true) ∧
    (isHigh unit = true → ∀ low ∈ rest.head?, isLow low = false)

/-- Units spell characters up to their end or up to a lone surrogate. -/
theorem encode_or_lone (units : List UInt16) :
    ∃ cs, units = encode cs ∨ ∃ rest, units = encode cs ++ rest ∧ Lone rest := by
  induction units using decode.induct with
  | case1 => exact ⟨[], .inl rfl⟩
  | case2 unit high => exact ⟨[], .inr ⟨_, rfl, unit, [], rfl, .inl high, fun _ => by simp⟩⟩
  | case3 unit high low rest isLow ih =>
      obtain ⟨cs, whole⟩ := ih
      have pair := encodeChar_pair high isLow
      refine ⟨.ofNat (pairPoint unit low) :: cs, ?_⟩
      rw [encode, List.flatMap_cons, pair]
      rcases whole with rfl | ⟨rest, rfl, lone⟩
      · exact .inl rfl
      · exact .inr ⟨rest, rfl, lone⟩
  | case4 unit high low rest isLow ih =>
      exact ⟨[], .inr ⟨_, rfl, unit, _, rfl, .inl high, fun _ => by simpa using isLow⟩⟩
  | case5 unit rest high isLow ih =>
      exact ⟨[], .inr ⟨_, rfl, unit, _, rfl, .inr isLow, fun now => absurd now high⟩⟩
  | case6 unit rest high isLow ih =>
      rw [Bool.not_eq_true] at high isLow
      obtain ⟨cs, whole⟩ := ih
      refine ⟨.ofNat unit.toNat :: cs, ?_⟩
      rw [encode, List.flatMap_cons, encodeChar_unit high isLow]
      rcases whole with rfl | ⟨rest, rfl, lone⟩
      · exact .inl rfl
      · exact .inr ⟨rest, rfl, lone⟩

end Reb.Theory.Utf16
