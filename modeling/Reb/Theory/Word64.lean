/-
# Theory.Word64 -- 64-bit words: their order and counters that stop at the largest

Core orders `UInt64` by `toNat` but gives it no order class.  The instance below
is built from core's own `<` and `≤`, so a fact about the class is a fact about
the machine comparison.

Adding a list of amounts to a counter that saturates and remembers that it
did: the result is a function of the sum of the amounts, so neither the order nor
the grouping of the additions matters (`accumulate_eq`).
-/
import Mathlib

namespace Reb.Theory.Saturating

set_option autoImplicit false

def wordMax : UInt64 := 0xffffffffffffffff

theorem toNat_wordMax : wordMax.toNat = 2 ^ 64 - 1 := rfl

/-- Add `amount`, stopping at the largest word and recording that it was hit. -/
def add (counter : UInt64 × Bool) (amount : UInt64) : UInt64 × Bool :=
  if amount > wordMax - counter.1 then (wordMax, true) else (counter.1 + amount, counter.2)

/-- The counter a sum of `n` leaves: `n` itself, or the largest word with the flag. -/
def ofNat (n : Nat) : UInt64 × Bool :=
  if n < 2 ^ 64 then (.ofNat n, false) else (wordMax, true)

theorem add_ofNat (n : Nat) (amount : UInt64) : add (ofNat n) amount = ofNat (n + amount.toNat) := by
  have amountLt := amount.toNat_lt
  unfold add ofNat
  by_cases fits : n < 2 ^ 64
  · have room : (wordMax - UInt64.ofNat n).toNat = 2 ^ 64 - 1 - n := by
      rw [UInt64.toNat_sub_of_le _ _ (by
        rw [UInt64.le_iff_toNat_le, toNat_wordMax, UInt64.toNat_ofNat_of_lt' fits]; omega),
        toNat_wordMax, UInt64.toNat_ofNat_of_lt' fits]
    simp only [fits, if_true, gt_iff_lt, UInt64.lt_iff_toNat_lt, room]
    by_cases sumFits : n + amount.toNat < 2 ^ 64
    · rw [if_neg (by omega), if_pos sumFits, Nat.add_comm, UInt64.ofNat_add, UInt64.ofNat_toNat,
        UInt64.add_comm]
    · rw [if_pos (by omega), if_neg sumFits]
  · simp only [fits, if_false]
    rw [if_neg (c := n + amount.toNat < 2 ^ 64) (by omega)]
    split
    · rfl
    · rename_i zero
      have : amount = 0 := by
        rw [gt_iff_lt, UInt64.lt_iff_toNat_lt, UInt64.sub_self] at zero
        exact UInt64.toNat.inj (by simpa using zero)
      rw [this, UInt64.add_zero]

theorem foldl_add (amounts : List UInt64) (n : Nat) :
    amounts.foldl add (ofNat n) = ofNat (n + (amounts.map (·.toNat)).sum) := by
  induction amounts generalizing n with
  | nil => rfl
  | cons amount rest ih =>
      rw [List.foldl_cons, add_ofNat, ih, List.map_cons, List.sum_cons, Nat.add_assoc]

/-- Accumulating from zero depends only on the sum. -/
theorem accumulate_eq (amounts : List UInt64) :
    amounts.foldl add (0, false) = ofNat (amounts.map (·.toNat)).sum := by
  have := foldl_add amounts 0
  rwa [Nat.zero_add] at this

end Reb.Theory.Saturating

namespace Reb.Theory

instance linearOrderUInt64 : LinearOrder UInt64 where
  le_refl := UInt64.le_refl
  le_trans _ _ _ := UInt64.le_trans
  le_antisymm _ _ := UInt64.le_antisymm
  lt_iff_le_not_ge a b := by
    rw [UInt64.lt_iff_toNat_lt, UInt64.le_iff_toNat_le, UInt64.le_iff_toNat_le]
    omega
  le_total := UInt64.le_total
  toDecidableLE := inferInstance
  toDecidableLT := inferInstance
  toDecidableEq := inferInstance

instance finiteUInt64 : Finite UInt64 :=
  Finite.of_injective (fun x : UInt64 => x.toFin) fun _ _ same => UInt64.toFin_inj.1 same

namespace Word64

theorem toNat_succ {a b : UInt64} (lt : a < b) : (a + 1).toNat = a.toNat + 1 := by
  have := UInt64.lt_iff_toNat_lt.1 lt
  have := b.toNat_lt
  rw [UInt64.toNat_add, UInt64.toNat_one, Nat.mod_eq_of_lt (by omega)]

theorem toNat_pred {a b : UInt64} (lt : a < b) : (b - 1).toNat = b.toNat - 1 := by
  have := UInt64.lt_iff_toNat_lt.1 lt
  rw [UInt64.toNat_sub_of_le _ _ (by rw [UInt64.le_iff_toNat_le, UInt64.toNat_one]; omega),
    UInt64.toNat_one]

theorem mem_Icc_succ {a b x : UInt64} (lt : a < b) : x ∈ Set.Icc (a + 1) b ↔ a < x ∧ x ≤ b := by
  rw [Set.mem_Icc, UInt64.le_iff_toNat_le, toNat_succ lt, UInt64.lt_iff_toNat_lt, Nat.succ_le_iff]

theorem mem_Icc_pred {a b x : UInt64} (lt : a < b) : x ∈ Set.Icc a (b - 1) ↔ a ≤ x ∧ x < b := by
  have := UInt64.lt_iff_toNat_lt.1 lt
  rw [Set.mem_Icc, UInt64.le_iff_toNat_le (b := b - 1), toNat_pred lt, UInt64.lt_iff_toNat_lt]
  exact and_congr_right fun _ => by omega

/-- `b - a > 1` says that some word lies strictly between. -/
theorem succ_le_pred_iff {a b : UInt64} (lt : a < b) : b - a > 1 ↔ a + 1 ≤ b - 1 := by
  have := UInt64.lt_iff_toNat_lt.1 lt
  rw [gt_iff_lt, UInt64.lt_iff_toNat_lt, UInt64.toNat_sub_of_le _ _ lt.le, UInt64.toNat_one,
    UInt64.le_iff_toNat_le, toNat_succ lt, toNat_pred lt]
  omega

theorem mem_Icc_between {a b x : UInt64} (lt : a < b) :
    x ∈ Set.Icc (a + 1) (b - 1) ↔ a < x ∧ x < b := by
  rw [Set.mem_Icc, UInt64.le_iff_toNat_le, UInt64.le_iff_toNat_le, toNat_succ lt, toNat_pred lt,
    UInt64.lt_iff_toNat_lt, UInt64.lt_iff_toNat_lt]
  have := UInt64.lt_iff_toNat_lt.1 lt
  omega

/-- The number of words between two bounds. -/
theorem ncard_Icc (first last : UInt64) :
    (Set.Icc first last).ncard = last.toNat + 1 - first.toNat := by
  have image : UInt64.toNat '' Set.Icc first last = Set.Icc first.toNat last.toNat := by
    ext n
    constructor
    · rintro ⟨x, ⟨lower, upper⟩, rfl⟩
      exact ⟨UInt64.le_iff_toNat_le.1 lower, UInt64.le_iff_toNat_le.1 upper⟩
    · rintro ⟨lower, upper⟩
      have small : (UInt64.ofNat n).toNat = n :=
        UInt64.toNat_ofNat_of_lt' (lt_of_le_of_lt upper last.toNat_lt)
      refine ⟨UInt64.ofNat n, ⟨?_, ?_⟩, small⟩
      · rw [UInt64.le_iff_toNat_le, small]; exact lower
      · rw [UInt64.le_iff_toNat_le, small]; exact upper
  rw [← Set.ncard_image_of_injective _ (fun _ _ => UInt64.toNat.inj), image,
    ← Finset.coe_Icc, Set.ncard_coe_finset, Nat.card_Icc]

end Word64

end Reb.Theory
