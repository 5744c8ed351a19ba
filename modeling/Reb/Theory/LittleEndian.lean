/-
# Theory.LittleEndian -- fixed records laid out as bytes

`write` overwrites a range of a buffer and `window` reads one.  A window of the
range just written is what was written (`window_write`), and a window apart from
it is unchanged (`window_write_apart`).

A number of `width` bytes, least significant first, is `ofBytes` of its bytes;
`ofBytes_toBytes` and `toBytes_ofBytes` are the two round trips.
-/
import Mathlib.Data.Nat.Bitwise
import Mathlib.Tactic.Ring

namespace Reb.Theory.LittleEndian

set_option autoImplicit false

universe u

/-! ## Ranges of a buffer -/

section Ranges

variable {α : Type u}

/-- The elements at `[offset, offset + width)`. -/
def window (buffer : List α) (offset width : Nat) : List α := (buffer.drop offset).take width

/-- Overwrite the buffer from `offset` on; what falls outside it is lost. -/
def write (buffer : List α) (offset : Nat) : List α → List α
  | [] => buffer
  | part :: parts => write (buffer.set offset part) (offset + 1) parts

@[simp] theorem length_write (parts buffer : List α) (offset : Nat) :
    (write buffer offset parts).length = buffer.length := by
  induction parts generalizing buffer offset with
  | nil => rfl
  | cons part parts ih => rw [write, ih, List.length_set]

theorem getElem?_write (parts buffer : List α) (offset i : Nat)
    (fits : offset + parts.length ≤ buffer.length) :
    (write buffer offset parts)[i]? =
      if offset ≤ i ∧ i < offset + parts.length then parts[i - offset]? else buffer[i]? := by
  induction parts generalizing buffer offset with
  | nil => simp only [write, List.length_nil, Nat.add_zero, List.getElem?_nil]; grind
  | cons part parts ih =>
    rw [List.length_cons] at fits
    rw [write, ih _ _ (by rw [List.length_set]; omega), List.length_cons, List.getElem?_set]
    by_cases here : i = offset
    · subst here
      simp [show ¬ i + 1 ≤ i by omega, show i < buffer.length by omega]
    · by_cases inside : offset + 1 ≤ i ∧ i < offset + 1 + parts.length
      · rw [if_pos inside, if_pos (by omega), List.getElem?_cons, if_neg (by omega)]
        congr 1
      · rw [if_neg inside, if_neg (fun eq => here eq.symm), if_neg (by omega)]

theorem length_window (buffer : List α) (offset width : Nat)
    (fits : offset + width ≤ buffer.length) : (window buffer offset width).length = width := by
  rw [window, List.length_take, List.length_drop]
  omega

theorem getElem?_window (buffer : List α) (offset width i : Nat) :
    (window buffer offset width)[i]? = if i < width then buffer[offset + i]? else none := by
  rw [window, List.getElem?_take]
  split
  · rw [List.getElem?_drop]
  · rfl

theorem window_write (parts buffer : List α) (offset : Nat)
    (fits : offset + parts.length ≤ buffer.length) :
    window (write buffer offset parts) offset parts.length = parts := by
  refine List.ext_getElem? fun i => ?_
  rw [getElem?_window, getElem?_write _ _ _ _ fits]
  split
  · next lt => rw [if_pos (by omega), Nat.add_sub_cancel_left]
  · next ge => rw [List.getElem?_eq_none (by omega)]

theorem window_write_apart (parts buffer : List α) (offset start width : Nat)
    (fits : offset + parts.length ≤ buffer.length)
    (apart : start + width ≤ offset ∨ offset + parts.length ≤ start) :
    window (write buffer offset parts) start width = window buffer start width := by
  refine List.ext_getElem? fun i => ?_
  rw [getElem?_window, getElem?_window, getElem?_write _ _ _ _ fits]
  split
  · rw [if_neg (by omega)]
  · rfl

/-- The buffer up to the end of what was written. -/
theorem take_write (parts buffer : List α) (offset : Nat)
    (fits : offset + parts.length ≤ buffer.length) :
    (write buffer offset parts).take (offset + parts.length) = buffer.take offset ++ parts := by
  induction parts generalizing buffer offset with
  | nil => simp [write]
  | cons part parts ih =>
    rw [List.length_cons] at fits ⊢
    have stored : (buffer.set offset part).take (offset + 1) = buffer.take offset ++ [part] := by
      rw [List.take_add_one, List.take_set, List.set_eq_of_length_le (by simp),
        List.getElem?_set_self (by omega)]
      rfl
    have shifted : offset + (parts.length + 1) = offset + 1 + parts.length := by omega
    rw [write, shifted, ih _ _ (by rw [List.length_set]; omega), stored, List.append_assoc,
      List.singleton_append]

end Ranges

/-! ## Numbers -/

def ofBytes : List UInt8 → Nat
  | [] => 0
  | byte :: bytes => byte.toNat + 256 * ofBytes bytes

/-- The `width` low bytes of a number. -/
def toBytes (value width : Nat) : List UInt8 :=
  (List.range width).map fun i => UInt8.ofNat (value / 256 ^ i)

theorem toBytes_zero (value : Nat) : toBytes value 0 = [] := rfl

theorem toBytes_succ (value width : Nat) :
    toBytes value (width + 1) = UInt8.ofNat value :: toBytes (value / 256) width := by
  rw [toBytes, List.range_succ_eq_map, List.map_cons, List.map_map, toBytes]
  simp only [Nat.pow_zero, Nat.div_one, List.cons.injEq, true_and]
  refine List.map_congr_left fun i _ => ?_
  rw [Function.comp_apply, Nat.succ_eq_add_one, Nat.pow_succ', Nat.div_div_eq_div_mul]

theorem ofBytes_toBytes (width value : Nat) : ofBytes (toBytes value width) = value % 256 ^ width := by
  induction width generalizing value with
  | zero => rw [toBytes_zero, ofBytes, Nat.pow_zero, Nat.mod_one]
  | succ width ih =>
    have low : (UInt8.ofNat value).toNat = value % 256 := UInt8.toNat_ofNat'
    rw [toBytes_succ, ofBytes, ih, low, Nat.pow_succ', Nat.mod_mul]

theorem toBytes_ofBytes (bytes : List UInt8) : toBytes (ofBytes bytes) bytes.length = bytes := by
  induction bytes with
  | nil => rfl
  | cons byte bytes ih =>
    have small : byte.toNat < 256 := byte.toNat_lt
    rw [List.length_cons, toBytes_succ, ofBytes, Nat.add_mul_div_left _ _ (by decide),
      Nat.div_eq_of_lt small, Nat.zero_add, ih]
    congr 1
    refine UInt8.toNat_inj.1 ?_
    rw [UInt8.toNat_ofNat', Nat.add_mul_mod_self_left, Nat.mod_eq_of_lt small]

theorem ofBytes_lt (bytes : List UInt8) : ofBytes bytes < 256 ^ bytes.length := by
  induction bytes with
  | nil => decide
  | cons byte bytes ih =>
    have small : byte.toNat < 256 := byte.toNat_lt
    rw [ofBytes, List.length_cons, Nat.pow_succ']
    omega

theorem ofBytes_concat (bytes : List UInt8) (byte : UInt8) :
    ofBytes (bytes ++ [byte]) = ofBytes bytes + 256 ^ bytes.length * byte.toNat := by
  induction bytes with
  | nil => simp [ofBytes]
  | cons head bytes ih =>
    rw [List.cons_append, ofBytes, ih, ofBytes, List.length_cons, Nat.pow_succ']
    ring

end Reb.Theory.LittleEndian
