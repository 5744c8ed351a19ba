/-
# Capture.PayloadBytes -- writing a payload

Every 128-byte payload is written by one encoder shape: `put` stores an integer
at its offset, least significant byte first, and `std::copy` stores an array.
The lemmas below say what `get` and `slice` read back, from the field just
written and from one that lies apart from it, and that a buffer filled left to
right with the fields of another is that other one.
-/
import Reb.Capture.Event
import Reb.Theory.LittleEndian

namespace Reb.Capture

set_option autoImplicit false

open Reb.Theory.LittleEndian

/-- `(value >> (8U * i)) & 255U` for each `i` below `width`. -/
def bytesOf (value : UInt64) (width : Nat) : List UInt8 :=
  (List.range width).map fun i => (value >>> (8 * i).toUInt64).toUInt8

def put (out : List UInt8) (offset : Nat) (value : UInt64) (width : Nat) : List UInt8 :=
  write out offset (bytesOf value width)

/-- `std::copy(part.begin(), part.end(), out.begin() + offset)`. -/
def copyTo (out : List UInt8) (offset : Nat) (part : List UInt8) : List UInt8 :=
  write out offset part

/-- `std::array<std::byte, 128> out{}`. -/
def emptyPayload : List UInt8 := List.replicate kInlinePayloadSize 0

@[simp] theorem length_emptyPayload : emptyPayload.length = 128 := List.length_replicate

@[simp] theorem length_bytesOf (value : UInt64) (width : Nat) :
    (bytesOf value width).length = width := by
  simp [bytesOf]

@[simp] theorem length_put (out : List UInt8) (offset : Nat) (value : UInt64) (width : Nat) :
    (put out offset value width).length = out.length :=
  length_write _ _ _

@[simp] theorem length_copyTo (out : List UInt8) (offset : Nat) (part : List UInt8) :
    (copyTo out offset part).length = out.length :=
  length_write _ _ _

/-! ## `put` and `get` on numbers -/

theorem toNat_shift {i : Nat} (small : i < 8) : (8 * i).toUInt64.toNat = 8 * i := by
  rw [Nat.toUInt64, UInt64.toNat_ofNat']
  exact Nat.mod_eq_of_lt (by omega)

theorem bytesOf_eq_toBytes (value : UInt64) {width : Nat} (small : width ≤ 8) :
    bytesOf value width = toBytes value.toNat width := by
  refine List.map_congr_left fun i member => ?_
  have below : i < 8 := by have := List.mem_range.1 member; omega
  refine UInt8.toNat_inj.1 ?_
  rw [UInt64.toNat_toUInt8, UInt64.toNat_shiftRight, toNat_shift below, UInt8.toNat_ofNat',
    Nat.mod_eq_of_lt (show 8 * i < 64 by omega), Nat.shiftRight_eq_div_pow, Nat.pow_mul]

theorem get_succ (bytes : List UInt8) (offset width : Nat) :
    get bytes offset (width + 1) =
      get bytes offset width |||
        (bytes.getD (offset + width) 0).toUInt64 <<< (8 * width).toUInt64 := by
  rw [get, List.range_succ, List.foldl_append, ← get]
  rfl

/-- One step of `window`: the next byte is appended. -/
theorem window_succ (bytes : List UInt8) (offset width : Nat)
    (fits : offset + width < bytes.length) :
    window bytes offset (width + 1) =
      window bytes offset width ++ [bytes.getD (offset + width) 0] := by
  rw [window, window, List.take_add_one, List.getElem?_drop, List.getElem?_eq_getElem fits,
    Option.toList_some, List.getD_eq_getElem _ _ fits]

theorem toNat_get (bytes : List UInt8) (offset : Nat) {width : Nat} (small : width ≤ 8)
    (fits : offset + width ≤ bytes.length) :
    (get bytes offset width).toNat = ofBytes (window bytes offset width) := by
  induction width with
  | zero => simp [get, window, ofBytes]
  | succ width ih =>
    have before := ih (by omega) (by omega)
    have size : (window bytes offset width).length = width := length_window _ _ _ (by omega)
    have bound : ofBytes (window bytes offset width) < 2 ^ (8 * width) := by
      have := ofBytes_lt (window bytes offset width)
      rwa [size, show 256 = 2 ^ 8 from rfl, ← Nat.pow_mul] at this
    have byte := (bytes.getD (offset + width) 0).toNat_lt
    have room : (bytes.getD (offset + width) 0).toNat * 2 ^ (8 * width) < 2 ^ 64 := by
      calc (bytes.getD (offset + width) 0).toNat * 2 ^ (8 * width)
          < 2 ^ 8 * 2 ^ (8 * width) := Nat.mul_lt_mul_of_pos_right byte (Nat.two_pow_pos _)
        _ = 2 ^ (8 + 8 * width) := (Nat.pow_add _ _ _).symm
        _ ≤ 2 ^ 64 := Nat.pow_le_pow_right (by decide) (by omega)
    rw [get_succ, window_succ _ _ _ (by omega), ofBytes_concat, size, UInt64.toNat_or, before,
      UInt64.toNat_shiftLeft, UInt8.toNat_toUInt64, toNat_shift (by omega),
      Nat.mod_eq_of_lt (show 8 * width < 64 by omega), Nat.shiftLeft_eq, Nat.mod_eq_of_lt room,
      Nat.or_comm, Nat.mul_comm, ← Nat.two_pow_add_eq_or_of_lt bound,
      show 256 = 2 ^ 8 from rfl, ← Nat.pow_mul, Nat.add_comm]

/-- Reading a number back from where it was stored. -/
theorem toNat_get_put (out : List UInt8) (offset : Nat) (value : UInt64) {width : Nat}
    (small : width ≤ 8) (fits : offset + width ≤ out.length) :
    (get (put out offset value width) offset width).toNat = value.toNat % 256 ^ width := by
  have size : (bytesOf value width).length = width := length_bytesOf _ _
  have stored := window_write (bytesOf value width) out offset (by omega)
  rw [size] at stored
  rw [toNat_get _ _ small (by rwa [length_put]), put, stored, bytesOf_eq_toBytes _ small,
    ofBytes_toBytes]

@[simp] theorem getU8_put (out : List UInt8) (offset : Nat) (value : UInt8)
    (fits : offset + 1 ≤ out.length) : getU8 (put out offset value.toUInt64 1) offset = value := by
  have small := value.toNat_lt
  refine UInt8.toNat_inj.1 ?_
  rw [getU8, UInt64.toNat_toUInt8, toNat_get_put _ _ _ (by decide) fits, UInt8.toNat_toUInt64]
  omega

@[simp] theorem getU16_put (out : List UInt8) (offset : Nat) (value : UInt16)
    (fits : offset + 2 ≤ out.length) : getU16 (put out offset value.toUInt64 2) offset = value := by
  have small := value.toNat_lt
  refine UInt16.toNat_inj.1 ?_
  rw [getU16, UInt64.toNat_toUInt16, toNat_get_put _ _ _ (by decide) fits, UInt16.toNat_toUInt64]
  omega

@[simp] theorem getU32_put (out : List UInt8) (offset : Nat) (value : UInt32)
    (fits : offset + 4 ≤ out.length) : getU32 (put out offset value.toUInt64 4) offset = value := by
  have small := value.toNat_lt
  refine UInt32.toNat_inj.1 ?_
  rw [getU32, UInt64.toNat_toUInt32, toNat_get_put _ _ _ (by decide) fits, UInt32.toNat_toUInt64]
  omega

@[simp] theorem getU64_put (out : List UInt8) (offset : Nat) (value : UInt64)
    (fits : offset + 8 ≤ out.length) : getU64 (put out offset value 8) offset = value := by
  have small := value.toNat_lt
  refine UInt64.toNat_inj.1 ?_
  rw [getU64, toNat_get_put _ _ _ (by decide) fits]
  omega

@[simp] theorem slice_copyTo (out : List UInt8) (offset : Nat) (part : List UInt8) {width : Nat}
    (size : part.length = width) (fits : offset + width ≤ out.length) :
    slice (copyTo out offset part) offset width = part := by
  subst size
  exact window_write _ _ _ fits

/-! ## Fields that lie apart -/

/-- `get` reads nothing outside its range. -/
theorem get_congr {left right : List UInt8} {offset width : Nat}
    (same : window left offset width = window right offset width) :
    get left offset width = get right offset width := by
  have bytes (i : Nat) (lt : i < width) : left.getD (offset + i) 0 = right.getD (offset + i) 0 := by
    have := congrArg (fun taken : List UInt8 => taken[i]?) same
    simp only [getElem?_window, if_pos lt] at this
    rw [List.getD_eq_getElem?_getD, List.getD_eq_getElem?_getD, this]
  clear same
  induction width with
  | zero => rfl
  | succ width ih =>
    rw [get_succ, get_succ, ih (fun i lt => bytes i (by omega)), bytes width (by omega)]

theorem get_put_apart (out : List UInt8) (offset : Nat) (value : UInt64) (width start taken : Nat)
    (fits : offset + width ≤ out.length) (apart : start + taken ≤ offset ∨ offset + width ≤ start) :
    get (put out offset value width) start taken = get out start taken :=
  get_congr (window_write_apart _ _ _ _ _ (by simpa using fits) (by simpa using apart))

theorem get_copyTo_apart (out : List UInt8) (offset : Nat) (part : List UInt8) (start taken : Nat)
    (fits : offset + part.length ≤ out.length)
    (apart : start + taken ≤ offset ∨ offset + part.length ≤ start) :
    get (copyTo out offset part) start taken = get out start taken :=
  get_congr (window_write_apart _ _ _ _ _ fits apart)

@[simp] theorem getU8_put_apart (out : List UInt8) (offset : Nat) (value : UInt64) (width start : Nat)
    (fits : offset + width ≤ out.length) (apart : start + 1 ≤ offset ∨ offset + width ≤ start) :
    getU8 (put out offset value width) start = getU8 out start := by
  rw [getU8, get_put_apart _ _ _ _ _ _ fits apart, ← getU8]

@[simp] theorem getU16_put_apart (out : List UInt8) (offset : Nat) (value : UInt64) (width start : Nat)
    (fits : offset + width ≤ out.length) (apart : start + 2 ≤ offset ∨ offset + width ≤ start) :
    getU16 (put out offset value width) start = getU16 out start := by
  rw [getU16, get_put_apart _ _ _ _ _ _ fits apart, ← getU16]

@[simp] theorem getU32_put_apart (out : List UInt8) (offset : Nat) (value : UInt64) (width start : Nat)
    (fits : offset + width ≤ out.length) (apart : start + 4 ≤ offset ∨ offset + width ≤ start) :
    getU32 (put out offset value width) start = getU32 out start := by
  rw [getU32, get_put_apart _ _ _ _ _ _ fits apart, ← getU32]

@[simp] theorem getU64_put_apart (out : List UInt8) (offset : Nat) (value : UInt64) (width start : Nat)
    (fits : offset + width ≤ out.length) (apart : start + 8 ≤ offset ∨ offset + width ≤ start) :
    getU64 (put out offset value width) start = getU64 out start := by
  rw [getU64, get_put_apart _ _ _ _ _ _ fits apart, ← getU64]

@[simp] theorem getU8_copyTo_apart (out : List UInt8) (offset : Nat) (part : List UInt8) (start : Nat)
    (fits : offset + part.length ≤ out.length)
    (apart : start + 1 ≤ offset ∨ offset + part.length ≤ start) :
    getU8 (copyTo out offset part) start = getU8 out start := by
  rw [getU8, get_copyTo_apart _ _ _ _ _ fits apart, ← getU8]

@[simp] theorem getU16_copyTo_apart (out : List UInt8) (offset : Nat) (part : List UInt8) (start : Nat)
    (fits : offset + part.length ≤ out.length)
    (apart : start + 2 ≤ offset ∨ offset + part.length ≤ start) :
    getU16 (copyTo out offset part) start = getU16 out start := by
  rw [getU16, get_copyTo_apart _ _ _ _ _ fits apart, ← getU16]

@[simp] theorem getU32_copyTo_apart (out : List UInt8) (offset : Nat) (part : List UInt8) (start : Nat)
    (fits : offset + part.length ≤ out.length)
    (apart : start + 4 ≤ offset ∨ offset + part.length ≤ start) :
    getU32 (copyTo out offset part) start = getU32 out start := by
  rw [getU32, get_copyTo_apart _ _ _ _ _ fits apart, ← getU32]

@[simp] theorem getU64_copyTo_apart (out : List UInt8) (offset : Nat) (part : List UInt8) (start : Nat)
    (fits : offset + part.length ≤ out.length)
    (apart : start + 8 ≤ offset ∨ offset + part.length ≤ start) :
    getU64 (copyTo out offset part) start = getU64 out start := by
  rw [getU64, get_copyTo_apart _ _ _ _ _ fits apart, ← getU64]

@[simp] theorem slice_put_apart (out : List UInt8) (offset : Nat) (value : UInt64)
    (width start taken : Nat) (fits : offset + width ≤ out.length)
    (apart : start + taken ≤ offset ∨ offset + width ≤ start) :
    slice (put out offset value width) start taken = slice out start taken :=
  window_write_apart _ _ _ _ _ (by simpa using fits) (by simpa using apart)

@[simp] theorem slice_copyTo_apart (out : List UInt8) (offset : Nat) (part : List UInt8)
    (start taken : Nat) (fits : offset + part.length ≤ out.length)
    (apart : start + taken ≤ offset ∨ offset + part.length ≤ start) :
    slice (copyTo out offset part) start taken = slice out start taken :=
  window_write_apart _ _ _ _ _ fits apart

@[simp] theorem slice_emptyPayload (start taken : Nat) (fits : start + taken ≤ 128) :
    slice emptyPayload start taken = List.replicate taken 0 := by
  rw [slice, emptyPayload, List.drop_replicate, List.take_replicate]
  congr 1
  simp only [kInlinePayloadSize]
  omega

/-! ## Filling a payload left to right -/

theorem bytesOf_get (bytes : List UInt8) (offset : Nat) {width : Nat} (small : width ≤ 8)
    (fits : offset + width ≤ bytes.length) :
    bytesOf (get bytes offset width) width = window bytes offset width := by
  have size : (window bytes offset width).length = width := length_window _ _ _ fits
  have round := toBytes_ofBytes (window bytes offset width)
  rw [size] at round
  rw [bytesOf_eq_toBytes _ small, toNat_get _ _ small fits, round]

/-- A field narrower than the accumulator loses nothing when it is widened again. -/
theorem toNat_get_lt (bytes : List UInt8) (offset : Nat) {width : Nat} (small : width ≤ 8)
    (fits : offset + width ≤ bytes.length) : (get bytes offset width).toNat < 256 ^ width := by
  have size : (window bytes offset width).length = width := length_window _ _ _ fits
  have := ofBytes_lt (window bytes offset width)
  rwa [size, ← toNat_get _ _ small fits] at this

theorem toUInt64_getU32 (bytes : List UInt8) (offset : Nat) (fits : offset + 4 ≤ bytes.length) :
    (getU32 bytes offset).toUInt64 = get bytes offset 4 := by
  have := toNat_get_lt bytes offset (by decide) fits
  refine UInt64.toNat_inj.1 ?_
  rw [getU32, UInt32.toNat_toUInt64, UInt64.toNat_toUInt32]
  omega

end Reb.Capture
