/-
# Theory.Layout -- records of a fixed width

A `Layout` is a type whose values are the byte strings of one width: writing and reading are
inverse both ways, so no byte of a record is lost and none is free.  Products and changes of
representation keep that, and a sequence of records is read back from its bytes
(`records_flatMap`).
-/
import Reb.Theory.LittleEndian

namespace Reb.Theory

set_option autoImplicit false

structure Layout (α : Type) where
  width : Nat
  write : α → List UInt8
  read : List UInt8 → α
  length_write : ∀ value, (write value).length = width
  read_write : ∀ value, read (write value) = value
  write_read : ∀ bytes, bytes.length = width → write (read bytes) = bytes

namespace Layout

variable {α β : Type}

/-! ## Layouts -/

/-- A word, least significant byte first. -/
def word (width : Nat) (toNat : α → Nat) (ofNat : Nat → α)
    (bound : ∀ value, toNat value < 256 ^ width) (ofNat_toNat : ∀ value, ofNat (toNat value) = value)
    (toNat_ofNat : ∀ number, number < 256 ^ width → toNat (ofNat number) = number) : Layout α where
  width := width
  write value := LittleEndian.toBytes (toNat value) width
  read bytes := ofNat (LittleEndian.ofBytes bytes)
  length_write value := by simp [LittleEndian.toBytes]
  read_write value := by
    rw [LittleEndian.ofBytes_toBytes, Nat.mod_eq_of_lt (bound value), ofNat_toNat]
  write_read bytes size := by
    rw [toNat_ofNat _ (size ▸ LittleEndian.ofBytes_lt bytes), ← size, LittleEndian.toBytes_ofBytes]

def word16 : Layout UInt16 :=
  word 2 UInt16.toNat UInt16.ofNat UInt16.toNat_lt (fun _ => UInt16.ofNat_toNat)
    fun _ => UInt16.toNat_ofNat_of_lt'

def word32 : Layout UInt32 :=
  word 4 UInt32.toNat UInt32.ofNat UInt32.toNat_lt (fun _ => UInt32.ofNat_toNat)
    fun _ => UInt32.toNat_ofNat_of_lt'

def word64 : Layout UInt64 :=
  word 8 UInt64.toNat UInt64.ofNat UInt64.toNat_lt (fun _ => UInt64.ofNat_toNat)
    fun _ => UInt64.toNat_ofNat_of_lt'

def array (size : Nat) : Layout (Vector UInt8 size) where
  width := size
  write bytes := bytes.toList
  read bytes := Vector.ofFn fun index => bytes.getD index.val 0
  length_write bytes := Vector.length_toList
  read_write bytes := by
    apply Vector.ext
    intro index inside
    rw [Vector.getElem_ofFn, List.getD_eq_getElem _ _ (by rwa [Vector.length_toList])]
    exact Vector.getElem_toList _
  write_read bytes length := by
    apply List.ext_getElem
    · rw [Vector.length_toList, length]
    · intro index _ inside
      rw [Vector.getElem_toList, Vector.getElem_ofFn, List.getD_eq_getElem _ _ inside]

/-- One record behind another. -/
def prod (first : Layout α) (second : Layout β) : Layout (α × β) where
  width := first.width + second.width
  write value := first.write value.1 ++ second.write value.2
  read bytes := (first.read (bytes.take first.width), second.read (bytes.drop first.width))
  length_write value := by rw [List.length_append, first.length_write, second.length_write]
  read_write value := by
    rw [List.take_left' (first.length_write _), List.drop_left' (first.length_write _),
      first.read_write, second.read_write]
  write_read bytes size := by
    rw [first.write_read _ (by rw [List.length_take]; omega),
      second.write_read _ (by rw [List.length_drop]; omega), List.take_append_drop]

/-- The same bytes for another type. -/
def map (layout : Layout α) (same : α ≃ β) : Layout β where
  width := layout.width
  write value := layout.write (same.symm value)
  read bytes := same (layout.read bytes)
  length_write value := layout.length_write _
  read_write value := by rw [layout.read_write, same.apply_symm_apply]
  write_read bytes size := by rw [same.symm_apply_apply, layout.write_read bytes size]

/-! ## Sequences of records -/

variable (layout : Layout α)

theorem length_flatMap_write (values : List α) :
    (values.flatMap layout.write).length = values.length * layout.width := by
  induction values with
  | nil => exact (Nat.zero_mul _).symm
  | cons value rest ih =>
      rw [List.flatMap_cons, List.length_append, layout.length_write, ih, List.length_cons]
      ring

/-- The record at an index of a sequence. -/
def record (bytes : List UInt8) (index : Nat) : α :=
  layout.read ((bytes.drop (index * layout.width)).take layout.width)

def records (bytes : List UInt8) : List α :=
  (List.range (bytes.length / layout.width)).map (layout.record bytes)

theorem record_append (value : α) (bytes : List UInt8) (index : Nat) :
    layout.record (layout.write value ++ bytes) (index + 1) = layout.record bytes index := by
  rw [record, record, Nat.succ_mul, Nat.add_comm, List.drop_append,
    List.drop_of_length_le (by rw [layout.length_write]; omega), List.nil_append,
    layout.length_write, Nat.add_sub_cancel_left]

theorem record_first (value : α) (bytes : List UInt8) :
    layout.record (layout.write value ++ bytes) 0 = value := by
  rw [record, Nat.zero_mul, List.drop_zero, List.take_left' (layout.length_write _),
    layout.read_write]

theorem records_flatMap (positive : 0 < layout.width) (values : List α) :
    layout.records (values.flatMap layout.write) = values := by
  rw [records, length_flatMap_write, Nat.mul_div_cancel _ positive]
  induction values with
  | nil => rfl
  | cons value rest ih =>
      rw [List.flatMap_cons, List.length_cons, List.range_succ_eq_map, List.map_cons,
        record_first, List.map_map]
      refine congrArg (value :: ·) (.trans ?_ ih)
      exact List.map_congr_left fun index _ => layout.record_append value _ index

/-- Bytes of a whole number of records are those of a sequence. -/
theorem exists_records {bytes : List UInt8} (whole : layout.width ∣ bytes.length) :
    ∃ values : List α, values.flatMap layout.write = bytes := by
  obtain ⟨count, size⟩ := whole
  induction count generalizing bytes with
  | zero =>
      rw [Nat.mul_zero, List.length_eq_zero_iff] at size
      exact ⟨[], size.symm⟩
  | succ count ih =>
      rw [Nat.mul_succ] at size
      have front : (bytes.take layout.width).length = layout.width := by
        rw [List.length_take]
        omega
      have back : (bytes.drop layout.width).length = layout.width * count := by
        rw [List.length_drop]
        omega
      obtain ⟨values, same⟩ := ih back
      refine ⟨layout.read (bytes.take layout.width) :: values, ?_⟩
      rw [List.flatMap_cons, layout.write_read _ front, same, List.take_append_drop]

end Layout

end Reb.Theory
