/-
# Theory.Utf8 -- where a UTF-8 text may be cut

The bytes of a character are a first byte and continuation bytes, so a text may be cut
before every byte that continues no character (`utf8_cut`).
-/
import Mathlib

namespace Reb.Theory.Utf8

set_option autoImplicit false

def utf8 (cs : List Char) : List UInt8 := cs.flatMap String.utf8EncodeChar

/-- The byte of an ASCII character. -/
def byte (c : Char) : UInt8 := .ofNat c.toNat

def isContinuation (byte : UInt8) : Bool := 0x80 ≤ byte && byte < 0xc0

theorem utf8_cons (c : Char) (cs : List Char) :
    utf8 (c :: cs) = String.utf8EncodeChar c ++ utf8 cs := List.flatMap_cons

theorem utf8_append (cs ds : List Char) : utf8 (cs ++ ds) = utf8 cs ++ utf8 ds := List.flatMap_append

theorem isContinuation_ascii {byte : UInt8} (ascii : byte < 0x80) : isContinuation byte = false := by
  rw [isContinuation, decide_eq_false (UInt8.not_le.2 ascii), Bool.false_and]

/-! ## One character -/

theorem ofNat_continuation (n : Nat) : isContinuation (.ofNat (n % 64 + 128)) = true := by
  have all : ∀ m < 64, isContinuation (.ofNat (m + 128)) = true := by decide
  exact all _ (Nat.mod_lt _ (by decide))

theorem ofNat_lead {n : Nat} (low : 0xc0 ≤ n) (small : n < 0x100) :
    isContinuation (.ofNat n) = false := by
  have value : (UInt8.ofNat n).toNat = n := UInt8.toNat_ofNat_of_lt' small
  simp only [isContinuation, Bool.and_eq_false_iff, decide_eq_false_iff_not, UInt8.not_lt,
    UInt8.le_iff_toNat_le, value]
  exact .inr low

/-- The continuation bytes behind a first byte. -/
def continuations (first : UInt8) : Nat :=
  if first < 0x80 then 0 else if first < 0xe0 then 1 else if first < 0xf0 then 2 else 3

theorem continuations_lead {n : Nat} (low : 0xc0 ≤ n) (small : n < 0x100) :
    continuations (.ofNat n) = if n < 0xe0 then 1 else if n < 0xf0 then 2 else 3 := by
  have value : (UInt8.ofNat n).toNat = n := UInt8.toNat_ofNat_of_lt' small
  have ascii : ¬ UInt8.ofNat n < 0x80 := by
    rw [UInt8.lt_iff_toNat_lt, value]
    exact Nat.not_lt.2 (Nat.le_trans (by decide) low)
  have two : UInt8.ofNat n < 0xe0 ↔ n < 0xe0 := by
    rw [UInt8.lt_iff_toNat_lt, value]
    exact Iff.rfl
  have three : UInt8.ofNat n < 0xf0 ↔ n < 0xf0 := by
    rw [UInt8.lt_iff_toNat_lt, value]
    exact Iff.rfl
  rw [continuations, if_neg ascii]
  simp only [two, three]

/-- A character has one ASCII byte, or a first byte and continuation bytes. -/
theorem encodeChar_shape (c : Char) :
    ∃ first rest, String.utf8EncodeChar c = first :: rest ∧ isContinuation first = false ∧
      (∀ b ∈ rest, isContinuation b = true) ∧ rest.length = continuations first := by
  have range := c.valid
  rw [String.utf8EncodeChar]
  split
  · next small =>
      have ascii : UInt8.ofNat c.val.toNat < 0x80 := by
        rw [UInt8.lt_iff_toNat_lt]
        exact Nat.lt_of_le_of_lt (Nat.mod_le _ _) (Nat.lt_succ_of_le small)
      exact ⟨_, [], rfl, isContinuation_ascii ascii, by simp, by rw [continuations, if_pos ascii]; rfl⟩
  · split
    · have lead := ofNat_lead (n := c.val.toNat / 64 % 32 + 192) (by omega) (by omega)
      refine ⟨_, _, rfl, lead, by simpa using ofNat_continuation _, ?_⟩
      rw [continuations_lead (by omega) (by omega), if_pos (by omega)]
      rfl
    · split
      · have lead := ofNat_lead (n := c.val.toNat / 4096 % 16 + 224) (by omega) (by omega)
        refine ⟨_, _, rfl, lead, by simp only [List.forall_mem_cons, ofNat_continuation]; simp, ?_⟩
        rw [continuations_lead (by omega) (by omega), if_neg (by omega), if_pos (by omega)]
        rfl
      · have lead := ofNat_lead (n := c.val.toNat / 262144 % 8 + 240) (by omega) (by omega)
        refine ⟨_, _, rfl, lead, by simp only [List.forall_mem_cons, ofNat_continuation]; simp, ?_⟩
        rw [continuations_lead (by omega) (by omega), if_neg (by omega), if_neg (by omega)]
        rfl

/-! ## Cutting -/

/-- A text may be cut before a byte that continues no character. -/
theorem utf8_cut {cs : List Char} {before after : List UInt8} (text : utf8 cs = before ++ after)
    (starts : ∀ b ∈ after.head?, isContinuation b = false) :
    ∃ front back, cs = front ++ back ∧ utf8 front = before ∧ utf8 back = after := by
  induction cs generalizing before with
  | nil =>
      obtain ⟨rfl, rfl⟩ := List.append_eq_nil_iff.1 text.symm
      exact ⟨[], [], rfl, rfl, rfl⟩
  | cons c cs ih =>
      cases before with
      | nil => exact ⟨[], c :: cs, rfl, rfl, text⟩
      | cons b before =>
          obtain ⟨first, rest, shape, _, continued, _⟩ := encodeChar_shape c
          rw [utf8_cons] at text
          rcases List.append_eq_append_iff.1 text with ⟨more, whole, left⟩ | ⟨inner, whole, left⟩
          · obtain ⟨front, back, rfl, rfl, rfl⟩ := ih left
            exact ⟨c :: front, back, rfl, by rw [utf8_cons, whole], rfl⟩
          · cases inner with
            | nil =>
                rw [List.append_nil] at whole
                rw [List.nil_append] at left
                obtain ⟨front, back, rfl, front_is, back_is⟩ := @ih [] left.symm
                exact ⟨c :: front, back, rfl, by rw [utf8_cons, front_is, List.append_nil, whole], back_is⟩
            | cons next inner =>
                rw [shape, List.cons_append, List.cons.injEq] at whole
                have inside : next ∈ rest := by
                  rw [whole.2]
                  simp
                have other := starts next (by rw [left]; rfl)
                rw [continued next inside] at other
                cases other

end Reb.Theory.Utf8
