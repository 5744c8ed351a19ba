/-
# Analysis.Utf8 -- the text checks of the artifact store and of the decoder

Both walk the bytes by whole sequences: printable ASCII by itself, a lead byte together
with the continuation bytes it announces.  The store's check refuses control characters,
the decoder's lets them pass.  A text may be cut at any ASCII byte (`isValidUtf8_cut`),
since no sequence goes over one.
-/
import Mathlib

namespace Reb.Evidence

set_option autoImplicit false

/-- The continuation bytes a lead byte announces, and the bits it carries. -/
def utf8Lead (byte : UInt8) : Option (Nat × UInt32) :=
  if byte &&& 0xe0 = 0xc0 then some (1, (byte &&& 0x1f).toUInt32)
  else if byte &&& 0xf0 = 0xe0 then some (2, (byte &&& 0x0f).toUInt32)
  else if byte &&& 0xf8 = 0xf0 then some (3, (byte &&& 0x07).toUInt32)
  else none

def utf8Overlong (continuationCount : Nat) (codePoint : UInt32) : Bool :=
  (continuationCount == 1 && codePoint < 0x80) || (continuationCount == 2 && codePoint < 0x800) ||
    (continuationCount == 3 && codePoint < 0x10000)

def utf8CodePoint (lead : UInt32) (continuation : List UInt8) : UInt32 :=
  continuation.foldl (fun codePoint byte => (codePoint <<< 6) ||| (byte &&& 0x3f).toUInt32) lead

/-- The loop of `IsValidUtf8`; every turn consumes a byte, so the text's length bounds it. -/
def isValidUtf8Loop : Nat → List UInt8 → Bool
  | _, [] => true
  | 0, _ :: _ => false
  | turns + 1, byte :: rest =>
      if byte ≤ 0x7f then
        if byte < 0x20 || byte == 0x7f then false else isValidUtf8Loop turns rest
      else
        match utf8Lead byte with
        | none => false
        | some (continuationCount, lead) =>
            if rest.length < continuationCount then false
            else if !(rest.take continuationCount).all (fun b => b &&& 0xc0 == 0x80) then false
            else
              let codePoint := utf8CodePoint lead (rest.take continuationCount)
              if utf8Overlong continuationCount codePoint || codePoint > 0x10ffff ||
                  (codePoint ≥ 0xd800 && codePoint ≤ 0xdfff) then false
              else isValidUtf8Loop turns (rest.drop continuationCount)

def isValidUtf8 (text : List UInt8) : Bool := isValidUtf8Loop text.length text

example : isValidUtf8 [0x61, 0xc3, 0xa9, 0xf0, 0x9f, 0x98, 0x80] = true := by decide +kernel

/-- A surrogate in three bytes. -/
example : isValidUtf8 [0xed, 0xa0, 0x80] = false := by decide +kernel

end Reb.Evidence

namespace Reb.Analysis

open Reb.Evidence

/-! # The check of the decoder -/

/-- The continuation bytes of the sequence that starts a text, if it is a good one. -/
def continuationCount (byte : UInt8) (rest : List UInt8) : Option Nat :=
  if byte ≤ 0x7f then some 0
  else
    match utf8Lead byte with
    | none => none
    | some (count, lead) =>
        if rest.length < count then none
        else if !(rest.take count).all (fun b => b &&& 0xc0 == 0x80) then none
        else
          let codePoint := utf8CodePoint lead (rest.take count)
          if utf8Overlong count codePoint || codePoint > 0x10ffff ||
              (codePoint ≥ 0xd800 && codePoint ≤ 0xdfff) then none
          else some count

/-- The loop of `IsValidUtf8`; every turn consumes a byte, so the text's length bounds it. -/
def isValidUtf8Loop : Nat → List UInt8 → Bool
  | _, [] => true
  | 0, _ :: _ => false
  | turns + 1, byte :: rest =>
      match continuationCount byte rest with
      | none => false
      | some count => isValidUtf8Loop turns (rest.drop count)

def isValidUtf8 (text : List UInt8) : Bool := isValidUtf8Loop text.length text

theorem continuationCount_le {byte : UInt8} {rest : List UInt8} {count : Nat}
    (counts : continuationCount byte rest = some count) : count ≤ rest.length := by
  unfold continuationCount at counts
  split at counts
  · cases counts
    exact Nat.zero_le _
  · split at counts
    · cases counts
    · rename_i announced lead _
      split at counts
      · cases counts
      · rename_i enough
        dsimp only at counts
        split at counts
        · cases counts
        · split at counts <;> cases counts
          omega

/-- More turns than bytes change nothing. -/
theorem isValidUtf8Loop_turns (turns : Nat) (text : List UInt8) (enough : text.length ≤ turns) :
    isValidUtf8Loop turns text = isValidUtf8 text := by
  rw [isValidUtf8]
  induction turns using Nat.strong_induction_on generalizing text with
  | _ turns ih =>
      cases text with
      | nil => cases turns <;> rfl
      | cons byte rest =>
          obtain ⟨turns, rfl⟩ : ∃ less, turns = less + 1 := ⟨turns - 1, by simp at enough; omega⟩
          rw [List.length_cons, isValidUtf8Loop, isValidUtf8Loop]
          cases counts : continuationCount byte rest with
          | none => rfl
          | some count =>
              simp only [List.length_cons] at enough
              simp only
              have short : (rest.drop count).length ≤ rest.length := by simp
              rw [ih turns (Nat.lt_succ_self _) _ (by omega)]
              by_cases same : rest.length = turns
              · rw [same, ih turns (Nat.lt_succ_self _) _ (by omega)]
              · rw [ih rest.length (by omega) _ short]

theorem isValidUtf8_nil : isValidUtf8 [] = true := rfl

theorem isValidUtf8_cons (byte : UInt8) (rest : List UInt8) :
    isValidUtf8 (byte :: rest)
      = match continuationCount byte rest with
        | none => false
        | some count => isValidUtf8 (rest.drop count) := by
  rw [isValidUtf8, List.length_cons, isValidUtf8Loop]
  cases continuationCount byte rest with
  | none => rfl
  | some count => exact isValidUtf8Loop_turns _ _ (by simp)

theorem isValidUtf8_ascii {byte : UInt8} (ascii : byte ≤ 0x7f) (rest : List UInt8) :
    isValidUtf8 (byte :: rest) = isValidUtf8 rest := by
  rw [isValidUtf8_cons, continuationCount, if_pos ascii]
  rfl

/-- No sequence goes over an ASCII byte. -/
theorem continuationCount_cut (byte : UInt8) (before : List UInt8) {middle : UInt8}
    (ascii : middle ≤ 0x7f) (after : List UInt8) :
    continuationCount byte (before ++ middle :: after) = continuationCount byte before := by
  have lone : (middle &&& 0xc0 == 0x80) = false := by
    revert middle
    decide +kernel
  unfold continuationCount
  by_cases plain : byte ≤ 0x7f
  · rw [if_pos plain, if_pos plain]
  · rw [if_neg plain, if_neg plain]
    cases utf8Lead byte with
    | none => rfl
    | some announced =>
        obtain ⟨count, lead⟩ := announced
        simp only
        by_cases short : before.length < count
        · rw [if_pos short]
          split
          · rfl
          · rw [if_pos]
            have within : middle ∈ (before ++ middle :: after).take count := by
              rw [List.take_append, List.mem_append]
              right
              obtain ⟨more, same⟩ : ∃ more, count - before.length = more + 1 :=
                ⟨count - before.length - 1, by omega⟩
              simp [same]
            simp only [Bool.not_eq_true', List.all_eq_false]
            exact ⟨middle, within, by simp [lone]⟩
        · rw [if_neg short, if_neg (by simp; omega), List.take_append_of_le_length (by omega)]

/-- A text is good exactly when it is on both sides of an ASCII byte. -/
theorem isValidUtf8_cut (before : List UInt8) {middle : UInt8} (ascii : middle ≤ 0x7f)
    (after : List UInt8) :
    isValidUtf8 (before ++ middle :: after) = (isValidUtf8 before && isValidUtf8 after) := by
  induction size : before.length using Nat.strong_induction_on generalizing before with
  | _ size ih =>
      cases before with
      | nil => rw [List.nil_append, isValidUtf8_ascii ascii, isValidUtf8_nil, Bool.true_and]
      | cons byte before =>
          rw [List.cons_append, isValidUtf8_cons, isValidUtf8_cons, continuationCount_cut _ _ ascii]
          cases counts : continuationCount byte before with
          | none => rfl
          | some count =>
              have fits := continuationCount_le counts
              simp only
              rw [List.drop_append_of_le_length fits]
              rw [List.length_cons] at size
              exact ih (before.drop count).length (by rw [List.length_drop]; omega) _ rfl

/-- ASCII bytes in front change nothing. -/
theorem isValidUtf8_blank {front : List UInt8} (ascii : ∀ byte ∈ front, byte ≤ 0x7f)
    (rest : List UInt8) : isValidUtf8 (front ++ rest) = isValidUtf8 rest := by
  induction front with
  | nil => rfl
  | cons byte front ih =>
      rw [List.cons_append, isValidUtf8_ascii (ascii byte (by simp))]
      exact ih fun other member => ascii other (by simp [member])

end Reb.Analysis
