/-
# Theory.Json -- JSON trees and their typed readers

A typed reader takes a tree to a value or refuses it.  An object is read through
`fields`: every member must be known, none may repeat and none be missing, and
the order of the members does not matter.  Counters travel as canonical decimal strings;
`readDecimal_decimal` is their round trip.
-/
import Mathlib.Tactic.IntervalCases

namespace Reb.Theory

set_option autoImplicit false

inductive Json where
  | null
  | bool (value : Bool)
  | number (value : Nat)
  | string (value : String)
  | array (values : List Json)
  | object (members : List (String × Json))

namespace Json

/-- The values of the known members of an object, in the order they are known in: every
member must be known, none may repeat and none be missing. -/
def fields (known : List String) : Json → Option (List Json)
  | .object members =>
      if (members.map Prod.fst).Nodup ∧ ∀ name ∈ members.map Prod.fst, name ∈ known then
        known.mapM fun name => members.lookup name
      else none
  | _ => none

section Lookup

variable {α β : Type} [DecidableEq α]

theorem mapM_lookup_cons (member : α × β) (rest : List (α × β)) {names : List α}
    (apart : member.1 ∉ names) :
    names.mapM (fun name => (member :: rest).lookup name)
      = names.mapM fun name => rest.lookup name := by
  induction names with
  | nil => rfl
  | cons name names ih =>
      rw [List.mem_cons, not_or] at apart
      have other : (name == member.1) = false := beq_eq_false_iff_ne.2 (Ne.symm apart.1)
      have here : (member :: rest).lookup name = rest.lookup name := by
        rw [List.lookup_cons, other]
      rw [List.mapM_cons, List.mapM_cons, ih apart.2, here]

theorem mapM_lookup (members : List (α × β)) (distinct : (members.map Prod.fst).Nodup) :
    (members.map Prod.fst).mapM (fun name => members.lookup name)
      = some (members.map Prod.snd) := by
  induction members with
  | nil => rfl
  | cons member rest ih =>
      rw [List.map_cons, List.nodup_cons] at distinct
      rw [List.map_cons, List.mapM_cons, mapM_lookup_cons member rest distinct.1, ih distinct.2,
        List.lookup_cons_self]
      rfl

end Lookup

/-- An object written in the order of the reader. -/
theorem fields_object {known : List String} {members : List (String × Json)}
    (names : members.map Prod.fst = known) (distinct : known.Nodup) :
    fields known (.object members) = some (members.map Prod.snd) := by
  subst names
  rw [fields, if_pos ⟨distinct, fun _ member => member⟩, mapM_lookup members distinct]

def readBool : Json → Option Bool
  | .bool value => some value
  | _ => none

def readString : Json → Option String
  | .string value => some value
  | _ => none

/-- A number of 32 bits. -/
def readUInt32 : Json → Option UInt32
  | .number value => if value < 2 ^ 32 then some value.toUInt32 else none
  | _ => none

/-- One of the names of an enumeration. -/
def readName {α : Type} (names : List (String × α)) : Json → Option α
  | .string value => names.lookup value
  | _ => none

/-- The elements of an array, each read by the same reader. -/
def readArray {α : Type} (read : Json → Option α) : Json → Option (List α)
  | .array values => values.mapM read
  | _ => none

/-- Null, or what the reader reads. -/
def readNullable {α : Type} (read : Json → Option α) : Json → Option (Option α)
  | .null => some none
  | value => (read value).map some

/-! ## Counters as strings -/

def decimal (value : UInt64) : Json := .string (Nat.repr value.toNat)

/-- A canonical numeral of at most twenty digits that fits 64 bits. -/
def readDecimal : Json → Option UInt64
  | .string text =>
      let digits := text.toList
      if digits.isEmpty || digits.length > 20 || (digits.length > 1 && digits.head? == some '0')
          || !digits.all Char.isDigit then none
      else
        let value := Nat.ofDigitChars 10 digits 0
        if value < 2 ^ 64 then some value.toUInt64 else none
  | _ => none

theorem digitChar_ne_zero {digit : Nat} (positive : 0 < digit) (small : digit < 10) :
    digit.digitChar ≠ '0' := by
  interval_cases digit <;> decide

/-- Only the numeral of zero starts with zero. -/
theorem head_toDigits {value : Nat} (positive : 0 < value) :
    (Nat.toDigits 10 value).head? ≠ some '0' := by
  induction value using Nat.strongRecOn with
  | ind value ih =>
      rw [Nat.toDigits_eq_if (by decide)]
      split
      · next small =>
          rw [List.head?_cons, ne_eq, Option.some.injEq]
          exact digitChar_ne_zero positive small
      · next large =>
          rw [List.head?_append, Option.or_of_isSome (List.isSome_head?.2 Nat.toDigits_ne_nil)]
          exact ih (value / 10) (Nat.div_lt_self positive (by decide))
            (Nat.div_pos (by omega) (by decide))

@[simp] theorem readDecimal_decimal (value : UInt64) : readDecimal (decimal value) = some value := by
  have digits : (Nat.repr value.toNat).toList = Nat.toDigits 10 value.toNat := Nat.toList_repr
  have short : (Nat.toDigits 10 value.toNat).length ≤ 20 := by
    rw [Nat.length_toDigits_le_iff (by decide) (by decide)]
    exact Nat.lt_trans value.toNat_lt (by decide)
  have leading : ¬ ((Nat.toDigits 10 value.toNat).length > 1
      ∧ (Nat.toDigits 10 value.toNat).head? = some '0') := by
    rintro ⟨long, zero⟩
    rcases Nat.eq_zero_or_pos value.toNat with none | positive
    · rw [none, Nat.toDigits_zero] at long
      exact absurd long (by decide)
    · exact head_toDigits positive zero
  have all : (Nat.toDigits 10 value.toNat).all Char.isDigit = true :=
    List.all_eq_true.2 fun c member => Nat.isDigit_of_mem_toDigits (by decide) (by decide) member
  have accepted : ((Nat.toDigits 10 value.toNat).isEmpty
      || decide ((Nat.toDigits 10 value.toNat).length > 20)
      || (decide ((Nat.toDigits 10 value.toNat).length > 1)
        && (Nat.toDigits 10 value.toNat).head? == some '0')
      || !(Nat.toDigits 10 value.toNat).all Char.isDigit) = false := by
    rw [all, List.isEmpty_eq_false_iff.2 Nat.toDigits_ne_nil, decide_eq_false (by omega)]
    rw [Bool.eq_false_iff]
    simpa using leading
  simp only [decimal, readDecimal, digits, accepted, Bool.false_eq_true, ↓reduceIte,
    Nat.ofDigitChars_ten_toDigits, value.toNat_lt]
  exact congrArg some (UInt64.ofNat_toNat)

@[simp] theorem readUInt32_number (value : UInt32) :
    readUInt32 (.number value.toNat) = some value := by
  rw [readUInt32, if_pos value.toNat_lt]
  exact congrArg some (UInt32.ofNat_toNat)

/-- An array written element by element is read element by element. -/
theorem readArray_map {α β : Type} {read : Json → Option β} {write : α → Json} {f : α → β}
    (reads : ∀ x, read (write x) = some (f x)) (xs : List α) :
    readArray read (.array (xs.map write)) = some (xs.map f) := by
  rw [readArray, List.mapM_map]
  induction xs with
  | nil => rfl
  | cons x rest ih => simp [List.mapM_cons, reads, ih]

end Json

end Reb.Theory
