/-
# Theory.JsValue -- JSON values, maps and sets of a JavaScript program

A string is its UTF-16 units, lone surrogates included.  A number is an integer, the
negative zero or any other double by the text it is written in.  An object is its own
properties in their order.  `stringify` writes a value as `JSON.stringify` does.

A map is its entries in the order of insertion; `set` changes the value of a known key where
it stands and appends a new one.  `get_ofEntries` reads a map built from entries that never
give one key two values.  A set is the keys of such a map.
-/
import Mathlib
import Reb.Theory.Decimal
import Reb.Theory.Utf16

namespace Reb.Theory.Js

set_option autoImplicit false

abbrev Text := List UInt16

/-- The units of a literal. -/
def units (text : String) : Text := Utf16.encode text.toList

inductive Number where
  | integer (value : Int)
  | negativeZero
  | other (text : Text)
  deriving DecidableEq, Repr

inductive Value where
  | null
  | bool (value : Bool)
  | number (value : Number)
  | string (value : Text)
  | array (values : List Value)
  | object (members : List (String × Value))

def maxSafeInteger : Int := 9007199254740991

namespace Number

/-- The mathematical value of an integer. -/
def integer? : Number → Option Int
  | .integer value => some value
  | .negativeZero => some 0
  | .other _ => none

/-- `Number.isSafeInteger`, with the integer. -/
def safeInteger? (number : Number) : Option Int :=
  number.integer?.filter fun value => -maxSafeInteger ≤ value && value ≤ maxSafeInteger

end Number

/-! ## Writing -/

def hexDigit (d : Nat) : UInt16 := .ofNat (if d < 10 then 48 + d else 87 + d)

/-- An escape by code unit. -/
def escapeUnit (unit : UInt16) : Text :=
  units "\\u" ++ [hexDigit (unit.toNat / 4096), hexDigit (unit.toNat / 256 % 16),
    hexDigit (unit.toNat / 16 % 16), hexDigit (unit.toNat % 16)]

def quoteUnit (unit : UInt16) : Text :=
  if unit = 8 then units "\\b" else if unit = 9 then units "\\t" else if unit = 10 then units "\\n"
  else if unit = 12 then units "\\f" else if unit = 13 then units "\\r"
  else if unit = 34 then units "\\\"" else if unit = 92 then units "\\\\"
  else if unit < 32 then escapeUnit unit else [unit]

/-- What a string is quoted as, without its quotes; a lone surrogate is escaped. -/
def quoteUnits : Text → Text
  | [] => []
  | unit :: rest =>
      if Utf16.isHigh unit then
        match rest with
        | [] => escapeUnit unit
        | low :: rest =>
            if Utf16.isLow low then unit :: low :: quoteUnits rest
            else escapeUnit unit ++ quoteUnits (low :: rest)
      else if Utf16.isLow unit then escapeUnit unit ++ quoteUnits rest
      else quoteUnit unit ++ quoteUnits rest
termination_by text => text.length

def quote (text : Text) : Text := 34 :: quoteUnits text ++ [34]

def Number.text : Number → Text
  | .integer value =>
      (if value < 0 then [45] else []) ++ (Decimal.decimal value.natAbs).map UInt8.toUInt16
  | .negativeZero => [48]
  | .other text => text

mutual

/-- `JSON.stringify`. -/
def stringify : Value → Text
  | .null => units "null"
  | .bool value => if value then units "true" else units "false"
  | .number value => value.text
  | .string value => quote value
  | .array values => 91 :: stringifyValues values ++ [93]
  | .object members => 123 :: stringifyMembers members ++ [125]

def stringifyValues : List Value → Text
  | [] => []
  | [value] => stringify value
  | value :: values => stringify value ++ 44 :: stringifyValues values

def stringifyMembers : List (String × Value) → Text
  | [] => []
  | [(name, value)] => quote (units name) ++ 58 :: stringify value
  | (name, value) :: members =>
      quote (units name) ++ 58 :: stringify value ++ 44 :: stringifyMembers members

end

/-- The length `TextEncoder` gives a text. -/
def encodedLength : Text → Nat
  | [] => 0
  | unit :: rest =>
      if Utf16.isHigh unit then
        match rest with
        | [] => 3
        | low :: rest =>
            if Utf16.isLow low then 4 + encodedLength rest else 3 + encodedLength (low :: rest)
      else (if unit < 0x80 then 1 else if unit < 0x800 then 2 else 3) + encodedLength rest
termination_by text => text.length

/-! ## Reading -/

/-- The properties an object has when it has these and no others, in their order. -/
def Value.exact (value : Value) (keys : List String) : Option (List Value) :=
  match value with
  | .object members =>
      if members.length = keys.length then keys.mapM fun key => members.lookup key else none
  | _ => none

def Value.text? : Value → Option Text
  | .string value => some value
  | _ => none

end Reb.Theory.Js

namespace Reb.Theory.JsMap

variable {κ ν : Type} [DecidableEq κ]

def get : List (κ × ν) → κ → Option ν
  | [], _ => none
  | entry :: m, k => if entry.1 = k then some entry.2 else get m k

def set : List (κ × ν) → κ → ν → List (κ × ν)
  | [], k, v => [(k, v)]
  | entry :: m, k, v => if entry.1 = k then (k, v) :: m else entry :: set m k v

/-- `new Map(entries)` -/
def ofEntries (entries : List (κ × ν)) : List (κ × ν) :=
  entries.foldl (fun m entry => set m entry.1 entry.2) []

/-- `[...new Set(values)]` -/
def unique (values : List κ) : List κ := (ofEntries (values.map fun k => (k, ()))).map Prod.fst

theorem mem_of_get {m : List (κ × ν)} {k : κ} {v : ν} (found : get m k = some v) : (k, v) ∈ m := by
  induction m with
  | nil => cases found
  | cons entry m ih =>
      rw [get] at found
      split_ifs at found with here
      · subst here
        cases found
        simp
      · exact List.mem_cons_of_mem _ (ih found)

theorem get_of_mem {m : List (κ × ν)} (distinct : (m.map Prod.fst).Nodup) {entry : κ × ν}
    (member : entry ∈ m) : get m entry.1 = some entry.2 := by
  induction m with
  | nil => cases member
  | cons first m ih =>
      rw [List.map_cons, List.nodup_cons] at distinct
      rw [get]
      rcases List.mem_cons.1 member with rfl | member
      · rw [if_pos rfl]
      · have other : first.1 ≠ entry.1 := by
          intro same
          exact distinct.1 (same ▸ List.mem_map_of_mem member)
        rw [if_neg other, ih distinct.2 member]

theorem get_isSome {m : List (κ × ν)} {k : κ} : (get m k).isSome ↔ k ∈ m.map Prod.fst := by
  induction m with
  | nil => simp [get]
  | cons entry m ih =>
      rw [get, List.map_cons, List.mem_cons]
      split_ifs with here
      · simp [here]
      · rw [ih, or_iff_right (Ne.symm here)]

theorem get_set (m : List (κ × ν)) (k k' : κ) (v : ν) :
    get (set m k v) k' = if k' = k then some v else get m k' := by
  induction m with
  | nil => simp [set, get, eq_comm]
  | cons entry m ih =>
      by_cases here : entry.1 = k
      · subst here
        by_cases same : entry.1 = k'
        · simp [set, get, same]
        · simp [set, get, same, Ne.symm same]
      · rw [set, if_neg here, get, ih, get]
        by_cases first : entry.1 = k'
        · subst first
          simp [here]
        · rw [if_neg first, if_neg first]

theorem mem_keys_set {m : List (κ × ν)} {k k' : κ} {v : ν} :
    k' ∈ (set m k v).map Prod.fst ↔ k' = k ∨ k' ∈ m.map Prod.fst := by
  induction m with
  | nil => simp [set]
  | cons entry m ih =>
      rw [set]
      split_ifs with here
      · subst here
        simp
      · rw [List.map_cons, List.mem_cons, ih, List.map_cons, List.mem_cons]
        tauto

theorem keys_set_nodup {m : List (κ × ν)} (distinct : (m.map Prod.fst).Nodup) (k : κ) (v : ν) :
    ((set m k v).map Prod.fst).Nodup := by
  induction m with
  | nil => simp [set]
  | cons entry m ih =>
      rw [List.map_cons, List.nodup_cons] at distinct
      rw [set]
      split_ifs with here
      · subst here
        rw [List.map_cons, List.nodup_cons]
        exact distinct
      · rw [List.map_cons, List.nodup_cons, mem_keys_set, not_or]
        exact ⟨⟨here, distinct.1⟩, ih distinct.2⟩

theorem ofEntries_snoc (entries : List (κ × ν)) (entry : κ × ν) :
    ofEntries (entries ++ [entry]) = set (ofEntries entries) entry.1 entry.2 := by
  rw [ofEntries, List.foldl_append]
  rfl

theorem mem_keys_ofEntries {entries : List (κ × ν)} {k : κ} :
    k ∈ (ofEntries entries).map Prod.fst ↔ k ∈ entries.map Prod.fst := by
  induction entries using List.reverseRecOn with
  | nil => rfl
  | append_singleton entries entry ih =>
      rw [ofEntries_snoc, mem_keys_set, ih, List.map_append, List.mem_append]
      simp [or_comm]

theorem keys_ofEntries_nodup (entries : List (κ × ν)) :
    ((ofEntries entries).map Prod.fst).Nodup := by
  induction entries using List.reverseRecOn with
  | nil => exact List.nodup_nil
  | append_singleton entries entry ih =>
      rw [ofEntries_snoc]
      exact keys_set_nodup ih _ _

/-- Entries that agree with one reading are what the map reads. -/
theorem get_ofEntries {entries : List (κ × ν)} {reading : κ → Option ν}
    (reads : ∀ entry ∈ entries, reading entry.1 = some entry.2)
    (listed : ∀ {k v}, reading k = some v → (k, v) ∈ entries) (k : κ) :
    get (ofEntries entries) k = reading k := by
  have known : ∀ front back, entries = front ++ back →
      get (ofEntries front) k = if k ∈ front.map Prod.fst then reading k else none := by
    intro front
    induction front using List.reverseRecOn with
    | nil => simp [ofEntries, get]
    | append_singleton front entry ih =>
        intro back split
        rw [List.append_assoc] at split
        rw [ofEntries_snoc, get_set, ih _ split]
        by_cases same : k = entry.1
        · have seen := reads entry (by rw [split]; simp)
          simp [same, seen]
        · have other : k ∈ (front ++ [entry]).map Prod.fst ↔ k ∈ front.map Prod.fst := by
            rw [List.map_append, List.mem_append, List.map_singleton, List.mem_singleton,
              or_iff_left same]
          rw [if_neg same]
          simp only [other]
  rw [known entries [] (List.append_nil _).symm]
  split_ifs with member
  · rfl
  · cases read : reading k with
    | none => rfl
    | some v => exact absurd (List.mem_map.2 ⟨(k, v), listed read, rfl⟩) member

/-- Distinct keys read as they are listed. -/
theorem get_ofEntries_of_nodup {entries : List (κ × ν)} (distinct : (entries.map Prod.fst).Nodup)
    (k : κ) : get (ofEntries entries) k = get entries k :=
  get_ofEntries (fun _ member => get_of_mem distinct member) mem_of_get k

theorem mem_unique {values : List κ} {k : κ} : k ∈ unique values ↔ k ∈ values := by
  rw [unique, mem_keys_ofEntries]
  simp

theorem unique_nodup (values : List κ) : (unique values).Nodup := keys_ofEntries_nodup _

end Reb.Theory.JsMap
