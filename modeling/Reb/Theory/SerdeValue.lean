/-
# Theory.SerdeValue -- JSON as an untyped value

A value as a program reads it without a schema: every accessor answers, with `null` or
nothing where the shape is another one.  Numbers keep the three ways they are stored.
An object is its members in the order of their names; `set` keeps that order and changes
one member.
-/
import Mathlib

namespace Reb.Theory.Serde

set_option autoImplicit false

/-- A non-negative integer of 64 bits, a negative one, or a finite float by its bits. -/
inductive Number where
  | posInt (value : UInt64)
  | negInt (value : Int)
  | float (bits : UInt64)
  deriving DecidableEq, Repr

/-- Floats compare as numbers: the two zeros are equal. -/
def Number.eq : Number → Number → Bool
  | .posInt a, .posInt b => a == b
  | .negInt a, .negInt b => a == b
  | .float a, .float b => a == b || (a <<< 1 == 0 && b <<< 1 == 0)
  | _, _ => false

theorem Number.eq_comm (a b : Number) : a.eq b = b.eq a := by
  cases a <;> cases b <;> simp only [Number.eq, BEq.comm, Bool.and_comm]

inductive Value where
  | null
  | bool (value : Bool)
  | number (value : Number)
  | string (value : String)
  | array (values : List Value)
  | object (members : List (String × Value))

namespace Value

instance : Inhabited Value := ⟨.null⟩

/-- `json!` of a count. -/
def nat (n : Nat) : Value := .number (.posInt (.ofNat n))

/-! ## Equality -/

mutual

def eq : Value → Value → Bool
  | .null, .null => true
  | .bool a, .bool b => a == b
  | .number a, .number b => a.eq b
  | .string a, .string b => a == b
  | .array as, .array bs => eqValues as bs
  | .object as, .object bs => eqMembers as bs
  | _, _ => false

def eqValues : List Value → List Value → Bool
  | [], [] => true
  | a :: as, b :: bs => a.eq b && eqValues as bs
  | _, _ => false

def eqMembers : List (String × Value) → List (String × Value) → Bool
  | [], [] => true
  | (name, a) :: as, (name', b) :: bs => name == name' && a.eq b && eqMembers as bs
  | _, _ => false

end

mutual

theorem eq_comm : (a b : Value) → a.eq b = b.eq a
  | .array as, .array bs => by rw [eq, eq, eqValues_comm]
  | .object as, .object bs => by rw [eq, eq, eqMembers_comm]
  | .number a, .number b => by rw [eq, eq, Number.eq_comm]
  | .bool a, .bool b => by rw [eq, eq, BEq.comm]
  | .string a, .string b => by rw [eq, eq, BEq.comm]
  | .null, .null => rfl
  | .null, .bool _ | .null, .number _ | .null, .string _ | .null, .array _ | .null, .object _
  | .bool _, .null | .bool _, .number _ | .bool _, .string _ | .bool _, .array _
  | .bool _, .object _ | .number _, .null | .number _, .bool _ | .number _, .string _
  | .number _, .array _ | .number _, .object _ | .string _, .null | .string _, .bool _
  | .string _, .number _ | .string _, .array _ | .string _, .object _ | .array _, .null
  | .array _, .bool _ | .array _, .number _ | .array _, .string _ | .array _, .object _
  | .object _, .null | .object _, .bool _ | .object _, .number _ | .object _, .string _
  | .object _, .array _ => rfl

theorem eqValues_comm : (as bs : List Value) → eqValues as bs = eqValues bs as
  | [], [] => rfl
  | [], _ :: _ | _ :: _, [] => rfl
  | a :: as, b :: bs => by rw [eqValues, eqValues, eq_comm, eqValues_comm]

theorem eqMembers_comm : (as bs : List (String × Value)) → eqMembers as bs = eqMembers bs as
  | [], [] => rfl
  | [], _ :: _ | _ :: _, [] => rfl
  | (name, a) :: as, (name', b) :: bs => by
      rw [eqMembers, eqMembers, eq_comm, eqMembers_comm, BEq.comm]

end
/-! ## Access -/

def get (value : Value) (name : String) : Value :=
  match value with
  | .object members => (members.lookup name).getD .null
  | _ => .null

def asStr : Value → Option String
  | .string value => some value
  | _ => none

def asU64 : Value → Option UInt64
  | .number (.posInt value) => some value
  | _ => none

def asBool : Value → Option Bool
  | .bool value => some value
  | _ => none

def asArray : Value → Option (List Value)
  | .array values => some values
  | _ => none

def isNull : Value → Bool
  | .null => true
  | _ => false

/-- `value == "text"`. -/
def isStr (value : Value) (text : String) : Bool := value.asStr == some text

/-- `value == true`. -/
def isBool (value : Value) (truth : Bool) : Bool := value.asBool == some truth

/-- The first member of that name with another value. -/
def replaceMember (name : String) (value : Value) :
    List (String × Value) → List (String × Value)
  | [] => []
  | member :: rest =>
      if member.1 = name then (name, value) :: rest else member :: replaceMember name value rest

/-- A member's value replaced where it stands, or the member put in the order of names. -/
def setMember (name : String) (value : Value) (members : List (String × Value)) :
    List (String × Value) :=
  if (members.lookup name).isSome then replaceMember name value members
  else members.takeWhile (·.1 < name) ++ (name, value) :: members.dropWhile (·.1 < name)

/-- `value[name] = member`: nothing becomes an object, anything else that is none panics. -/
def set (value : Value) (name : String) (member : Value) : Option Value :=
  match value with
  | .null => some (.object [(name, member)])
  | .object members => some (.object (setMember name member members))
  | _ => none

theorem get_object (members : List (String × Value)) (name : String) :
    get (.object members) name = (members.lookup name).getD .null := rfl

theorem asU64_eq_some {value : Value} {n : UInt64} :
    value.asU64 = some n ↔ value = .number (.posInt n) := by
  constructor
  · intro read
    cases value with
    | number number =>
        cases number with
        | posInt value =>
            cases read
            rfl
        | negInt value => cases read
        | float bits => cases read
    | null => cases read
    | bool value => cases read
    | string value => cases read
    | array values => cases read
    | object members => cases read
  · rintro rfl
    rfl

/-- Only an object has a member that is not `null`. -/
theorem exists_members {value : Value} {name : String} (some : value.get name ≠ .null) :
    ∃ members, value = .object members ∧ members.lookup name = Option.some (value.get name) := by
  cases value with
  | object members =>
      refine ⟨members, rfl, ?_⟩
      rw [get_object] at some ⊢
      cases found : members.lookup name with
      | none => rw [found] at some; exact absurd rfl some
      | some value => rfl
  | null => exact absurd rfl some
  | bool value => exact absurd rfl some
  | number value => exact absurd rfl some
  | string value => exact absurd rfl some
  | array values => exact absurd rfl some

theorem replaceMember_same {name : String} {value : Value} {members : List (String × Value)}
    (found : members.lookup name = some value) : replaceMember name value members = members := by
  induction members with
  | nil => cases found
  | cons member rest ih =>
      rw [List.lookup_cons] at found
      rw [replaceMember]
      by_cases same : member.1 = name
      · rw [beq_iff_eq.2 same.symm] at found
        cases found
        rw [if_pos same, ← same]
      · rw [beq_eq_false_iff_ne.2 (Ne.symm same)] at found
        rw [if_neg same, ih found]

theorem lookup_replaceMember {name other : String} (apart : other ≠ name) (value : Value)
    (members : List (String × Value)) :
    (replaceMember name value members).lookup other = members.lookup other := by
  induction members with
  | nil => rfl
  | cons member rest ih =>
      rw [replaceMember]
      split
      · rename_i same
        rw [List.lookup_cons, List.lookup_cons, same]
        simp [beq_false_of_ne apart]
      · rw [List.lookup_cons, List.lookup_cons, ih]

/-- Writing one member leaves the others. -/
theorem get_set_of_ne {value member : Value} {name other : String} (apart : other ≠ name) :
    ((value.set name member).getD value).get other = value.get other := by
  cases value with
  | object members =>
      change ((setMember name member members).lookup other).getD .null = _
      rw [get_object, setMember]
      split
      · rw [lookup_replaceMember apart]
      · rw [List.lookup_append, List.lookup_cons, beq_false_of_ne apart, ← List.lookup_append,
          List.takeWhile_append_dropWhile]
  | null =>
      change ([(name, member)].lookup other).getD .null = _
      rw [List.lookup_cons, beq_false_of_ne apart]
      rfl
  | bool value => rfl
  | number value => rfl
  | string value => rfl
  | array values => rfl

/-- Writing what stands there. -/
theorem set_same {value : Value} {name : String} (some : value.get name ≠ .null) :
    value.set name (value.get name) = Option.some value := by
  obtain ⟨members, rfl, found⟩ := exists_members some
  rw [set, setMember, found, Option.isSome_some, if_pos rfl, replaceMember_same found]

end Value

end Reb.Theory.Serde
