/-
# Theory.Ipv6 -- the texts of an IPv6 address

`Denotes` reads a literal of hexadecimal groups, with or without a `::` that stands for the
zero groups left out; it gives a literal one address (`denotes_unique`).  `IsCanonical` is
the one spelling of an address that a URL keeps: lowercase groups without leading zeros,
and `::` for the first longest run of two or more zero groups (`canonical_unique`,
`canonical_denotes`).  Literals with an embedded IPv4 form are left out.
-/
import Mathlib

namespace Reb.Theory.Ipv6

set_option autoImplicit false

def colon : UInt8 := 0x3a

/-! ## Groups -/

def hexDigit (digit : Nat) : UInt8 := .ofNat (if digit < 10 then 0x30 + digit else 0x57 + digit)

/-- The digits of a group, without leading zeros. -/
def hexText (group : Nat) : List UInt8 :=
  if group < 16 then [hexDigit group] else hexText (group / 16) ++ [hexDigit (group % 16)]

def digitValue (byte : UInt8) : Option Nat :=
  if 0x30 ≤ byte ∧ byte ≤ 0x39 then some (byte.toNat - 0x30)
  else if 0x61 ≤ byte ∧ byte ≤ 0x66 then some (byte.toNat - 0x57)
  else if 0x41 ≤ byte ∧ byte ≤ 0x46 then some (byte.toNat - 0x37)
  else none

def groupValue (value : Nat) (group : List UInt8) : Nat :=
  group.foldl (fun value byte => value * 16 + (digitValue byte).getD 0) value

/-- One to four digits, in either case. -/
structure Group (group : List UInt8) (value : Nat) : Prop where
  some : group ≠ []
  short : group.length ≤ 4
  digits : ∀ byte ∈ group, digitValue byte ≠ none
  value_is : value = groupValue 0 group

theorem Group.unique : Relator.RightUnique Group := by
  intro group first second one other
  rw [one.value_is, other.value_is]

theorem Group.colon_free {group : List UInt8} {value : Nat} (is_ : Group group value) :
    colon ∉ group := fun inside => is_.digits colon inside (by decide)

/-- The digits of one byte, for all sixteen. -/
theorem digitValue_hexDigit {digit : Nat} (small : digit < 16) :
    digitValue (hexDigit digit) = some digit := by
  have all : ∀ d < 16, digitValue (hexDigit d) = some d := by decide
  exact all digit small

theorem groupValue_cons (value : Nat) (byte : UInt8) (rest : List UInt8) :
    groupValue value (byte :: rest) = groupValue (value * 16 + (digitValue byte).getD 0) rest :=
  List.foldl_cons ..

theorem groupValue_append (value : Nat) (front : List UInt8) (byte : UInt8) :
    groupValue value (front ++ [byte])
      = groupValue value front * 16 + (digitValue byte).getD 0 := by
  rw [groupValue, List.foldl_append]
  rfl

theorem groupValue_hexText (group : Nat) : groupValue 0 (hexText group) = group := by
  induction group using hexText.induct with
  | case1 group small =>
      rw [hexText, if_pos small, groupValue]
      simp [digitValue_hexDigit small]
  | case2 group large ih =>
      rw [hexText, if_neg large, groupValue_append, ih,
        digitValue_hexDigit (Nat.mod_lt _ (by decide)), Option.getD_some]
      omega

theorem hexText_digits (group : Nat) :
    ∀ byte ∈ hexText group, ∃ digit < 16, byte = hexDigit digit := by
  induction group using hexText.induct with
  | case1 group small =>
      rw [hexText, if_pos small]
      simpa using ⟨group, small, rfl⟩
  | case2 group large ih =>
      rw [hexText, if_neg large]
      intro byte inside
      rcases List.mem_append.1 inside with inside | last
      · exact ih byte inside
      · exact ⟨group % 16, Nat.mod_lt _ (by decide), List.mem_singleton.1 last⟩

theorem hexText_ne_nil (group : Nat) : hexText group ≠ [] := by
  rw [hexText]
  split <;> simp

/-- A group of less than `16 ^ n` has at most `n` digits. -/
theorem hexText_length {n group : Nat} (positive : 0 < n) (small : group < 16 ^ n) :
    (hexText group).length ≤ n := by
  induction n generalizing group with
  | zero => exact absurd positive (Nat.lt_irrefl 0)
  | succ n ih =>
      rw [hexText]
      split
      · exact positive
      · next large =>
          rw [List.length_append, List.length_singleton]
          cases n with
          | zero => omega
          | succ n =>
              have smaller : group / 16 < 16 ^ (n + 1) := by
                rw [Nat.div_lt_iff_lt_mul (by decide)]
                rwa [Nat.pow_succ] at small
              exact Nat.succ_le_succ (ih (Nat.succ_pos n) smaller)

theorem hexText_group {group : Nat} (small : group < 0x10000) : Group (hexText group) group where
  some := hexText_ne_nil group
  short := hexText_length (by decide) small
  digits := by
    intro byte inside
    obtain ⟨digit, low, rfl⟩ := hexText_digits group byte inside
    rw [digitValue_hexDigit low]
    simp
  value_is := (groupValue_hexText group).symm

/-! ## Literals -/

def joined (groups : List (List UInt8)) : List UInt8 := [colon].intercalate groups

/-- Eight groups, or fewer with a `::` for the zero groups left out. -/
inductive Denotes : List UInt8 → List Nat → Prop
  | whole (groups : List (List UInt8)) (pieces : List Nat) (all : List.Forall₂ Group groups pieces)
      (eight : groups.length = 8) : Denotes (joined groups) pieces
  | short (left right : List (List UInt8)) (first last : List Nat)
      (one : List.Forall₂ Group left first) (other : List.Forall₂ Group right last)
      (few : left.length + right.length < 8) :
      Denotes (joined left ++ colon :: colon :: joined right)
        (first ++ List.replicate (8 - (left.length + right.length)) 0 ++ last)

/-- The pieces from a position on are zero. -/
def ZeroRun (pieces : List Nat) (start length : Nat) : Prop :=
  ∀ i < length, pieces[start + i]? = some 0

/-- The first of the longest runs of two or more zeros. -/
structure FirstLongest (pieces : List Nat) (start length : Nat) : Prop where
  two : 2 ≤ length
  run : ZeroRun pieces start length
  longest : ∀ other count, ZeroRun pieces other count →
    count ≤ length ∧ (count = length → start ≤ other)

inductive IsCanonical : List UInt8 → List Nat → Prop
  | whole (pieces : List Nat) (none : ∀ start length, ¬ FirstLongest pieces start length) :
      IsCanonical (joined (pieces.map hexText)) pieces
  | short (pieces : List Nat) (start length : Nat) (run : FirstLongest pieces start length) :
      IsCanonical (joined ((pieces.take start).map hexText) ++ colon :: colon ::
        joined ((pieces.drop (start + length)).map hexText)) pieces

/-- Pieces of an address. -/
structure Address (pieces : List Nat) : Prop where
  eight : pieces.length = 8
  small : ∀ piece ∈ pieces, piece < 0x10000

theorem FirstLongest.unique {pieces : List Nat} {start other length count : Nat}
    (one : FirstLongest pieces start length) (two : FirstLongest pieces other count) :
    start = other ∧ length = count := by
  have first := one.longest other count two.run
  have second := two.longest start length one.run
  omega

/-- A run of zeros ends where the pieces do. -/
theorem ZeroRun.within {pieces : List Nat} {start length : Nat} (run : ZeroRun pieces start length)
    (some : 0 < length) : start + length ≤ pieces.length := by
  have last := run (length - 1) (by omega)
  have bound := (List.getElem?_eq_some_iff.1 last).1
  omega

theorem ZeroRun.cut {pieces : List Nat} {start length : Nat} (run : ZeroRun pieces start length) :
    pieces = pieces.take start ++ List.replicate length 0 ++ pieces.drop (start + length) := by
  have middle : (pieces.drop start).take length = List.replicate length 0 := by
    apply List.ext_getElem?
    intro i
    rw [List.getElem?_take, List.getElem?_replicate]
    split
    · next inside => rw [List.getElem?_drop, run i inside]
    · rfl
  rw [← middle, ← List.drop_drop, List.append_assoc, List.take_append_drop, List.take_append_drop]

theorem canonical_unique {text other : List UInt8} {pieces : List Nat}
    (one : IsCanonical text pieces) (two : IsCanonical other pieces) : text = other := by
  cases one with
  | whole _ none =>
      cases two with
      | whole => rfl
      | short _ start length run => exact absurd run (none start length)
  | short _ start length run =>
      cases two with
      | whole _ none => exact absurd run (none start length)
      | short _ start' length' run' =>
          obtain ⟨rfl, rfl⟩ := run.unique run'
          rfl

theorem groups_hexText {pieces : List Nat} (small : ∀ piece ∈ pieces, piece < 0x10000) :
    List.Forall₂ Group (pieces.map hexText) pieces := by
  rw [List.forall₂_map_left_iff, List.forall₂_same]
  intro piece inside
  exact hexText_group (small piece inside)

theorem canonical_denotes {text : List UInt8} {pieces : List Nat} (address : Address pieces)
    (canonical : IsCanonical text pieces) : Denotes text pieces := by
  cases canonical with
  | whole => exact .whole _ _ (groups_hexText address.small) (by rw [List.length_map, address.eight])
  | short _ start length run =>
      have two := run.two
      have within := run.run.within (by omega)
      have eight := address.eight
      have count : (pieces.take start).length + (pieces.drop (start + length)).length + length = 8 := by
        rw [List.length_take, List.length_drop]
        omega
      have denotes := Denotes.short ((pieces.take start).map hexText)
        ((pieces.drop (start + length)).map hexText) _ _
        (groups_hexText fun piece inside => address.small piece (List.mem_of_mem_take inside))
        (groups_hexText fun piece inside => address.small piece (List.mem_of_mem_drop inside))
        (by rw [List.length_map, List.length_map]; omega)
      rw [List.length_map, List.length_map, show 8 - ((pieces.take start).length
        + (pieces.drop (start + length)).length) = length by omega, ← run.run.cut] at denotes
      exact denotes

/-! ## One address -/

theorem group_ne_nil {groups : List (List UInt8)} {pieces : List Nat}
    (all : List.Forall₂ Group groups pieces) : ∀ group ∈ groups, group ≠ [] ∧ colon ∉ group := by
  induction all with
  | nil => simp
  | cons one _ ih => exact List.forall_mem_cons.2 ⟨⟨one.some, one.colon_free⟩, ih⟩

/-- The parts between the colons; nothing has one empty part. -/
def parts (groups : List (List UInt8)) : List (List UInt8) := if groups = [] then [[]] else groups

theorem splitOn_joined {groups : List (List UInt8)} {pieces : List Nat}
    (all : List.Forall₂ Group groups pieces) : (joined groups).splitOn colon = parts groups := by
  rw [parts]
  split
  · next none =>
      subst none
      rfl
  · next some =>
      exact List.splitOn_intercalate colon (fun group inside => (group_ne_nil all group inside).2) some

theorem splitOn_short {left right : List (List UInt8)} {first last : List Nat}
    (one : List.Forall₂ Group left first) (other : List.Forall₂ Group right last) :
    (joined left ++ colon :: colon :: joined right).splitOn colon
      = parts left ++ [] :: parts right := by
  rw [List.splitOn_append_cons_self, splitOn_joined one, ← List.nil_append (colon :: joined right),
    List.splitOn_append_cons_self, splitOn_joined other]
  rfl

theorem parts_inj {left right : List (List UInt8)} {first last : List Nat}
    (one : List.Forall₂ Group left first) (other : List.Forall₂ Group right last)
    (same : parts left = parts right) : left = right := by
  have given := group_ne_nil one
  have others := group_ne_nil other
  unfold parts at same
  split at same
  · next none =>
      split at same
      · next missing => rw [none, missing]
      · subst same
        exact absurd rfl (others [] (List.mem_singleton.2 rfl)).1
  · split at same
    · subst same
      exact absurd rfl (given [] (List.mem_singleton.2 rfl)).1
    · exact same

/-- The groups before the first empty part. -/
theorem parts_cut {left right others rest : List (List UInt8)} {first last : List Nat}
    (one : List.Forall₂ Group left first) (other : List.Forall₂ Group right last)
    (same : parts left ++ [] :: others = parts right ++ [] :: rest) :
    left = right ∧ others = rest := by
  have cut {groups : List (List UInt8)} {pieces : List Nat} (all : List.Forall₂ Group groups pieces)
      (tail : List (List UInt8)) :
      (parts groups ++ [] :: tail).takeWhile (fun group => !group.isEmpty) = groups := by
    have given := group_ne_nil all
    rw [parts]
    split
    · next none =>
        subst none
        rfl
    · rw [List.takeWhile_append_of_pos (fun group inside => by simpa using (given group inside).1)]
      simp
  have groups : left = right := by rw [← cut one others, same, cut other rest]
  subst groups
  exact ⟨rfl, (List.cons.inj (List.append_cancel_left same)).2⟩

theorem denotes_unique {text : List UInt8} {pieces others : List Nat} (one : Denotes text pieces)
    (two : Denotes text others) : pieces = others := by
  have whole_short {groups left right : List (List UInt8)} {pieces first last : List Nat}
      (all : List.Forall₂ Group groups pieces) (eight : groups.length = 8)
      (one : List.Forall₂ Group left first) (other : List.Forall₂ Group right last) :
      joined groups ≠ joined left ++ colon :: colon :: joined right := by
    intro same
    have split := splitOn_joined all
    have some : groups ≠ [] := by
      rintro rfl
      cases eight
    have empty : [] ∈ groups := by
      rw [same, splitOn_short one other] at split
      rw [← if_neg (t := [[]]) (e := groups) some, ← parts, ← split]
      simp
    exact (group_ne_nil all [] empty).1 rfl
  cases one with
  | whole groups _ all eight =>
      generalize text_is : joined groups = text at two
      cases two with
      | whole groups' _ all' eight' =>
          have split := splitOn_joined all
          rw [text_is, splitOn_joined all'] at split
          have same := parts_inj all' all split
          subst same
          exact List.right_unique_forall₂' Group.unique all all'
      | short left right first last one other few =>
          exact absurd text_is (whole_short all eight one other)
  | short left right first last one other few =>
      generalize text_is : joined left ++ colon :: colon :: joined right = text at two
      cases two with
      | whole groups' _ all' eight' => exact absurd text_is.symm (whole_short all' eight' one other)
      | short left' right' first' last' one' other' few' =>
          have split := splitOn_short one other
          rw [text_is, splitOn_short one' other'] at split
          obtain ⟨rfl, rest⟩ := parts_cut one' one split
          have same := parts_inj other' other rest
          subst same
          rw [List.right_unique_forall₂' Group.unique one one',
            List.right_unique_forall₂' Group.unique other other']

end Reb.Theory.Ipv6
