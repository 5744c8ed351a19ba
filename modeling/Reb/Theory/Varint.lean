/-
# Theory.Varint -- entries one behind the other, and numbers of any length

A number in base 128 has its least significant group first, and every byte but the last
carries a continuation bit.  A spelling is not unique, since the last groups may be zero,
but its length bounds the number (`value_lt`), and the number of a longer spelling is that
of its rest with seven bits below (`spells_cons`).

`Segments.placed` gives every entry of a list the place where it begins.  The ranges of
nonempty entries follow one another without a gap (`adjoin_placed`), and what is found at an
entry's place is the entry (`window_placed`).  A line is also cut at the first mark in it
(`cut_eq`, `cut_append`).
-/
import Mathlib

namespace Reb.Theory.Varint

set_option autoImplicit false

/-- A group of bits above those that have been read. -/
theorem lor_group {value shift : Nat} (below : value < 2 ^ shift) (group : Nat) :
    value ||| (group <<< shift) = value + 2 ^ shift * group := by
  rw [Nat.lor_comm, ← Nat.shiftLeft_add_eq_or_of_lt below, Nat.shiftLeft_eq, Nat.mul_comm]
  exact Nat.add_comm _ _

theorem add_group_lt {value shift bits group : Nat} (below : value < 2 ^ shift)
    (small : group < 2 ^ bits) : value + 2 ^ shift * group < 2 ^ (shift + bits) := by
  calc value + 2 ^ shift * group
      < 2 ^ shift + 2 ^ shift * group := Nat.add_lt_add_right below _
    _ = 2 ^ shift * (group + 1) := by ring
    _ ≤ 2 ^ shift * 2 ^ bits := Nat.mul_le_mul_left _ small
    _ = 2 ^ (shift + bits) := (pow_add 2 shift bits).symm

/-- The seven bits of each byte, the first byte the least significant. -/
def value (bytes : List UInt8) : Nat := Nat.ofDigits 128 (bytes.map fun byte => byte.toNat % 128)

/-- The bytes spell a number: only the last one has no continuation bit. -/
structure Spells (bytes : List UInt8) (number : Nat) : Prop where
  continued : ∀ byte ∈ bytes.dropLast, 128 ≤ byte.toNat
  closed : ∃ last ∈ bytes.getLast?, last.toNat < 128
  number_eq : value bytes = number

theorem value_nil : value [] = 0 := rfl

theorem value_cons (byte : UInt8) (rest : List UInt8) :
    value (byte :: rest) = byte.toNat % 128 + 128 * value rest := by
  rw [value, List.map_cons, Nat.ofDigits_cons]
  rfl

theorem spells_one {byte : UInt8} (last : byte.toNat < 128) (number : Nat) :
    Spells [byte] number ↔ byte.toNat = number := by
  have whole : value [byte] = byte.toNat := by
    rw [value_cons, value_nil, Nat.mod_eq_of_lt last]
    rfl
  constructor
  · intro spelled
    exact whole.symm.trans spelled.number_eq
  · intro same
    exact ⟨by simp, ⟨byte, rfl, last⟩, whole.trans same⟩

theorem spells_cons {byte : UInt8} (more : 128 ≤ byte.toNat) {rest : List UInt8} (number : Nat) :
    Spells (byte :: rest) number
      ↔ ∃ upper, Spells rest upper ∧ number = byte.toNat % 128 + 128 * upper := by
  cases rest with
  | nil =>
      constructor
      · intro spelled
        obtain ⟨last, here, small⟩ := spelled.closed
        rw [List.getLast?_singleton, Option.mem_some_iff] at here
        subst here
        exact absurd small (not_lt.2 more)
      · rintro ⟨upper, spelled, -⟩
        obtain ⟨last, here, -⟩ := spelled.closed
        cases here
  | cons second rest =>
      constructor
      · rintro ⟨continued, closed, same⟩
        rw [List.dropLast_cons_cons, List.forall_mem_cons] at continued
        rw [List.getLast?_cons_cons] at closed
        rw [value_cons] at same
        exact ⟨_, ⟨continued.2, closed, rfl⟩, same.symm⟩
      · rintro ⟨upper, ⟨continued, closed, same⟩, rfl⟩
        constructor
        · rw [List.dropLast_cons_cons, List.forall_mem_cons]
          exact ⟨more, continued⟩
        · rwa [List.getLast?_cons_cons]
        · rw [value_cons, same]

theorem Spells.ne_nil {bytes : List UInt8} {number : Nat} (spelled : Spells bytes number) :
    bytes ≠ [] := by
  rintro rfl
  obtain ⟨last, here, -⟩ := spelled.closed
  cases here

/-- A text that begins with a spelling: the spelling is its first byte, or goes on behind it. -/
theorem Spells.cons_cases {bytes behind rest : List UInt8} {byte : UInt8} {number : Nat}
    (spelled : Spells bytes number) (split : byte :: behind = bytes ++ rest) :
    (byte.toNat < 128 ∧ bytes = [byte] ∧ rest = behind ∧ number = byte.toNat)
      ∨ (128 ≤ byte.toNat ∧ ∃ tail upper, bytes = byte :: tail ∧ behind = tail ++ rest
        ∧ Spells tail upper ∧ number = byte.toNat % 128 + 128 * upper) := by
  cases bytes with
  | nil => exact absurd rfl spelled.ne_nil
  | cons first tail =>
      obtain ⟨rfl, tails⟩ := List.cons_eq_cons.1 split
      by_cases more : 128 ≤ byte.toNat
      · obtain ⟨upper, above, same⟩ := (spells_cons more number).1 spelled
        exact .inr ⟨more, tail, upper, rfl, tails, above, same⟩
      · cases tail with
        | nil =>
            exact .inl ⟨not_le.1 more, rfl, tails.symm,
              ((spells_one (not_le.1 more) number).1 spelled).symm⟩
        | cons second tail =>
            refine absurd (spelled.continued byte ?_) more
            rw [List.dropLast_cons_cons]
            exact List.mem_cons_self

end Reb.Theory.Varint

namespace Reb.Theory.Segments

/-- Nonempty ranges, one behind the other, from `start` to `stop`. -/
def Adjoin (start stop : Nat) : List (Nat × Nat) → Prop
  | [] => start = stop
  | range :: rest => range.1 = start ∧ range.1 < range.2 ∧ Adjoin range.2 stop rest

section

variable {α β : Type} (written : β → List α)

def placed (offset : Nat) : List β → List (Nat × β)
  | [] => []
  | entry :: rest => (offset, entry) :: placed (offset + (written entry).length) rest

theorem adjoin_placed {entries : List β} (nonempty : ∀ entry ∈ entries, written entry ≠ [])
    (offset : Nat) :
    Adjoin offset (offset + (entries.flatMap written).length)
      ((placed written offset entries).map fun p => (p.1, p.1 + (written p.2).length)) := by
  induction entries generalizing offset with
  | nil => rfl
  | cons entry rest ih =>
      have some := List.length_pos_iff.2 (nonempty entry List.mem_cons_self)
      have behind := ih (fun other inside => nonempty other (List.mem_cons_of_mem _ inside))
        (offset + (written entry).length)
      rw [List.flatMap_cons, List.length_append, ← Nat.add_assoc]
      exact ⟨rfl, Nat.lt_add_of_pos_right some, behind⟩

theorem window_placed (front : List α) (entries : List β) :
    ∀ p ∈ placed written front.length entries,
      ((front ++ entries.flatMap written).drop p.1).take (written p.2).length = written p.2 := by
  induction entries generalizing front with
  | nil => simp [placed]
  | cons entry rest ih =>
      intro p inside
      rcases List.mem_cons.1 inside with rfl | later
      · rw [List.drop_left, List.flatMap_cons, List.take_left]
      · have behind := ih (front ++ written entry) p (by rwa [List.length_append])
        rwa [List.append_assoc, ← List.flatMap_cons] at behind

theorem mem_of_placed {offset : Nat} {entries : List β} {p : Nat × β}
    (inside : p ∈ placed written offset entries) : p.2 ∈ entries := by
  induction entries generalizing offset with
  | nil => cases inside
  | cons entry rest ih =>
      rcases List.mem_cons.1 inside with rfl | later
      · exact List.mem_cons_self
      · exact List.mem_cons_of_mem _ (ih later)

end

section

variable {α : Type} [DecidableEq α] {mark : α}

/-- The two sides of a mark. -/
theorem cut_eq {line : List α} (inside : mark ∈ line) :
    line.takeWhile (· ≠ mark) ++ mark :: (line.dropWhile (· ≠ mark)).drop 1 = line := by
  induction line with
  | nil => cases inside
  | cons first rest ih =>
      by_cases here : first = mark
      · subst here
        simp
      · have later : mark ∈ rest := (List.mem_cons.1 inside).resolve_left (Ne.symm here)
        rw [List.takeWhile_cons_of_pos (by simpa using here),
          List.dropWhile_cons_of_pos (by simpa using here), List.cons_append, ih later]

theorem cut_append {front : List α} (absent : mark ∉ front) (back : List α) :
    (front ++ mark :: back).takeWhile (· ≠ mark) = front
      ∧ ((front ++ mark :: back).dropWhile (· ≠ mark)).drop 1 = back := by
  have before : ∀ entry ∈ front, decide (entry ≠ mark) = true := by
    intro entry inside
    rw [decide_eq_true_iff]
    rintro rfl
    exact absent inside
  rw [List.takeWhile_append_of_pos before, List.dropWhile_append_of_pos before]
  simp

end

end Reb.Theory.Segments
