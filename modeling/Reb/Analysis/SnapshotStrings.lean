/-
# Analysis.SnapshotStrings -- what a limit leaves of a string

How far a string goes does not depend on what is kept of it: its characters are read
first (`characters`), and then appended as far as there is room (`readRest_eq`).  So
what is kept under a limit is a part of what is kept without one (`readString_kept`).
-/
import Reb.Analysis.SnapshotDocument

namespace Reb.Analysis.Snapshot

set_option autoImplicit false

/-- The characters up to the closing quote. -/
def characters : Nat → List UInt8 → Option (List Character × List UInt8)
  | 0, _ => none
  | _ + 1, [] => none
  | turns + 1, byte :: rest =>
      if byte = quote then some ([], rest)
      else
        (readCharacter byte rest).bind fun (character, rest) =>
          (characters turns rest).map fun (more, left) => (character :: more, left)

theorem readRest_eq (maximum : Nat) : ∀ (turns : Nat) (input : List UInt8) (r : Reading),
    readRest maximum turns input r
      = (characters turns input).map fun (cs, left) => (cs.foldl (Reading.append maximum) r, left)
  | 0, _, _ => rfl
  | _ + 1, [], _ => rfl
  | turns + 1, byte :: rest, r => by
      rw [readRest, characters]
      by_cases closing : byte = quote
      · simp [closing]
      · cases readCharacter byte rest with
        | none => simp [closing]
        | some read =>
            simp only [closing, if_false, Option.bind_some, Option.map_map]
            rw [readRest_eq maximum turns]
            rfl

theorem utf8_length_le (codePoint : Nat) : (utf8 codePoint).length ≤ 4 := by
  unfold utf8
  split_ifs <;> simp

theorem Character.spelled_length_le (character : Character) : character.spelled.length ≤ 4 := by
  cases character with
  | byte value => simp [spelled]
  | codePoint value => exact utf8_length_le value
  | replacement => exact utf8_length_le _

theorem readLow_shorter {high : Nat} {rest left : List UInt8} {character : Character}
    (read : readLow high rest = some (character, left)) : left.length ≤ rest.length := by
  unfold readLow at read
  split at read
  next slash letter after =>
    split_ifs at read with escaped
    · split at read
      next a b c d rest =>
        obtain ⟨low, -, same⟩ := Option.map_eq_some_iff.1 read
        split_ifs at same <;> cases same <;> simp
        omega
      next => cases read
    · cases read
      exact le_rfl
  next =>
    cases read
    exact le_rfl

/-- A character has no more bytes than spell it. -/
theorem readCharacter_shorter {byte : UInt8} {rest left : List UInt8} {character : Character}
    (read : readCharacter byte rest = some (character, left)) :
    character.spelled.length + left.length ≤ rest.length + 1 := by
  have short := character.spelled_length_le
  unfold readCharacter at read
  split_ifs at read with control plain
  · cases read
    simp [Character.spelled]; omega
  · split at read
    next => cases read
    next escape rest =>
      split_ifs at read with simple
      · obtain ⟨value, -, same⟩ := Option.map_eq_some_iff.1 read
        cases same
        simp [Character.spelled]; omega
      · split at read
        next a b c d rest =>
          obtain ⟨unit, -, same⟩ := Option.bind_eq_some_iff.1 read
          have within : left.length ≤ rest.length := by
            split_ifs at same
            · exact readLow_shorter same
            · cases same; exact le_rfl
            · cases same; exact le_rfl
          simp only [List.length_cons]
          omega
        next => cases read

theorem characters_shorter : ∀ {turns : Nat} {input left : List UInt8} {cs : List Character},
    characters turns input = some (cs, left) →
      (cs.flatMap Character.spelled).length + left.length < input.length
  | 0, _, _, _, read => by cases read
  | _ + 1, [], _, _, read => by cases read
  | turns + 1, byte :: rest, left, cs, read => by
      rw [characters] at read
      split_ifs at read with closing
      · cases read
        simp
      · obtain ⟨⟨character, after⟩, first, more⟩ := Option.bind_eq_some_iff.1 read
        obtain ⟨⟨others, last⟩, rest', same⟩ := Option.map_eq_some_iff.1 more
        cases same
        have here := readCharacter_shorter first
        have later := characters_shorter rest'
        simp only [List.flatMap_cons, List.length_append, List.length_cons]
        omega

/-! ## What is kept -/

namespace Reading

/-- A reading under a limit, and one with room for everything. -/
structure KeptOf (kept whole : Reading) : Prop where
  part : kept.output.Sublist whole.output
  same : kept.truncated = false → whole.truncated = false ∧ kept.output = whole.output
  lost : whole.truncated = true → kept.truncated = true

theorem KeptOf.refl (r : Reading) : KeptOf r r where
  part := List.Sublist.refl _
  same whole := ⟨whole, rfl⟩
  lost := id

/-- A character for which there is room. -/
theorem append_room {maximum : Nat} {r : Reading} {character : Character}
    (room : r.output.length + character.spelled.length ≤ maximum) :
    r.append maximum character
      = { output := r.output ++ character.spelled
          truncated := r.truncated || character == .replacement } := by
  cases character with
  | byte value =>
      have fits : r.output.length < maximum := by simp [Character.spelled] at room; omega
      simp [append, appendByte, fits, Character.spelled]
  | codePoint value =>
      have fits : (utf8 value).length ≤ maximum - min maximum r.output.length := by
        simp [Character.spelled] at room; omega
      simp [append, appendCodePoint, fits, Character.spelled]
  | replacement =>
      have fits : (utf8 0xfffd).length ≤ maximum - min maximum r.output.length := by
        simp [Character.spelled] at room; omega
      simp [append, appendCodePoint, fits, Character.spelled]

/-- A character is appended as a whole, or left out. -/
theorem append_cases (maximum : Nat) (r : Reading) (character : Character) :
    r.append maximum character
        = { output := r.output ++ character.spelled
            truncated := r.truncated || character == .replacement }
      ∨ r.append maximum character = { r with truncated := true } := by
  cases character with
  | byte value =>
      by_cases fits : r.output.length < maximum
      · exact .inl (by simp [append, appendByte, fits, Character.spelled])
      · exact .inr (by simp [append, appendByte, fits])
  | codePoint value =>
      by_cases fits : (utf8 value).length ≤ maximum - min maximum r.output.length
      · exact .inl (by simp [append, appendCodePoint, fits, Character.spelled])
      · exact .inr (by simp [append, appendCodePoint, fits])
  | replacement =>
      by_cases fits : (utf8 0xfffd).length ≤ maximum - min maximum r.output.length
      · exact .inl (by simp [append, appendCodePoint, fits, Character.spelled])
      · exact .inr (by simp [append, appendCodePoint, fits])

theorem KeptOf.append {kept whole : Reading} (part : KeptOf kept whole) (maximum : Nat) {room : Nat}
    {character : Character} (fits : whole.output.length + character.spelled.length ≤ room) :
    KeptOf (kept.append maximum character) (whole.append room character) := by
  rw [append_room fits]
  obtain appended | dropped := append_cases maximum kept character
  · rw [appended]
    exact {
      part := List.Sublist.append part.part (List.Sublist.refl _)
      same := fun clean => by
        simp only [Bool.or_eq_false_iff] at clean
        obtain ⟨whole, same⟩ := part.same clean.1
        simp [whole, same, clean.2]
      lost := fun dirty => by
        simp only [Bool.or_eq_true] at dirty ⊢
        exact dirty.imp_left part.lost }
  · rw [dropped]
    exact {
      part := part.part.trans (List.sublist_append_left _ _)
      same := fun clean => by cases clean
      lost := fun _ => rfl }

theorem KeptOf.foldl {maximum room : Nat} : ∀ {cs : List Character} {kept whole : Reading},
    KeptOf kept whole → whole.output.length + (cs.flatMap Character.spelled).length ≤ room →
      KeptOf (cs.foldl (Reading.append maximum) kept) (cs.foldl (Reading.append room) whole)
  | [], _, _, part, _ => part
  | character :: cs, kept, whole, part, fits => by
      simp only [List.flatMap_cons, List.length_append] at fits
      have fitsOne : whole.output.length + character.spelled.length ≤ room := by omega
      rw [List.foldl_cons, List.foldl_cons]
      apply KeptOf.foldl (part.append maximum fitsOne)
      rw [append_room fitsOne]
      simp only [List.length_append]
      omega

/-- With room for everything, every character is there. -/
theorem foldl_room {room : Nat} : ∀ {cs : List Character} {whole : Reading},
    whole.output.length + (cs.flatMap Character.spelled).length ≤ room →
      (cs.foldl (Reading.append room) whole).output = whole.output ++ cs.flatMap Character.spelled
  | [], _, _ => by simp
  | character :: cs, whole, fits => by
      simp only [List.flatMap_cons, List.length_append] at fits
      rw [List.foldl_cons, append_room (by omega), foldl_room]
      · simp
      · simp only [List.length_append]
        omega

end Reading

/-- Where a string ends does not depend on the limit. -/
theorem readString_kept (maximum : Nat) {room : Nat} {input : List UInt8} (enough : input.length ≤ room) :
    Option.Rel (fun kept whole => Reading.KeptOf kept.1 whole.1 ∧ kept.2 = whole.2
        ∧ whole.1.output.length + whole.2.length < input.length)
      (readString maximum input) (readString room input) := by
  have shorter : (skipWhitespace input).length ≤ input.length := List.length_dropWhile_le _ _
  unfold readString
  cases start : skipWhitespace input with
  | nil => exact .none
  | cons byte rest =>
      rw [start, List.length_cons] at shorter
      by_cases opening : byte = quote
      · simp only [opening, if_true]
        rw [readRest_eq, readRest_eq]
        cases read : characters rest.length rest with
        | none => exact .none
        | some scanned =>
            obtain ⟨cs, left⟩ := scanned
            have used := characters_shorter read
            have fits : (cs.flatMap Character.spelled).length ≤ room := by omega
            refine .some ⟨Reading.KeptOf.foldl (.refl {}) (by simpa using fits), rfl, ?_⟩
            rw [Reading.foldl_room (by simpa using fits)]
            simp only [List.nil_append]
            omega
      · simp only [opening, if_false]
        exact .none

end Reb.Analysis.Snapshot
