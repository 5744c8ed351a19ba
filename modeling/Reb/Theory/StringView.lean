/-
# Theory.StringView -- searching a sequence by index

The searches of a string view, as positions, and the cuts that they stand for: a sequence
up to its first item of a kind, and a sequence behind its last occurrence of an item.
-/
import Mathlib

namespace Reb.Theory.StringView

set_option autoImplicit false

variable {α : Type}

theorem findIdx_at {p : α → Bool} {mid post : List α} {value : α} (free : ∀ b ∈ mid, p b = false)
    (found : p value = true) : (mid ++ value :: post).findIdx? p = some mid.length := by
  rw [List.findIdx?_append, List.findIdx?_eq_none_iff.2 free, Option.none_or, List.findIdx?_cons,
    if_pos found, Option.map_some, Nat.zero_add]

variable [DecidableEq α]

def findFirstOf (text wanted : List α) (start : Nat) : Option Nat :=
  ((text.drop start).findIdx? fun value => wanted.contains value).map (start + ·)

def find (text : List α) (value : α) (start : Nat) : Option Nat := findFirstOf text [value] start

def rfind (text : List α) (value : α) : Option Nat :=
  (text.reverse.findIdx? (· == value)).map (text.length - 1 - ·)

def substr (text : List α) (start count : Nat) : List α := (text.drop start).take count

variable {wanted pre mid post : List α} {value : α}

theorem findFirstOf_free (free : ∀ b ∈ mid, b ∉ wanted) :
    findFirstOf (pre ++ mid) wanted pre.length = none := by
  rw [findFirstOf, List.drop_left, Option.map_eq_none_iff, List.findIdx?_eq_none_iff]
  intro b inside
  simpa using free b inside

theorem findFirstOf_at (free : ∀ b ∈ mid, b ∉ wanted) (found : value ∈ wanted) :
    findFirstOf (pre ++ mid ++ value :: post) wanted pre.length
      = some (pre.length + mid.length) := by
  rw [findFirstOf, List.append_assoc, List.drop_left, findIdx_at, Option.map_some]
  · intro b inside
    simpa using free b inside
  · simpa using found

theorem findFirstOf_none (free : ∀ b ∈ mid, b ∉ wanted) : findFirstOf mid wanted 0 = none :=
  @findFirstOf_free α _ wanted [] mid free

theorem findFirstOf_some (free : ∀ b ∈ mid, b ∉ wanted) (found : value ∈ wanted) :
    findFirstOf (mid ++ value :: post) wanted 0 = some mid.length := by
  have place := @findFirstOf_at α _ wanted [] mid post value free found
  rwa [List.nil_append, List.length_nil, Nat.zero_add] at place

theorem rfind_free (free : value ∉ post) : rfind post value = none := by
  rw [rfind, Option.map_eq_none_iff, List.findIdx?_eq_none_iff]
  intro b inside
  have other : b ≠ value := by
    rintro rfl
    exact free (List.mem_reverse.1 inside)
  simpa using other

theorem rfind_at (free : value ∉ post) : rfind (pre ++ value :: post) value = some pre.length := by
  have kept (b : α) (inside : b ∈ post.reverse) : (b == value) = false := by
    have other : b ≠ value := by
      rintro rfl
      exact free (List.mem_reverse.1 inside)
    simpa using other
  rw [rfind, List.reverse_append, List.reverse_cons, List.append_assoc, List.singleton_append,
    findIdx_at kept (beq_self_eq_true value), Option.map_some, List.length_append,
    List.length_cons, List.length_reverse]
  congr 1
  omega

/-- A text up to the first item of a kind, and the rest. -/
theorem exists_cut (wanted text : List α) :
    ∃ before after, text = before ++ after ∧ (∀ b ∈ before, b ∉ wanted) ∧
      ∀ b ∈ after.head?, b ∈ wanted := by
  induction text with
  | nil => exact ⟨[], [], rfl, by simp, by simp⟩
  | cons b text ih =>
      by_cases found : b ∈ wanted
      · exact ⟨[], b :: text, rfl, by simp, by simpa using found⟩
      · obtain ⟨before, after, rfl, free, start⟩ := ih
        exact ⟨b :: before, after, rfl, by simpa using ⟨found, free⟩, start⟩

/-- A text behind the last occurrence of an item, and what stands before. -/
theorem exists_last_cut (value : α) (text : List α) :
    ∃ before after, text = before ++ after ∧ value ∉ after ∧
      (before = [] ∨ ∃ start, before = start ++ [value]) := by
  induction text with
  | nil => exact ⟨[], [], rfl, by simp, .inl rfl⟩
  | cons b text ih =>
      obtain ⟨before, after, rfl, free, rfl | ⟨start, rfl⟩⟩ := ih
      · by_cases same : b = value
        · subst same
          exact ⟨[b], after, rfl, free, .inr ⟨[], rfl⟩⟩
        · exact ⟨[], b :: after, rfl, by simpa using ⟨Ne.symm same, free⟩, .inl rfl⟩
      · exact ⟨b :: (start ++ [value]), after, rfl, free, .inr ⟨b :: start, rfl⟩⟩

/-- A text without an item, or up to its first occurrence. -/
theorem find_cases (text : List α) (value : α) :
    find text value 0 = none ∧ value ∉ text ∨
      ∃ before after, text = before ++ value :: after ∧ value ∉ before ∧
        find text value 0 = some before.length := by
  obtain ⟨before, after, rfl, free, starts⟩ := exists_cut [value] text
  have other : value ∉ before := fun inside => free value inside List.mem_cons_self
  cases after with
  | nil =>
      rw [List.append_nil]
      exact .inl ⟨findFirstOf_none free, other⟩
  | cons first after =>
      have same : first = value := by simpa using starts first rfl
      subst same
      exact .inr ⟨before, after, rfl, other, findFirstOf_some free List.mem_cons_self⟩

end Reb.Theory.StringView
