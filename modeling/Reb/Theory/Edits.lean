/-
# Theory.Edits -- replacing ranges of a text

An edit puts other items where a range of a text was.  `replay` makes edits one after another
from the last to the first, so that the ranges stay those of the original; `copy` goes through the
text once and copies what lies between.  Both agree on edits in order of which no two overlap
(`copy_eq_replay`), and `Inside` is what the edits of parts that follow one another keep.
-/
import Mathlib

namespace Reb.Theory.Edits

set_option autoImplicit false

universe u

variable {α : Type u}

structure Edit (α : Type u) where
  start : Nat
  stop : Nat
  replacement : List α

def Edit.Apart (a b : Edit α) : Prop := a.stop ≤ b.start ∨ b.stop ≤ a.start

theorem Edit.Apart.symm {a b : Edit α} (apart : a.Apart b) : b.Apart a := Or.symm apart

/-! ## Edits inside a range -/

/-- None is empty, no two overlap, and they begin and end where they may. -/
structure Inside (allowed : Nat → Prop) (low high : Nat) (edits : List (Edit α)) : Prop where
  range : ∀ edit ∈ edits, low ≤ edit.start ∧ edit.start < edit.stop ∧ edit.stop ≤ high
  ends : ∀ edit ∈ edits, allowed edit.start ∧ allowed edit.stop
  apart : edits.Pairwise Edit.Apart

section

variable {allowed : Nat → Prop} {low high : Nat}

theorem Inside.nil : Inside allowed low high ([] : List (Edit α)) :=
  ⟨by simp, by simp, .nil⟩

theorem Inside.single {edit : Edit α} (below : low ≤ edit.start) (some : edit.start < edit.stop)
    (above : edit.stop ≤ high) (first : allowed edit.start) (last : allowed edit.stop) :
    Inside allowed low high [edit] :=
  ⟨by simp [below, some, above], by simp [first, last], List.pairwise_singleton _ _⟩

theorem Inside.widen {low' high' : Nat} {edits : List (Edit α)}
    (inside : Inside allowed low high edits) (below : low' ≤ low) (above : high ≤ high') :
    Inside allowed low' high' edits where
  range edit member := by
    obtain ⟨first, some, last⟩ := inside.range edit member
    exact ⟨below.trans first, some, last.trans above⟩
  ends := inside.ends
  apart := inside.apart

/-- The edits of two ranges that follow one another. -/
theorem Inside.append {middle middle' : Nat} {edits others : List (Edit α)}
    (first : Inside allowed low middle edits) (second : Inside allowed middle' high others)
    (between : middle ≤ middle') (below : low ≤ middle') (above : middle ≤ high) :
    Inside allowed low high (edits ++ others) where
  range edit member := by
    rcases List.mem_append.1 member with early | late
    · obtain ⟨start, some, stop⟩ := first.range edit early
      exact ⟨start, some, stop.trans above⟩
    · obtain ⟨start, some, stop⟩ := second.range edit late
      exact ⟨below.trans start, some, stop⟩
  ends edit member := by
    rcases List.mem_append.1 member with early | late
    · exact first.ends edit early
    · exact second.ends edit late
  apart := by
    rw [List.pairwise_append]
    refine ⟨first.apart, second.apart, fun a early b late => .inl ?_⟩
    have stop := (first.range a early).2.2
    have start := (second.range b late).1
    omega

theorem Inside.perm {edits others : List (Edit α)} (inside : Inside allowed low high edits)
    (same : others.Perm edits) : Inside allowed low high others where
  range edit member := inside.range edit (same.mem_iff.1 member)
  ends edit member := inside.ends edit (same.mem_iff.1 member)
  apart := (same.pairwise_iff fun apart => Edit.Apart.symm apart).2 inside.apart

/-- In the order of their starts, each ends before the next begins. -/
theorem Inside.chain {edits : List (Edit α)} (inside : Inside allowed low high edits)
    (ordered : edits.Pairwise fun a b => a.start ≤ b.start) :
    edits.Pairwise fun a b => a.stop ≤ b.start := by
  refine (ordered.and inside.apart).imp_of_mem ?_
  intro a b first second both
  have some := (inside.range b second).2.1
  rcases both.2 with apart | apart
  · exact apart
  · have := both.1
    omega

end

/-! ## Making the edits -/

def Edit.splice (edit : Edit α) (text : List α) : List α :=
  text.take edit.start ++ edit.replacement ++ text.drop edit.stop

def replay (text : List α) (edits : List (Edit α)) : List α := edits.foldr Edit.splice text

theorem replay_cons (text : List α) (edit : Edit α) (edits : List (Edit α)) :
    replay text (edit :: edits) = edit.splice (replay text edits) := rfl

/-- The text between two places, where it can be cut. -/
def slice (allowed : Nat → Bool) (text : List α) (start stop : Nat) : Option (List α) :=
  if start ≤ stop ∧ stop ≤ text.length ∧ allowed start = true ∧ allowed stop = true then
    some ((text.take stop).drop start)
  else none

/-- Once through the text: what lies before an edit, its replacement, and so on. -/
def copy (allowed : Nat → Bool) (text : List α) :
    List (Edit α) → Nat → List α → Option (List α)
  | [], offset, output => (slice allowed text offset text.length).map (output ++ ·)
  | edit :: edits, offset, output =>
      (slice allowed text offset edit.start).bind fun kept =>
        copy allowed text edits edit.stop (output ++ kept ++ edit.replacement)

theorem take_replay {text : List α} {edits : List (Edit α)} {offset : Nat}
    (later : ∀ edit ∈ edits, offset ≤ edit.start) (inside : offset ≤ text.length)
    (ends : ∀ edit ∈ edits, edit.start ≤ edit.stop ∧ edit.stop ≤ text.length) :
    (replay text edits).take offset = text.take offset := by
  induction edits with
  | nil => rfl
  | cons edit edits ih =>
      rw [List.forall_mem_cons] at later ends
      have rest := ih later.2 ends.2
      have long : offset ≤ (replay text edits).length := by
        have := congrArg List.length rest
        rw [List.length_take, List.length_take] at this
        omega
      rw [replay_cons, Edit.splice, List.append_assoc,
        List.take_append_of_le_length (by rw [List.length_take]; omega), List.take_take,
        min_eq_left later.1, rest]

variable {allowed : Nat → Bool}

theorem slice_eq_some {text : List α} {start stop : Nat} (forward : start ≤ stop)
    (inside : stop ≤ text.length) (first : allowed start = true) (last : allowed stop = true) :
    slice allowed text start stop = some ((text.take stop).drop start) := by
  rw [slice, if_pos ⟨forward, inside, first, last⟩]

theorem copy_eq_replay {text : List α} (whole : allowed text.length = true)
    (edits : List (Edit α)) {offset : Nat} (output : List α) (here : allowed offset = true)
    (chain : edits.Pairwise fun a b => a.stop ≤ b.start)
    (inside : Inside (fun place => allowed place = true) offset text.length edits)
    (within : offset ≤ text.length) :
    copy allowed text edits offset output = some (output ++ (replay text edits).drop offset) := by
  induction edits generalizing offset output with
  | nil =>
      rw [copy, slice_eq_some within le_rfl here whole, List.take_length]
      rfl
  | cons edit edits ih =>
      obtain ⟨first, later⟩ := List.pairwise_cons.1 chain
      obtain ⟨start, some, stop⟩ := inside.range edit List.mem_cons_self
      obtain ⟨allowStart, allowStop⟩ := inside.ends edit List.mem_cons_self
      have rest : Inside (fun place => allowed place = true) edit.stop text.length edits := {
        range := fun other member => ⟨first other member,
          (inside.range other (List.mem_cons_of_mem _ member)).2⟩
        ends := fun other member => inside.ends other (List.mem_cons_of_mem _ member)
        apart := (List.pairwise_cons.1 inside.apart).2 }
      have front : (replay text edits).take edit.start = text.take edit.start := by
        refine take_replay (fun other member => ?_) (by omega) fun other member => ?_
        · have := first other member
          omega
        · have := rest.range other member
          omega
      have long : edit.start ≤ (replay text edits).length := by
        have := congrArg List.length front
        rw [List.length_take, List.length_take] at this
        omega
      rw [copy, slice_eq_some start (by omega) here allowStart, Option.bind_some,
        ih _ allowStop later rest stop, replay_cons, Edit.splice, front,
        List.append_assoc, List.append_assoc, List.append_assoc,
        List.drop_append_of_le_length (by rw [List.length_take]; omega)]

end Reb.Theory.Edits
