/-
# Theory.BufRead -- reading a stream in pieces, and the records it is made of

A buffered reader shows some of what is left of its stream and drops what it is told
to; how much it shows at a time is its own affair.  Its laws are fields, so that a loop
over it terminates on what remains and is judged by the stream alone.  `records` cuts a
stream at its separators; an empty tail is no record.
-/
import Mathlib

namespace Reb.Theory

set_option autoImplicit false

/-- `fillBuf` shows the start of what remains, nothing only at the end; `consume` drops
items that were shown. -/
structure BufRead (α σ : Type*) where
  fillBuf : σ → List α × σ
  consume : Nat → σ → σ
  remaining : σ → List α
  fillBuf_prefix : ∀ s, ∃ later, remaining s = (fillBuf s).1 ++ later
  remaining_fillBuf : ∀ s, remaining (fillBuf s).2 = remaining s
  remaining_of_shown_nil : ∀ s, (fillBuf s).1 = [] → remaining s = []
  remaining_consume : ∀ s n, n ≤ (fillBuf s).1.length →
    remaining (consume n (fillBuf s).2) = (remaining s).drop n

namespace BufRead

variable {α σ : Type*}

/-- What follows the first `n` of the items shown. -/
theorem remaining_consume_append (reader : BufRead α σ) {s : σ}
    (taken : List α) {kept later : List α}
    (shown : (reader.fillBuf s).1 = taken ++ kept)
    (stream : reader.remaining s = (taken ++ kept) ++ later) :
    reader.remaining (reader.consume taken.length (reader.fillBuf s).2) = kept ++ later := by
  rw [reader.remaining_consume s _ (by simp [shown]), stream, List.append_assoc, List.drop_left]

/-- The reader that shows a stream chunk by chunk. -/
def chunked : BufRead α (List (List α)) where
  fillBuf chunks :=
    ((chunks.dropWhile (·.isEmpty)).headD [], chunks.dropWhile (·.isEmpty))
  consume n chunks := chunks.modifyHead (·.drop n)
  remaining := List.flatten
  fillBuf_prefix chunks := by
    induction chunks with
    | nil => exact ⟨[], rfl⟩
    | cons chunk rest ih =>
        cases chunk with
        | nil => exact ih
        | cons item chunk => exact ⟨rest.flatten, rfl⟩
  remaining_fillBuf chunks := by
    induction chunks with
    | nil => rfl
    | cons chunk rest ih =>
        cases chunk with
        | nil => exact ih
        | cons item chunk => rfl
  remaining_of_shown_nil chunks shown := by
    induction chunks with
    | nil => rfl
    | cons chunk rest ih =>
        cases chunk with
        | nil => exact ih shown
        | cons item chunk => cases shown
  remaining_consume chunks n inside := by
    induction chunks with
    | nil => simp
    | cons chunk rest ih =>
        cases chunk with
        | nil => exact ih inside
        | cons item chunk =>
            have : n ≤ (item :: chunk).length := inside
            exact (List.drop_append_of_le_length this).symm

end BufRead

section Records

variable {α : Type*} [DecidableEq α] (separator : α)

/-- What stands before each separator, then the tail unless it is empty. -/
def records : List α → List (List α)
  | [] => []
  | item :: rest =>
      if item = separator then [] :: records rest
      else (item :: (records rest).headD []) :: (records rest).tail

/-- Where the first separator of a piece stands. -/
theorem split_of_idxOf? {piece : List α} {count : Nat}
    (found : piece.idxOf? separator = some count) :
    ∃ before after, piece = before ++ separator :: after ∧ separator ∉ before
      ∧ before.length = count := by
  obtain ⟨inside, here, first⟩ := List.idxOf?_eq_some_iff.1 found
  refine ⟨piece.take count, piece.drop (count + 1), ?_, ?_, by simp [inside.le]⟩
  · rw [← here, List.getElem_cons_drop, List.take_append_drop]
  · intro member
    obtain ⟨i, before, same⟩ := List.mem_take_iff_getElem.1 member
    have := first i (by omega)
    simp [same] at this

omit [DecidableEq α] in
/-- A piece without a separator stops inside the first record. -/
theorem record_of_append {piece later record rest : List α} (apart : separator ∉ piece)
    (stream : piece ++ later = record ++ separator :: rest) :
    ∃ more, record = piece ++ more ∧ later = more ++ separator :: rest := by
  obtain ⟨more, inside, after⟩ | ⟨more, inside, after⟩ := List.append_eq_append_iff.1 stream
  · exact ⟨more, inside, after⟩
  · cases more with
    | nil => exact ⟨[], by simpa using inside.symm, by simpa using after.symm⟩
    | cons item more =>
        obtain ⟨rfl, -⟩ := List.cons.inj after
        exact absurd (inside ▸ by simp) apart

omit [DecidableEq α] in
/-- The first record of a stream ends at its first separator. -/
theorem record_unique {first record later rest : List α} (apart : separator ∉ first)
    (whole : separator ∉ record)
    (stream : first ++ separator :: later = record ++ separator :: rest) :
    first = record ∧ later = rest := by
  obtain ⟨more, rfl, after⟩ := record_of_append separator apart stream
  cases more with
  | nil => exact ⟨(List.append_nil _).symm, (List.cons.inj after).2⟩
  | cons item more =>
      obtain ⟨rfl, -⟩ := List.cons.inj after
      exact absurd (by simp) whole

/-- A separated record comes first, whatever follows it. -/
theorem records_append_separator {record rest : List α} (whole : separator ∉ record) :
    records separator (record ++ separator :: rest) = record :: records separator rest := by
  induction record with
  | nil => simp [records]
  | cons item record ih =>
      rw [List.mem_cons, not_or] at whole
      rw [List.cons_append, records, if_neg (Ne.symm whole.1), ih whole.2]
      rfl

/-- A tail without a separator is one record, unless it is empty. -/
theorem records_of_notMem {tail : List α} (whole : separator ∉ tail) :
    records separator tail = if tail = [] then [] else [tail] := by
  induction tail with
  | nil => rfl
  | cons item tail ih =>
      rw [List.mem_cons, not_or] at whole
      rw [records, if_neg (Ne.symm whole.1), ih whole.2]
      cases tail with
      | nil => rfl
      | cons => rfl

end Records

end Reb.Theory
