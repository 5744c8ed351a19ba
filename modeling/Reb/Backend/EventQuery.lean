/-
# Backend.EventQuery -- one page of an evidence store

A store holds one record a line.  A page is read forward from a cursor or backward to one, a chunk
at a time, until enough records are selected or the budget of bytes is spent; a record that is
still being written has no newline and is left for a later page.  The `visit` that parses and
selects a line is a parameter.
-/
import Reb.Theory.BufRead

namespace Reb.Backend.EventQuery

set_option autoImplicit false

abbrev Bytes := List UInt8

structure Error where
  status : Nat
  message : String
  deriving DecidableEq, Repr

def newline : UInt8 := 10

def chunkSize : Nat := 64 * 1024

def oversized : Error := ⟨500, "The evidence store contains an oversized record"⟩

def whitespace (line : Bytes) : Bool :=
  line.all fun byte => [0x20, 0x09, 0x0a, 0x0c, 0x0d].contains byte

inductive Cursor where
  | tail
  | after (offset : Nat)
  | before (offset : Nat)
  deriving DecidableEq, Repr

structure Page (Value : Type) where
  records : List Value
  scanStart : Nat
  scanEnd : Nat
  storeEnd : Nat
  limited : Bool
  exhausted : Bool
  deriving DecidableEq, Repr

def Page.empty {Value : Type} (cursor storeEnd : Nat) : Page Value :=
  ⟨[], cursor, cursor, storeEnd, false, false⟩

/-- The records selected so far, and whether they are as many as were asked for. -/
structure Selection (Value : Type) where
  records : List Value := []
  limited : Bool := false
  deriving DecidableEq, Repr

section

variable {Value : Type} (visit : Bytes → Except Error (Option Value))

/-- The closure of `read_page` around `visit`; `false` stops the reading. -/
def select (limit : Nat) (line : Bytes) (selection : Selection Value) :
    Except Error (Bool × Selection Value) :=
  match visit line with
  | .error error => .error error
  | .ok none => .ok (true, selection)
  | .ok (some record) =>
      if limit ≤ selection.records.length + 1 then
        .ok (false, ⟨selection.records ++ [record], true⟩)
      else .ok (true, { selection with records := selection.records ++ [record] })

/-- `whitespace(line) || visit(line)?` -/
def consider (limit : Nat) (line : Bytes) (selection : Selection Value) :
    Except Error (Bool × Selection Value) :=
  if whitespace line then .ok (true, selection) else select visit limit line selection

def rposition (bytes : Bytes) : Option Nat :=
  (bytes.reverse.idxOf? newline).map fun index => bytes.length - 1 - index

theorem idxOf?_lt {bytes : Bytes} {count : Nat} (found : bytes.idxOf? newline = some count) :
    count < bytes.length := (List.idxOf?_eq_some_iff.1 found).choose

/-- The loop of `forward`; `buffer` is what has been read and not consumed. -/
def forwardLoop (limit maxRecord last : Nat) (bytes : Bytes) (position read : Nat)
    (buffer : Bytes) (selection : Selection Value) :
    Except Error (Nat × Bool × Selection Value) :=
  match _found : buffer.idxOf? newline with
  | some count =>
      if maxRecord < (buffer.take count).length then .error oversized
      else
        match consider visit limit (buffer.take count) selection with
        | .error error => .error error
        | .ok (true, selection) =>
            forwardLoop limit maxRecord last bytes (position + count + 1) read
              (buffer.drop (count + 1)) selection
        | .ok (false, selection) => .ok (position + count + 1, false, selection)
  | none =>
      if maxRecord < buffer.length then .error oversized
      else if last ≤ read then .ok (position, decide (last < bytes.length), selection)
      else
        let size := min (last - read) chunkSize
        forwardLoop limit maxRecord last bytes position (read + size)
          (buffer ++ (bytes.drop read).take size) selection
termination_by (last - read, buffer.length)
decreasing_by
  · have inside := idxOf?_lt _found
    exact Prod.Lex.right _ (by rw [List.length_drop]; omega)
  · exact Prod.Lex.left _ _ (by unfold chunkSize; omega)

def forward (limit budget maxRecord : Nat) (bytes : Bytes) (start : Nat) :
    Except Error (Nat × Bool × Selection Value) :=
  forwardLoop visit limit maxRecord (min bytes.length (start + budget)) bytes start start [] {}

/-- Where the record that ends at `stop` begins, when the buffer from `position` on shows it. -/
def recordStart (position stop : Nat) (buffer : Bytes) : Option Nat :=
  match rposition (buffer.take (stop - position - 1)) with
  | some index => some (position + index + 1)
  | none => if position = 0 then some 0 else none

theorem rposition_lt {bytes : Bytes} {index : Nat} (found : rposition bytes = some index) :
    index < bytes.length := by
  obtain ⟨place, same, rfl⟩ := Option.map_eq_some_iff.1 found
  have inside := idxOf?_lt same
  rw [List.length_reverse] at inside
  omega

theorem recordStart_lt {position stop start : Nat} {buffer : Bytes} (some : 0 < stop)
    (found : recordStart position stop buffer = .some start) : start < stop := by
  unfold recordStart at found
  split at found
  case h_1 index place =>
    have inside := rposition_lt place
    rw [List.length_take] at inside
    cases found
    omega
  case h_2 =>
    split at found
    · cases found
      exact some
    · cases found

theorem position_ne_zero {position stop : Nat} {buffer : Bytes}
    (missing : recordStart position stop buffer = none) : position ≠ 0 := by
  unfold recordStart at missing
  split at missing
  · cases missing
  · split at missing
    · cases missing
    · assumption

/-- The loop of `backward`; `buffer` begins at `position` and holds what ends at `stop`. -/
def backwardLoop (limit budget maxRecord : Nat) (bytes : Bytes) (last position stop : Nat)
    (buffer : Bytes) (selection : Selection Value) :
    Except Error (Nat × Bool × Selection Value) :=
  if _some : 0 < stop then
    match _found : recordStart position stop buffer with
    | none =>
        if maxRecord + 1 < stop - position then .error oversized
        else
          let size := min position chunkSize
          backwardLoop limit budget maxRecord bytes last (position - size) stop
            ((bytes.drop (position - size)).take size ++ buffer) selection
    | some start =>
        if budget < last - start then .ok (stop, true, selection)
        else
          let line := (buffer.drop (start - position)).take (stop - start - 1)
          if maxRecord < line.length then .error oversized
          else
            match consider visit limit line selection with
            | .error error => .error error
            | .ok (true, selection) =>
                backwardLoop limit budget maxRecord bytes last position start
                  (buffer.take (start - position)) selection
            | .ok (false, selection) => .ok (start, false, selection)
  else .ok (stop, false, selection)
termination_by (stop, position)
decreasing_by
  · have := position_ne_zero _found
    exact Prod.Lex.right _ (by unfold chunkSize; omega)
  · exact Prod.Lex.left _ _ (recordStart_lt _some _found)

def backward (limit budget maxRecord : Nat) (bytes : Bytes) (stop : Nat) :
    Except Error (Nat × Bool × Selection Value) :=
  backwardLoop visit limit budget maxRecord bytes stop stop stop [] {}

end

end Reb.Backend.EventQuery
