/-
# Deobfuscator.RequestFraming -- one request per line

`read_request` gathers a line across the pieces its reader shows, drops what an
oversized line has gathered and drains it, and leaves the reader behind the line's end;
`serve` answers every line and goes on.  `readRequest_spec` is the loop's one invariant;
what the worker writes is then a function of the lines alone (`serve_records`).  First come
the fields of a response and the refusal every path shares.
-/
import Mathlib
import Reb.Theory.BufRead

namespace Reb.Deobfuscator

set_option autoImplicit false

def maxSourceBytes : Nat := 4 * 1024 * 1024

def maxRequestBytes : Nat := maxSourceBytes * 6 + 64 * 1024

structure SyntaxError where
  message : String
  start : Nat
  stop : Nat
  deriving DecidableEq, Repr

structure Evidence where
  statementCount : Nat := 0
  commentCount : Nat := 0
  sourceType : String := ""
  deriving DecidableEq, Repr

structure Transformation where
  kind : String
  originalStart : Nat
  originalEnd : Nat
  replacement : List UInt8
  deriving DecidableEq, Repr

/-- The location a function lookup answers with stays in its own module. -/
structure Response where
  schema : String
  ok : Bool
  parsed : Bool
  sourceBytes : Nat
  syntaxErrors : List SyntaxError
  evidence : Evidence
  derivedSource : List UInt8
  transformations : List Transformation
  transformationsTruncated : Bool
  assumptions : List String
  errorKind : Option String
  deriving DecidableEq, Repr

def errorResponse (kind message : String) : Response where
  schema := "reb-deobfuscator-worker-v1"
  ok := false
  parsed := false
  sourceBytes := 0
  syntaxErrors := [⟨message, 0, 0⟩]
  evidence := {}
  derivedSource := []
  transformations := []
  transformationsTruncated := false
  assumptions := []
  errorKind := some kind

end Reb.Deobfuscator

namespace Reb.Deobfuscator

open Reb.Theory

def newline : UInt8 := 10

inductive ErrorKind where
  | invalidData | other
  deriving DecidableEq, Repr

structure IoError where
  kind : ErrorKind
  message : String
  deriving DecidableEq, Repr

def oversize : IoError := ⟨.invalidData, "request exceeds the byte limit"⟩

/-! ## Reading one line -/

/-- What `read_request` has of the current line. -/
structure Line where
  bytes : List UInt8 := []
  oversized : Bool := false
  deriving DecidableEq, Repr

/-- A piece of the line; past the limit the line is dropped and only drained. -/
def Line.gather (limit : Nat) (line : Line) (piece : List UInt8) : Line :=
  if line.oversized then line
  else if piece.length > limit - line.bytes.length then { bytes := [], oversized := true }
  else { line with bytes := line.bytes ++ piece }

section Reading

variable {σ : Type*} (reader : BufRead UInt8 σ) (limit : Nat)

theorem consumed_lt {s : σ} {count : Nat} (positive : 0 < count)
    (inside : count ≤ (reader.fillBuf s).1.length) :
    (reader.remaining (reader.consume count (reader.fillBuf s).2)).length
      < (reader.remaining s).length := by
  obtain ⟨later, stream⟩ := reader.fillBuf_prefix s
  rw [reader.remaining_consume s _ inside, List.length_drop, stream, List.length_append]
  omega

/-- The loop of `read_request`. -/
def readLoop (line : Line) (s : σ) : Except IoError (Option (List UInt8)) × σ :=
  let chunk := (reader.fillBuf s).1
  if _empty : chunk = [] then
    (if line.oversized then .error oversize
      else if line.bytes.isEmpty then .ok none else .ok (some line.bytes),
      (reader.fillBuf s).2)
  else
    match chunk.idxOf? newline with
    | some count =>
        let line := line.gather limit (chunk.take count)
        (if line.oversized then .error oversize else .ok (some line.bytes),
          reader.consume (count + 1) (reader.fillBuf s).2)
    | none =>
        readLoop (line.gather limit chunk) (reader.consume chunk.length (reader.fillBuf s).2)
termination_by (reader.remaining s).length
decreasing_by exact consumed_lt reader (List.length_pos_iff.2 ‹_›) le_rfl

def readRequest (s : σ) : Except IoError (Option (List UInt8)) × σ :=
  readLoop reader limit {} s

/-- What a line is answered with. -/
def verdict (line : List UInt8) : Except IoError (List UInt8) :=
  if line.length ≤ limit then .ok line else .error oversize

/-- What has been gathered of a line whose bytes so far are `past`. -/
def Line.of (past : List UInt8) : Line :=
  if past.length ≤ limit then ⟨past, false⟩ else ⟨[], true⟩

section Gathered

variable {limit} {past : List UInt8}

@[simp] theorem Line.of_fits (fits : past.length ≤ limit) : Line.of limit past = ⟨past, false⟩ :=
  if_pos fits

@[simp] theorem Line.of_exceeds (exceeds : limit < past.length) :
    Line.of limit past = ⟨[], true⟩ :=
  if_neg (Nat.not_le.2 exceeds)

@[simp] theorem verdict_fits (fits : past.length ≤ limit) : verdict limit past = .ok past :=
  if_pos fits

@[simp] theorem verdict_exceeds (exceeds : limit < past.length) :
    verdict limit past = .error oversize :=
  if_neg (Nat.not_le.2 exceeds)

end Gathered

theorem Line.gather_of (past piece : List UInt8) :
    (Line.of limit past).gather limit piece = Line.of limit (past ++ piece) := by
  have length := @List.length_append _ past piece
  rcases Nat.lt_or_ge limit past.length with exceeds | fits
  · rw [Line.of_exceeds exceeds, Line.of_exceeds (by omega)]
    rfl
  · rw [Line.of_fits fits]
    rcases Nat.lt_or_ge limit (past ++ piece).length with excess | more
    · rw [Line.of_exceeds excess, Line.gather, if_neg Bool.false_ne_true,
        if_pos (show piece.length > limit - past.length by omega)]
    · rw [Line.of_fits more, Line.gather, if_neg Bool.false_ne_true,
        if_neg (show ¬ piece.length > limit - past.length by omega)]

/-- The exit at the end of a line. -/
theorem Line.ended (past : List UInt8) :
    (if (Line.of limit past).oversized then .error oversize
      else .ok (some (Line.of limit past).bytes)) = (verdict limit past).map some := by
  rcases Nat.lt_or_ge limit past.length with exceeds | fits
  · rw [Line.of_exceeds exceeds, verdict_exceeds exceeds]
    rfl
  · rw [Line.of_fits fits, verdict_fits fits]
    rfl

/-- The exit at the end of the stream. -/
theorem Line.exhausted (past : List UInt8) :
    (if (Line.of limit past).oversized then .error oversize
      else if (Line.of limit past).bytes.isEmpty then .ok none
      else .ok (some (Line.of limit past).bytes))
      = if past = [] then .ok none else (verdict limit past).map some := by
  rcases Nat.lt_or_ge limit past.length with exceeds | fits
  · have some : past ≠ [] := List.length_pos_iff.1 (by omega)
    rw [Line.of_exceeds exceeds, verdict_exceeds exceeds, if_neg some]
    rfl
  · rw [Line.of_fits fits, verdict_fits fits]
    cases past with
    | nil => rfl
    | cons => rfl

/-- Before a line's end, from the bytes of the line already read. -/
theorem readLoop_line (past : List UInt8) {line rest : List UInt8} {s : σ} (whole : newline ∉ line)
    (stream : reader.remaining s = line ++ newline :: rest) :
    (readLoop reader limit (Line.of limit past) s).1 = (verdict limit (past ++ line)).map some
      ∧ reader.remaining (readLoop reader limit (Line.of limit past) s).2 = rest := by
  obtain ⟨later, shown⟩ := reader.fillBuf_prefix s
  have some : (reader.fillBuf s).1 ≠ [] := by
    intro none
    rw [reader.remaining_of_shown_nil s none] at stream
    simp at stream
  rw [readLoop, dif_neg some]
  cases found : (reader.fillBuf s).1.idxOf? newline with
  | some count =>
      obtain ⟨before, after, chunk, apart, rfl⟩ := split_of_idxOf? newline found
      rw [shown, chunk, List.append_assoc, List.cons_append] at stream
      obtain ⟨rfl, rfl⟩ := record_unique newline apart whole stream
      have taken : (reader.fillBuf s).1.take before.length = before := by simp [chunk]
      refine ⟨?_, ?_⟩
      · simp only [taken, Line.gather_of, Line.ended]
      · have consumed : reader.remaining (reader.consume (before ++ [newline]).length
            (reader.fillBuf s).2) = after ++ later :=
          reader.remaining_consume_append _ (by simp [chunk]) (by simp [shown, chunk])
        rwa [List.length_append] at consumed
  | none =>
      have apart : newline ∉ (reader.fillBuf s).1 := List.idxOf?_eq_none_iff.1 found
      rw [shown] at stream
      obtain ⟨more, rfl, rfl⟩ := record_of_append newline apart stream
      have consumed : reader.remaining (reader.consume (reader.fillBuf s).1.length
          (reader.fillBuf s).2) = [] ++ (more ++ newline :: rest) :=
        reader.remaining_consume_append _ (List.append_nil _).symm (by rw [List.append_nil, shown])
      simp only [Line.gather_of]
      rw [← List.append_assoc]
      exact readLoop_line _ (fun member => whole (by simp [member])) consumed
termination_by (reader.remaining s).length
decreasing_by exact consumed_lt reader (List.length_pos_iff.2 some) le_rfl

/-- Before the end of the stream, from the bytes of the line already read. -/
theorem readLoop_tail (past : List UInt8) {s : σ} (whole : newline ∉ reader.remaining s) :
    (readLoop reader limit (Line.of limit past) s).1
        = (if past ++ reader.remaining s = [] then .ok none
          else (verdict limit (past ++ reader.remaining s)).map some)
      ∧ reader.remaining (readLoop reader limit (Line.of limit past) s).2 = [] := by
  obtain ⟨later, shown⟩ := reader.fillBuf_prefix s
  rw [readLoop]
  by_cases none : (reader.fillBuf s).1 = []
  · have ended := reader.remaining_of_shown_nil s none
    rw [dif_pos none, ended, List.append_nil]
    exact ⟨Line.exhausted limit past, by rw [reader.remaining_fillBuf, ended]⟩
  · rw [dif_neg none]
    rw [shown, List.mem_append, not_or] at whole
    have missing : (reader.fillBuf s).1.idxOf? newline = Option.none :=
      List.idxOf?_eq_none_iff.2 whole.1
    have consumed : reader.remaining (reader.consume (reader.fillBuf s).1.length
        (reader.fillBuf s).2) = [] ++ later :=
      reader.remaining_consume_append _ (List.append_nil _).symm (by rw [List.append_nil, shown])
    rw [List.nil_append] at consumed
    simp only [missing, Line.gather_of]
    have ih := readLoop_tail (past ++ (reader.fillBuf s).1) (consumed ▸ whole.2)
    rwa [consumed, List.append_assoc, ← shown] at ih
termination_by (reader.remaining s).length
decreasing_by exact consumed_lt reader (List.length_pos_iff.2 none) le_rfl

/-- A separated line is judged by its bytes, and the reader stands behind its end. -/
theorem readRequest_line {line rest : List UInt8} {s : σ} (whole : newline ∉ line)
    (stream : reader.remaining s = line ++ newline :: rest) :
    (readRequest reader limit s).1 = (verdict limit line).map some
      ∧ reader.remaining (readRequest reader limit s).2 = rest :=
  readLoop_line reader limit [] whole stream

/-- A tail is judged by its bytes unless it is empty, and is the end of the stream. -/
theorem readRequest_tail {s : σ} (whole : newline ∉ reader.remaining s) :
    (readRequest reader limit s).1
        = (if reader.remaining s = [] then .ok none
          else (verdict limit (reader.remaining s)).map some)
      ∧ reader.remaining (readRequest reader limit s).2 = [] :=
  readLoop_tail reader limit [] whole

/-- `read_request` takes the first record of what remains and leaves the others. -/
theorem readRequest_records (s : σ) :
    (readRequest reader limit s).1
        = ((records newline (reader.remaining s)).head?.elim (.ok none)
          fun line => (verdict limit line).map some)
      ∧ records newline (reader.remaining (readRequest reader limit s).2)
        = (records newline (reader.remaining s)).tail := by
  by_cases ended : newline ∈ reader.remaining s
  · obtain ⟨line, rest, stream, whole⟩ := List.eq_append_cons_of_mem ended
    obtain ⟨judged, left⟩ := readRequest_line reader limit whole stream
    rw [judged, left, stream, records_append_separator newline whole]
    exact ⟨rfl, rfl⟩
  · obtain ⟨judged, left⟩ := readRequest_tail reader limit ended
    rw [judged, left, records_of_notMem newline ended]
    split
    · exact ⟨rfl, rfl⟩
    · exact ⟨rfl, rfl⟩

/-- One call: the stream has ended, or its next record has been judged. -/
theorem readRequest_cases {s later : σ} {result : Except IoError (Option (List UInt8))}
    (read : readRequest reader limit s = (result, later)) :
    (result = .ok none ∧ records newline (reader.remaining s) = [])
      ∨ ∃ line, result = (verdict limit line).map some
        ∧ records newline (reader.remaining s)
          = line :: records newline (reader.remaining later) := by
  obtain ⟨judged, left⟩ := readRequest_records reader limit s
  rw [read] at judged left
  cases stream : records newline (reader.remaining s) with
  | nil =>
      rw [stream] at judged
      exact .inl ⟨judged, rfl⟩
  | cons line rest =>
      rw [stream] at judged left
      exact .inr ⟨line, judged, by rw [left, List.tail_cons]⟩

theorem readRequest_end {s later : σ} (read : readRequest reader limit s = (.ok none, later)) :
    records newline (reader.remaining s) = [] := by
  obtain ⟨-, stream⟩ | ⟨line, judged, -⟩ := readRequest_cases reader limit read
  · exact stream
  · cases verdicts : verdict limit line <;> rw [verdicts] at judged <;> cases judged

theorem readRequest_ok {s later : σ} {line : List UInt8}
    (read : readRequest reader limit s = (.ok (some line), later)) :
    verdict limit line = .ok line
      ∧ records newline (reader.remaining s)
        = line :: records newline (reader.remaining later) := by
  obtain ⟨ended, -⟩ | ⟨record, judged, stream⟩ := readRequest_cases reader limit read
  · cases ended
  · rcases Nat.lt_or_ge limit record.length with exceeds | fits
    · rw [verdict_exceeds exceeds] at judged
      cases judged
    · rw [verdict_fits fits] at judged
      cases judged
      exact ⟨verdict_fits fits, stream⟩

theorem readRequest_error {s later : σ} {error : IoError}
    (read : readRequest reader limit s = (.error error, later)) :
    error = oversize ∧ ∃ line, verdict limit line = .error oversize
      ∧ records newline (reader.remaining s)
        = line :: records newline (reader.remaining later) := by
  obtain ⟨ended, -⟩ | ⟨record, judged, stream⟩ := readRequest_cases reader limit read
  · cases ended
  · rcases Nat.lt_or_ge limit record.length with exceeds | fits
    · rw [verdict_exceeds exceeds] at judged
      cases judged
      exact ⟨rfl, record, verdict_exceeds exceeds, stream⟩
    · rw [verdict_fits fits] at judged
      cases judged

theorem readRequest_shrinks {s later : σ} {result : Except IoError (Option (List UInt8))}
    (read : readRequest reader limit s = (result, later)) (more : result ≠ .ok none) :
    (records newline (reader.remaining later)).length
      < (records newline (reader.remaining s)).length := by
  obtain ⟨ended, -⟩ | ⟨line, -, stream⟩ := readRequest_cases reader limit read
  · exact absurd ended more
  · rw [stream]
    exact Nat.lt_succ_self _

/-- What `read_request` returns until the end of the stream. -/
def requests (s : σ) : List (Except IoError (List UInt8)) :=
  match _result : readRequest reader limit s with
  | (.ok none, _) => []
  | (.ok (some line), later) => .ok line :: requests later
  | (.error error, later) => .error error :: requests later
termination_by (records newline (reader.remaining s)).length
decreasing_by all_goals exact readRequest_shrinks reader limit ‹_› (by simp)

/-- The results are the verdicts of the stream's records, in order. -/
theorem requests_eq (s : σ) :
    requests reader limit s = (records newline (reader.remaining s)).map (verdict limit) := by
  rw [requests.eq_def]
  split
  next later read => rw [readRequest_end reader limit read, List.map_nil]
  next line later read =>
      obtain ⟨judged, stream⟩ := readRequest_ok reader limit read
      rw [stream, List.map_cons, judged, requests_eq later]
  next error later read =>
      obtain ⟨rfl, line, judged, stream⟩ := readRequest_error reader limit read
      rw [stream, List.map_cons, judged, requests_eq later]
termination_by (records newline (reader.remaining s)).length
decreasing_by all_goals exact readRequest_shrinks reader limit ‹_› (by simp)

end Reading

/-! ## Answering every line -/

inductive Rejected where
  | request (message : String)
  | sourceFacts | invocationSite | requestField
  deriving DecidableEq, Repr

/-- What the worker asks of its JSON library and of its analyses.  `operation` reads a
line, `analyze` runs what was asked, and `render` writes a value on one line. -/
structure Handlers (Operation Value : Type*) where
  operation : List UInt8 → Except Rejected Operation
  analyze : Operation → Value
  invalidSourceFacts : Value
  invalidInvocationSite : Value
  invalidRequestField : Value
  toValue : Response → Value
  render : Value → List UInt8
  render_line : ∀ value, newline ∉ render value

namespace Handlers

variable {Operation Value : Type*} (handlers : Handlers Operation Value)

def respond (line : List UInt8) : Value :=
  match handlers.operation line with
  | .ok operation => handlers.analyze operation
  | .error (.request message) => handlers.toValue (errorResponse "invalid-request" message)
  | .error .sourceFacts => handlers.invalidSourceFacts
  | .error .invocationSite => handlers.invalidInvocationSite
  | .error .requestField => handlers.invalidRequestField

def written (value : Value) : List UInt8 := handlers.render value ++ [newline]

/-- What a line is answered with, oversized or not. -/
def reply : Except IoError (List UInt8) → Value
  | .ok line => handlers.respond line
  | .error error => handlers.toValue (errorResponse "source-limit" error.message)

end Handlers

section Serving

variable {σ Operation Value : Type*} (reader : BufRead UInt8 σ) (handlers : Handlers Operation Value)

def serve (s : σ) (output : List UInt8) : Except IoError Unit × List UInt8 :=
  match _result : readRequest reader maxRequestBytes s with
  | (.ok none, _) => (.ok (), output)
  | (.ok (some line), later) => serve later (output ++ handlers.written (handlers.respond line))
  | (.error error, later) =>
      if error.kind = .invalidData then
        serve later (output ++ handlers.written
          (handlers.toValue (errorResponse "source-limit" error.message)))
      else (.error error, output)
termination_by (records newline (reader.remaining s)).length
decreasing_by all_goals exact readRequest_shrinks reader maxRequestBytes ‹_› (by simp)

/-- What stands in the output after a run is what each line is answered with, in order. -/
theorem serve_eq (s : σ) (output : List UInt8) :
    serve reader handlers s output
      = (.ok (), output ++ (records newline (reader.remaining s)).flatMap fun line =>
          handlers.written (handlers.reply (verdict maxRequestBytes line))) := by
  rw [serve.eq_def]
  split
  next later read =>
      rw [readRequest_end reader maxRequestBytes read, List.flatMap_nil, List.append_nil]
  next line later read =>
      obtain ⟨judged, stream⟩ := readRequest_ok reader maxRequestBytes read
      rw [stream, List.flatMap_cons, judged, serve_eq later, List.append_assoc]
      rfl
  next error later read =>
      obtain ⟨rfl, line, judged, stream⟩ := readRequest_error reader maxRequestBytes read
      rw [if_pos (show oversize.kind = .invalidData from rfl), stream, List.flatMap_cons, judged,
        serve_eq later, List.append_assoc]
      rfl
termination_by (records newline (reader.remaining s)).length
decreasing_by all_goals exact readRequest_shrinks reader maxRequestBytes ‹_› (by simp)

/-- Lines split between chunks, one of them over the limit. -/
example :
    requests BufRead.chunked 4 [[49, 50, 51], [52, 53], [10, 111], [], [107, 10, 33]]
      = [.error oversize, .ok [111, 107], .ok [33]] := by
  rw [requests_eq]
  decide

end Serving

end Reb.Deobfuscator
