/-
# Evidence.RecentExact -- when the last records are what the file ends with

`recent` reads a store of one JSON object a line from its end, a chunk at a time.  What a
chunk begins with may be the end of a longer line, so it is carried to the next chunk.
Parsing is `serde_json`'s.

The invariant of the loop over the chunks: the records read are those of the last lines
behind the boundary, and what is carried is the rest of the boundary's line
(`settled_iff`).  Whatever is carried is measured too, also when no more lines are wanted,
and that is the only way in which the outcome depends on older lines and on where the
boundaries fall (`recent_exact_iff`).
-/
import Mathlib

namespace Reb.Evidence.Recent

set_option autoImplicit false

abbrev Bytes := List UInt8

structure Error where
  status : Nat
  message : String
  deriving DecidableEq, Repr

/-- `serde_json::from_slice` and `Value::is_object`. -/
structure Json (Value : Type) where
  fromSlice : Bytes → Option Value
  isObject : Value → Bool

/-- What stands at the path of a store. -/
inductive Store where
  | absent
  | unreadable (message : String)
  | file (bytes : Bytes)

def newline : UInt8 := 0x0a

def chunkSize : Nat := 64 * 1024

/-- `line.iter().all(u8::is_ascii_whitespace)` -/
def isBlank (line : Bytes) : Bool :=
  line.all fun byte => [0x20, 0x09, 0x0a, 0x0c, 0x0d].contains byte

def oversized (label : String) : Error := ⟨500, s!"The evidence store contains an oversized {label}"⟩

def malformed (label : String) : Error := ⟨500, s!"The evidence store contains a malformed {label}"⟩

section Reading

variable {Value : Type} (json : Json Value) (limit maximum : Nat) (label : String)

def parsed (line : Bytes) : Except Error Value :=
  match json.fromSlice line with
  | none => .error (malformed label)
  | some value => if json.isObject value then .ok value else .error (malformed label)

/-- The loop over the complete lines of a chunk, the last one first. -/
def readParts : List Bytes → List Value → Except Error (List Value)
  | [], lines => .ok lines
  | line :: parts, lines =>
      if isBlank line then readParts parts lines
      else if maximum < line.length then .error (oversized label)
      else
        match parsed json label line with
        | .error error => .error error
        | .ok value =>
            if (lines ++ [value]).length = limit then .ok (lines ++ [value])
            else readParts parts (lines ++ [value])

/-- One chunk with what was carried behind it: what is carried on and the records. -/
def readChunk (chunk : Bytes) (lines : List Value) : Except Error (Bytes × List Value) :=
  let pieces := chunk.splitOn newline
  match readParts json limit maximum label pieces.tail.reverse lines with
  | .error error => .error error
  | .ok lines =>
      if maximum < (pieces.headD []).length then .error (oversized label)
      else .ok (pieces.headD [], lines)

/-- The start of the chunk that ends at `position`. -/
def before (position : Nat) : Nat := position - min position chunkSize

/-- The loop over the chunks. -/
def readChunks (bytes : Bytes) (position : Nat) (suffix : Bytes) (lines : List Value) :
    Except Error (Nat × Bytes × List Value) :=
  if 0 < position ∧ lines.length < limit then
    match readChunk json limit maximum label
        ((bytes.drop (before position)).take (position - before position) ++ suffix) lines with
    | .error error => .error error
    | .ok (suffix, lines) => readChunks bytes (before position) suffix lines
  else .ok (position, suffix, lines)
termination_by position
decreasing_by
  unfold before chunkSize
  omega

/-- The first line of the file, and the order of the file. -/
def finish (read : Except Error (Nat × Bytes × List Value)) : Except Error (List Value) :=
  match read with
  | .error error => .error error
  | .ok (position, suffix, lines) =>
      if position = 0 ∧ lines.length < limit ∧ isBlank suffix = false then
        match parsed json label suffix with
        | .error error => .error error
        | .ok value => .ok (lines ++ [value]).reverse
      else .ok lines.reverse

def recent (store : Store) : Except Error (List Value) :=
  if limit = 0 then .ok []
  else
    match store with
    | .absent => .ok []
    | .unreadable message => .error ⟨500, message⟩
    | .file bytes => finish json limit label (readChunks json limit maximum label bytes bytes.length [] [])

end Reading

/-! ## What is asked for -/

def shown (lines : List Bytes) : List Bytes := lines.filter fun line => !isBlank line

/-- The last lines of the file that are not blank. -/
def wanted (limit : Nat) (bytes : Bytes) : List Bytes :=
  ((shown (bytes.splitOn newline)).reverse.take limit).reverse

/-- A line of allowed size that holds an object. -/
structure Holds {Value : Type} (json : Json Value) (maximum : Nat) (line : Bytes) (value : Value) :
    Prop where
  short : line.length ≤ maximum
  read : json.fromSlice line = some value
  object : json.isObject value = true

/-! ## Where the chunks fall -/

def boundary (bytes : Bytes) (k : Nat) : Nat := bytes.length - chunkSize * k

/-- What stands between a position and the end of its line. -/
def carried (bytes : Bytes) (position : Nat) : Bytes :=
  (bytes.drop position).takeWhile (· != newline)

/-- The lines that begin behind the line of a position. -/
def behind (bytes : Bytes) (position : Nat) : List Bytes :=
  ((bytes.drop position).splitOn newline).tail

/-- The chunk before this boundary is needed: there is one, and too few lines follow. -/
def Needed (limit : Nat) (bytes : Bytes) (k : Nat) : Prop :=
  0 < boundary bytes k ∧ (shown (behind bytes (boundary bytes k))).length < limit

end Reb.Evidence.Recent

namespace Reb.Evidence.Recent

/-! # Exactness -/

/-! ## Lines -/

theorem splitOn_head (bytes : Bytes) :
    bytes.splitOn newline
      = bytes.takeWhile (· != newline) :: (bytes.splitOn newline).tail := by
  induction bytes with
  | nil => simp
  | cons byte bytes ih =>
      rw [List.splitOn_cons_eq_if_modifyHead]
      by_cases ends : byte = newline
      · simp [ends]
      · rw [if_neg (by simpa using ends), ih]
        simp [ends]

theorem splitOn_free {bytes : Bytes} :
    (bytes.takeWhile (· != newline)).splitOn newline = [bytes.takeWhile (· != newline)] := by
  apply List.splitOn_eq_singleton
  intro inside
  simpa using List.mem_takeWhile_imp inside

/-- What is put before a text changes its first line only. -/
theorem splitOn_append (front bytes : Bytes) :
    (front ++ bytes).splitOn newline
      = (front ++ bytes.takeWhile (· != newline)).splitOn newline
        ++ (bytes.splitOn newline).tail := by
  induction front with
  | nil =>
      rw [List.nil_append, List.nil_append, splitOn_free]
      exact splitOn_head bytes
  | cons byte front ih =>
      rw [List.cons_append, List.cons_append, List.splitOn_cons_eq_if_modifyHead,
        List.splitOn_cons_eq_if_modifyHead, ih]
      split
      · rfl
      · cases found : (front ++ bytes.takeWhile (· != newline)).splitOn newline with
        | nil => exact absurd found (List.splitOn_ne_nil _ _)
        | cons first rest => rfl

theorem shown_append (first rest : List Bytes) : shown (first ++ rest) = shown first ++ shown rest :=
  List.filter_append ..

section Chunk

variable {bytes : Bytes} {start stop : Nat}

theorem chunk_pieces (ordered : start ≤ stop) :
    (bytes.drop start).splitOn newline
      = ((bytes.drop start).take (stop - start) ++ carried bytes stop).splitOn newline
        ++ behind bytes stop := by
  have whole : (bytes.drop start).take (stop - start) ++ bytes.drop stop = bytes.drop start := by
    have later : (bytes.drop start).drop (stop - start) = bytes.drop stop := by
      rw [List.drop_drop, Nat.add_sub_cancel' ordered]
    rw [← later, List.take_append_drop]
  rw [carried, behind, ← splitOn_append, whole]

/-- A chunk with what is carried behind it begins with what is carried on. -/
theorem chunk_head (ordered : start ≤ stop) :
    (((bytes.drop start).take (stop - start) ++ carried bytes stop).splitOn newline).headD []
      = carried bytes start := by
  have pieces := @chunk_pieces bytes start stop ordered
  rw [splitOn_head] at pieces
  cases found : ((bytes.drop start).take (stop - start) ++ carried bytes stop).splitOn newline with
  | nil => exact absurd found (List.splitOn_ne_nil _ _)
  | cons first rest =>
      rw [found] at pieces
      exact (List.cons.inj pieces).1.symm

theorem chunk_behind (ordered : start ≤ stop) :
    behind bytes start
      = (((bytes.drop start).take (stop - start) ++ carried bytes stop).splitOn newline).tail
        ++ behind bytes stop := by
  have pieces := @chunk_pieces bytes start stop ordered
  cases found : ((bytes.drop start).take (stop - start) ++ carried bytes stop).splitOn newline with
  | nil => exact absurd found (List.splitOn_ne_nil _ _)
  | cons first rest =>
      rw [found] at pieces
      rw [behind, pieces]
      rfl

end Chunk

theorem file_lines (bytes : Bytes) : bytes.splitOn newline = carried bytes 0 :: behind bytes 0 :=
  splitOn_head bytes

/-- The lines behind an earlier position end with those behind a later one. -/
theorem shown_behind (bytes : Bytes) {start stop : Nat} (ordered : start ≤ stop) :
    ∃ earlier, shown (behind bytes start) = earlier ++ shown (behind bytes stop) :=
  ⟨_, by rw [chunk_behind ordered, shown_append]⟩

theorem shown_file (bytes : Bytes) (position : Nat) :
    ∃ earlier, shown (bytes.splitOn newline) = earlier ++ shown (behind bytes position) := by
  obtain ⟨earlier, same⟩ := shown_behind bytes (Nat.zero_le position)
  exact ⟨shown [carried bytes 0] ++ earlier, by
    rw [file_lines, ← List.singleton_append, shown_append, same, List.append_assoc]⟩

/-! ## Boundaries -/

section Boundaries

variable (bytes : Bytes) (k : Nat)

theorem before_boundary : before (boundary bytes k) = boundary bytes (k + 1) := by
  unfold before boundary chunkSize
  omega

theorem before_le (position : Nat) : before position ≤ position := Nat.sub_le ..

theorem boundary_le {j : Nat} (later : k ≤ j) : boundary bytes j ≤ boundary bytes k := by
  unfold boundary chunkSize
  omega

theorem boundary_lt (some : 0 < boundary bytes k) : boundary bytes (k + 1) < boundary bytes k := by
  unfold boundary chunkSize at *
  omega

variable {bytes k} {limit : Nat}

/-- A chunk that is needed comes after chunks that are needed. -/
theorem Needed.earlier {j : Nat} (needed : Needed limit bytes j) (earlier : k ≤ j) :
    Needed limit bytes k := by
  have ordered := boundary_le bytes k earlier
  obtain ⟨front, same⟩ := shown_behind bytes ordered
  refine ⟨Nat.lt_of_lt_of_le needed.1 ordered, ?_⟩
  have few := needed.2
  rw [same, List.length_append] at few
  omega

end Boundaries

/-! ## Records -/

section Records

variable {Value : Type} {json : Json Value} {limit maximum : Nat} {label : String}

theorem parsed_ok {line : Bytes} {value : Value} :
    parsed json label line = .ok value ↔
      json.fromSlice line = some value ∧ json.isObject value = true := by
  unfold parsed
  cases read : json.fromSlice line with
  | none => simp
  | some found =>
      dsimp only
      split
      · next object =>
          constructor
          · intro same
            have equal := Except.ok.inj same
            subst equal
            exact ⟨rfl, object⟩
          · rintro ⟨same, _⟩
            rw [Option.some.inj same]
      · next other =>
          constructor
          · intro same
            cases same
          · rintro ⟨same, object⟩
            rw [Option.some.inj same] at other
            exact absurd object other

theorem parsed_holds {line : Bytes} {value : Value} (short : line.length ≤ maximum) :
    parsed json label line = .ok value ↔ Holds json maximum line value := by
  rw [parsed_ok]
  exact ⟨fun both => ⟨short, both.1, both.2⟩, fun holds => ⟨holds.read, holds.object⟩⟩

theorem holds_unique : Relator.RightUnique (Holds json maximum) := by
  intro line first second one other
  exact Option.some.inj (one.read.symm.trans other.read)

theorem exists_values {lines : List Bytes} (good : ∀ line ∈ lines, ∃ value, Holds json maximum line value) :
    ∃ values, List.Forall₂ (Holds json maximum) lines values := by
  induction lines with
  | nil => exact ⟨[], .nil⟩
  | cons line lines ih =>
      obtain ⟨value, holds⟩ := good line List.mem_cons_self
      obtain ⟨values, all⟩ := ih fun other inside => good other (List.mem_cons_of_mem _ inside)
      exact ⟨value :: values, .cons holds all⟩

theorem holds_of_mem {lines : List Bytes} {values : List Value} {line : Bytes}
    (all : List.Forall₂ (Holds json maximum) lines values) (inside : line ∈ lines) :
    ∃ value, Holds json maximum line value := by
  induction all with
  | nil => cases inside
  | cons holds _ ih =>
      rcases List.mem_cons.1 inside with rfl | later
      · exact ⟨_, holds⟩
      · exact ih later

theorem forall₂_append {lines others : List Bytes} {values : List Value} :
    List.Forall₂ (Holds json maximum) (lines ++ others) values ↔
      ∃ first second, values = first ++ second ∧ List.Forall₂ (Holds json maximum) lines first ∧
        List.Forall₂ (Holds json maximum) others second := by
  constructor
  · intro all
    refine ⟨values.take lines.length, values.drop lines.length, ?_, ?_, ?_⟩
    · rw [List.take_append_drop]
    · simpa using List.forall₂_take lines.length all
    · simpa using List.forall₂_drop lines.length all
  · rintro ⟨first, second, rfl, one, other⟩
    exact List.rel_append one other

/-- The loop over complete lines reads as many as are still wanted. -/
theorem readParts_ok {parts : List Bytes} {lines out : List Value} (room : lines.length < limit) :
    readParts json limit maximum label parts lines = .ok out ↔
      ∃ values, List.Forall₂ (Holds json maximum)
          ((shown parts).take (limit - lines.length)) values ∧ out = lines ++ values := by
  induction parts generalizing lines with
  | nil =>
      rw [readParts, shown, List.filter_nil, List.take_nil]
      constructor
      · intro same
        exact ⟨[], .nil, by rw [List.append_nil, Except.ok.inj same]⟩
      · rintro ⟨values, none, rfl⟩
        rw [List.forall₂_nil_left_iff.1 none, List.append_nil]
  | cons line parts ih =>
      rw [readParts]
      by_cases blank : isBlank line = true
      · have skipped : shown (line :: parts) = shown parts := by
          rw [shown, List.filter_cons_of_neg (by rw [blank]; decide)]
          rfl
        rw [if_pos blank, ih room, skipped]
      · obtain ⟨left, count⟩ := Nat.exists_eq_add_of_lt room
        have kept : (shown (line :: parts)).take (limit - lines.length)
            = line :: (shown parts).take left := by
          rw [shown, List.filter_cons_of_pos (by simpa using blank), count,
            show lines.length + left + 1 - lines.length = left + 1 by omega, List.take_succ_cons]
          rfl
        rw [if_neg blank, kept]
        by_cases large : maximum < line.length
        · rw [if_pos large]
          constructor
          · intro failed
            cases failed
          · rintro ⟨values, all, _⟩
            obtain ⟨value, rest, holds, _, _⟩ := List.forall₂_cons_left_iff.1 all
            exact absurd holds.short (Nat.not_le.2 large)
        · rw [if_neg large]
          have short := Nat.not_lt.1 large
          have length (value : Value) : (lines ++ [value]).length = lines.length + 1 := by simp
          cases read : parsed json label line with
          | error error =>
              constructor
              · intro failed
                cases failed
              · rintro ⟨values, all, _⟩
                obtain ⟨value, rest, holds, _, _⟩ := List.forall₂_cons_left_iff.1 all
                rw [(parsed_holds short).2 holds] at read
                cases read
          | ok value =>
              have holds := (parsed_holds short).1 read
              have whole : (∃ values, List.Forall₂ (Holds json maximum)
                    (line :: (shown parts).take left) values ∧ out = lines ++ values) ↔
                  ∃ values, List.Forall₂ (Holds json maximum) ((shown parts).take left) values ∧
                    out = lines ++ [value] ++ values := by
                constructor
                · rintro ⟨values, all, rfl⟩
                  obtain ⟨first, rest, one, more, rfl⟩ := List.forall₂_cons_left_iff.1 all
                  exact ⟨rest, more, by rw [holds_unique holds one, List.append_assoc]; rfl⟩
                · rintro ⟨rest, more, rfl⟩
                  exact ⟨value :: rest, .cons holds more, by rw [List.append_assoc]; rfl⟩
              dsimp only
              rw [whole]
              by_cases full : (lines ++ [value]).length = limit
              · have none : left = 0 := by
                  rw [length] at full
                  omega
                rw [if_pos full, none, List.take_zero]
                constructor
                · intro same
                  exact ⟨[], .nil, by rw [List.append_nil, Except.ok.inj same]⟩
                · rintro ⟨values, empty, rfl⟩
                  rw [List.forall₂_nil_left_iff.1 empty, List.append_nil]
              · have more : limit - (lines ++ [value]).length = left := by
                  rw [length]
                  omega
                rw [if_neg full, ih (by rw [length] at full ⊢; omega), more]

/-! ## The loop over the chunks -/

/-- The lines behind a position, the last one first. -/
def latest (bytes : Bytes) (position : Nat) : List Bytes := (shown (behind bytes position)).reverse

/-- The records read so far are those of the last lines behind the position. -/
def Read (json : Json Value) (limit maximum : Nat) (bytes : Bytes) (position : Nat)
    (lines : List Value) : Prop :=
  List.Forall₂ (Holds json maximum) ((latest bytes position).take limit) lines

variable {bytes : Bytes} {lines : List Value} {stop : Nat}

theorem Read.length (read : Read json limit maximum bytes stop lines) :
    lines.length = min limit (latest bytes stop).length := by
  rw [← read.length_eq, List.length_take]

/-- What one chunk does to the invariant. -/
theorem readChunk_ok {suffix : Bytes} {out : List Value}
    (read : Read json limit maximum bytes stop lines) (room : lines.length < limit) :
    readChunk json limit maximum label
        ((bytes.drop (before stop)).take (stop - before stop) ++ carried bytes stop) lines
      = .ok (suffix, out) ↔
      suffix = carried bytes (before stop) ∧ (carried bytes (before stop)).length ≤ maximum ∧
        Read json limit maximum bytes (before stop) out := by
  have ordered := before_le stop
  have count := read.length
  have few : (latest bytes stop).length ≤ limit := by omega
  have known : List.Forall₂ (Holds json maximum) (latest bytes stop) lines := by
    have all := read
    rwa [Read, List.take_of_length_le few] at all
  have pieces : (latest bytes (before stop)).take limit = latest bytes stop
      ++ (shown (((bytes.drop (before stop)).take (stop - before stop)
        ++ carried bytes stop).splitOn newline).tail.reverse).take (limit - lines.length) := by
    rw [latest, chunk_behind ordered, shown_append, List.reverse_append, ← latest, List.take_append,
      List.take_of_length_le few, show (latest bytes stop).length = lines.length by omega, shown,
      shown, List.filter_reverse]
  have after : Read json limit maximum bytes (before stop) out ↔
      ∃ values, List.Forall₂ (Holds json maximum)
        ((shown (((bytes.drop (before stop)).take (stop - before stop)
          ++ carried bytes stop).splitOn newline).tail.reverse).take (limit - lines.length)) values ∧
        out = lines ++ values := by
    rw [Read, pieces, forall₂_append]
    constructor
    · rintro ⟨first, second, rfl, one, other⟩
      exact ⟨second, other, by rw [List.right_unique_forall₂' holds_unique known one]⟩
    · rintro ⟨values, all, rfl⟩
      exact ⟨lines, values, rfl, known, all⟩
  rw [readChunk, chunk_head ordered, after]
  cases parts : readParts json limit maximum label (((bytes.drop (before stop)).take
      (stop - before stop) ++ carried bytes stop).splitOn newline).tail.reverse lines with
  | error error =>
      constructor
      · intro failed
        cases failed
      · rintro ⟨_, _, values⟩
        rw [(readParts_ok room).2 values] at parts
        cases parts
  | ok found =>
      dsimp only
      by_cases large : maximum < (carried bytes (before stop)).length
      · rw [if_pos large]
        constructor
        · intro failed
          cases failed
        · rintro ⟨_, short, _⟩
          exact absurd short (Nat.not_le.2 large)
      · rw [if_neg large]
        constructor
        · intro same
          obtain ⟨rfl, rfl⟩ := Prod.mk.inj (Except.ok.inj same)
          exact ⟨rfl, Nat.not_lt.1 large, (readParts_ok room).1 parts⟩
        · rintro ⟨rfl, _, values⟩
          rw [(readParts_ok room).2 values] at parts
          rw [Except.ok.inj parts]

theorem wanted_iff {values : List Value} :
    List.Forall₂ (Holds json maximum) (wanted limit bytes) values ↔
      List.Forall₂ (Holds json maximum) ((shown (bytes.splitOn newline)).reverse.take limit)
        values.reverse := by
  rw [wanted, ← List.forall₂_reverse_iff, List.reverse_reverse]

/-- What is wanted of the file is wanted behind every position first. -/
theorem wanted_latest {values : List Value}
    (all : List.Forall₂ (Holds json maximum) (wanted limit bytes) values) (position : Nat) :
    ∃ first, Read json limit maximum bytes position first := by
  obtain ⟨earlier, same⟩ := shown_file bytes position
  rw [wanted_iff, same, List.reverse_append, ← latest, List.take_append, forall₂_append] at all
  obtain ⟨first, _, _, read, _⟩ := all
  exact ⟨first, read⟩

/-- The loop has come to an end: enough lines, or the start of the file. -/
theorem finish_ok {k : Nat} {values : List Value}
    (read : Read json limit maximum bytes (boundary bytes k) lines)
    (short : (carried bytes (boundary bytes k)).length ≤ maximum)
    (ended : ¬ (0 < boundary bytes k ∧ lines.length < limit)) :
    finish json limit label (.ok (boundary bytes k, carried bytes (boundary bytes k), lines))
        = .ok values ↔
      List.Forall₂ (Holds json maximum) (wanted limit bytes) values := by
  have count := read.length
  obtain ⟨earlier, same⟩ := shown_file bytes (boundary bytes k)
  rw [wanted_iff, same, List.reverse_append, ← latest, finish]
  by_cases room : lines.length < limit
  · have start : boundary bytes k = 0 := by omega
    have few : (latest bytes 0).length = lines.length := by
      rw [start] at count
      omega
    rw [start] at read short same ⊢
    have known : List.Forall₂ (Holds json maximum) (latest bytes 0) lines := by
      have all := read
      rwa [Read, List.take_of_length_le (by omega)] at all
    have front : earlier = shown [carried bytes 0] := by
      rw [file_lines, ← List.singleton_append, shown_append] at same
      exact (List.append_cancel_right same).symm
    rw [front]
    cases blank : isBlank (carried bytes 0) with
    | true =>
        have none : shown [carried bytes 0] = [] := by simp [shown, blank]
        rw [if_neg (by simp), none, List.reverse_nil, List.append_nil,
          List.take_of_length_le (by omega)]
        constructor
        · intro done
          rw [← Except.ok.inj done, List.reverse_reverse]
          exact known
        · intro all
          rw [List.right_unique_forall₂' holds_unique known all, List.reverse_reverse]
    | false =>
        have one : shown [carried bytes 0] = [carried bytes 0] := by simp [shown, blank]
        rw [if_pos ⟨rfl, room, rfl⟩, one, List.reverse_singleton, List.take_of_length_le (by simp; omega),
          forall₂_append]
        cases found : parsed json label (carried bytes 0) with
        | error error =>
            constructor
            · intro failed
              cases failed
            · rintro ⟨_, _, _, _, last⟩
              obtain ⟨value, _, holds, _, _⟩ := List.forall₂_cons_left_iff.1 last
              rw [(parsed_holds short).2 holds] at found
              cases found
        | ok value =>
            have holds := (parsed_holds short).1 found
            dsimp only
            constructor
            · intro done
              rw [← Except.ok.inj done, List.reverse_reverse]
              exact ⟨lines, [value], rfl, known, .cons holds .nil⟩
            · rintro ⟨first, second, whole, all, last⟩
              obtain ⟨other, rest, more, none, rfl⟩ := List.forall₂_cons_left_iff.1 last
              rw [List.forall₂_nil_left_iff.1 none, holds_unique more holds,
                List.right_unique_forall₂' holds_unique all known] at whole
              rw [← whole, List.reverse_reverse]
  · have many : limit ≤ (latest bytes (boundary bytes k)).length := by omega
    rw [if_neg (by omega), List.take_append_of_le_length many]
    constructor
    · intro done
      rw [← Except.ok.inj done, List.reverse_reverse]
      exact read
    · intro all
      rw [List.right_unique_forall₂' holds_unique read all, List.reverse_reverse]

/-- From a boundary on, the run ends well when what is wanted can be read and no chunk that
is still needed carries too much. -/
theorem settled_iff {k : Nat} {values : List Value}
    (read : Read json limit maximum bytes (boundary bytes k) lines)
    (short : (carried bytes (boundary bytes k)).length ≤ maximum) :
    finish json limit label (readChunks json limit maximum label bytes (boundary bytes k)
        (carried bytes (boundary bytes k)) lines) = .ok values ↔
      List.Forall₂ (Holds json maximum) (wanted limit bytes) values ∧
        ∀ j, k ≤ j → Needed limit bytes j →
          (carried bytes (boundary bytes (j + 1))).length ≤ maximum := by
  induction n : boundary bytes k using Nat.strong_induction_on generalizing k lines with
  | _ position ih =>
      subst n
      have count := read.length
      rw [readChunks]
      by_cases going : 0 < boundary bytes k ∧ lines.length < limit
      · have few : (latest bytes (boundary bytes k)).length < limit := by omega
        have needed : Needed limit bytes k := ⟨going.1, by rwa [latest, List.length_reverse] at few⟩
        have step (suffix : Bytes) (out : List Value) :=
          @readChunk_ok Value json limit maximum label bytes lines _ suffix out read going.2
        rw [if_pos going]
        cases found : readChunk json limit maximum label
            ((bytes.drop (before (boundary bytes k))).take
              (boundary bytes k - before (boundary bytes k)) ++ carried bytes (boundary bytes k))
            lines with
        | error error =>
            constructor
            · intro failed
              cases failed
            · rintro ⟨all, carries⟩
              obtain ⟨first, more⟩ := wanted_latest all (before (boundary bytes k))
              have small := carries k (Nat.le_refl k) needed
              rw [← before_boundary] at small
              rw [(step _ _).2 ⟨rfl, small, more⟩] at found
              cases found
        | ok next =>
            obtain ⟨suffix, out⟩ := next
            obtain ⟨rfl, small, more⟩ := (step _ _).1 found
            dsimp only
            rw [before_boundary] at small more ⊢
            rw [ih _ (boundary_lt bytes k going.1) more small rfl]
            refine and_congr_right fun _ => ⟨?_, ?_⟩
            · intro carries j later needs
              rcases Nat.eq_or_lt_of_le later with rfl | after
              · exact small
              · exact carries j after needs
            · intro carries j later needs
              exact carries j (Nat.le_of_succ_le later) needs
      · rw [if_neg going, finish_ok read short going]
        refine (and_iff_left ?_).symm
        intro j later needs
        have here := needs.earlier later
        rw [latest, List.length_reverse] at count
        exact absurd ⟨here.1, by have := here.2; omega⟩ going

/-- The last records of a file. -/
theorem recent_file_iff (positive : 0 < limit) {values : List Value} :
    recent json limit maximum label (.file bytes) = .ok values ↔
      List.Forall₂ (Holds json maximum) (wanted limit bytes) values ∧
        ∀ k, Needed limit bytes k → (carried bytes (boundary bytes (k + 1))).length ≤ maximum := by
  have last : boundary bytes 0 = bytes.length := rfl
  have none : carried bytes bytes.length = [] := by rw [carried, List.drop_length, List.takeWhile_nil]
  have read : Read json limit maximum bytes (boundary bytes 0) [] := by
    rw [Read, latest, behind, last, List.drop_length, List.splitOn_nil, List.tail_cons, shown,
      List.filter_nil, List.reverse_nil, List.take_nil]
    exact .nil
  have settled := @settled_iff Value json limit maximum label bytes [] 0 values read
    (by rw [last, none]; exact Nat.zero_le _)
  rw [last, none] at settled
  rw [recent, if_neg (by omega)]
  exact settled.trans (and_congr_right fun _ =>
    ⟨fun carries k => carries k (Nat.zero_le k), fun carries k _ => carries k⟩)

end Records

/-- The last lines that are not blank are what is read, in file order, exactly when one of
them is too long or no object, or when the text between the start of each chunk that is
needed and the end of its line is no longer than a line may be. -/
theorem recent_exact_iff {Value : Type} (json : Json Value) (limit maximum : Nat) (label : String)
    (bytes : Bytes) :
    (∀ values, recent json (limit + 1) maximum label (.file bytes) = .ok values ↔
        List.Forall₂ (Holds json maximum) (wanted (limit + 1) bytes) values) ↔
      (∃ line ∈ wanted (limit + 1) bytes, ∀ value, ¬ Holds json maximum line value) ∨
        ∀ k, Needed (limit + 1) bytes k →
          (carried bytes (boundary bytes (k + 1))).length ≤ maximum := by
  have positive := Nat.succ_pos limit
  constructor
  · intro exact_
    by_cases bad : ∃ line ∈ wanted (limit + 1) bytes, ∀ value, ¬ Holds json maximum line value
    · exact .inl bad
    · simp only [not_exists, not_and, not_forall, not_not] at bad
      obtain ⟨values, all⟩ := exists_values bad
      exact .inr ((recent_file_iff positive).1 ((exact_ values).2 all)).2
  · rintro (⟨line, inside, bad⟩ | carries) values
    · have none : ¬ List.Forall₂ (Holds json maximum) (wanted (limit + 1) bytes) values := by
        intro all
        obtain ⟨value, holds⟩ := holds_of_mem all inside
        exact bad value holds
      exact ⟨fun read => absurd ((recent_file_iff positive).1 read).1 none, fun all => absurd all none⟩
    · rw [recent_file_iff positive]
      exact and_iff_left carries

/-- A reader that knows the empty object. -/
def braces : Json Unit where
  fromSlice line := if line = [0x7b, 0x7d] then some () else none
  isObject _ := true

/-- An older line of three bytes before the line that is asked for. -/
def olderLine : Bytes := [0x61, 0x61, 0x61, 0x0a, 0x7b, 0x7d]

theorem olderLine_read :
    readChunk braces 1 2 "event" ((olderLine.drop (before 6)).take (6 - before 6) ++ []) []
      = .error (oversized "event") := by
  rfl

/-- The last line is an object of two bytes, and the older one fails the read. -/
theorem recent_older_line :
    recent braces 1 2 "event" (.file olderLine) = .error (oversized "event") ∧
      List.Forall₂ (Holds braces 2) (wanted 1 olderLine) [()] := by
  constructor
  · have length : olderLine.length = 6 := rfl
    rw [recent, if_neg (by decide), readChunks, if_pos (by decide)]
    simp only [length]
    rw [olderLine_read, finish]
  · have last : wanted 1 olderLine = [[0x7b, 0x7d]] := by decide
    rw [last]
    exact .cons ⟨by decide, rfl, rfl⟩ .nil

end Reb.Evidence.Recent
