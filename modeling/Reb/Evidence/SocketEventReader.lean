/-
# Evidence.SocketEventReader -- event records from a byte stream

`ReadBatch` fills its buffer until it holds a record, hands out the whole records it holds
and moves the rest to the front.  A call keeps the stream: what it returns, what it still
holds and what is left to read are what it held and what was there to read
(`readBatch_spec`).  So the batches are the stream cut into records, however `read` cuts it.
-/
import Reb.Theory.BlockStream
import Reb.Theory.LittleEndian

namespace Reb.Evidence

open Reb.Theory.BlockStream
open Reb.Theory.LittleEndian (length_write take_write window write)
open Reb.Theory.Sha2 (chunks)

set_option autoImplicit false

/-- `sizeof(reb::EventRecord)` -/
abbrev eventRecordSize : Nat := 320

abbrev kSocketEventBatchCapacity : Nat := 256

inductive TimedReadStatus where
  | kComplete
  | kEndOfFile
  | kExpired
  | kStopped
  | kError
  deriving DecidableEq, Repr

/-- What a turn of the loop meets: the stop flag, a result of `poll` or one of `read`.  A
ready `read` takes at most `count + 1` bytes, as many as are there and fit. -/
inductive ReadTurn where
  | stopRequested
  | pollExpired
  | pollInterrupted
  | pollFailed (reason : String)
  | readInterrupted
  | readFailed (reason : String)
  | ready (count : Nat)
  deriving DecidableEq, Repr

structure SocketEventReader where
  bytes : List UInt8 := List.replicate (eventRecordSize * kSocketEventBatchCapacity) 0
  bufferedBytes : Nat := 0

/-- A reader, what its peer still sends and the turns to come. -/
structure SocketConnection where
  reader : SocketEventReader := {}
  stream : List UInt8
  turns : List ReadTurn

/-- What `ReadBatch` returns: the records at the front of `output`, and `error` where it sets
one. -/
structure BatchRead where
  status : TimedReadStatus
  events : List (List UInt8) := []
  error : Option String := none
  after : SocketConnection

namespace SocketEventReader

/-- `read` into the free end of the buffer. -/
def fill (reader : SocketEventReader) (chunk : List UInt8) : SocketEventReader where
  bytes := write reader.bytes reader.bufferedBytes chunk
  bufferedBytes := reader.bufferedBytes + chunk.length

def eventCount (outputSize : Nat) (reader : SocketEventReader) : Nat :=
  min outputSize (reader.bufferedBytes / eventRecordSize)

/-- The records copied out. -/
def copied (outputSize : Nat) (reader : SocketEventReader) : List (List UInt8) :=
  chunks eventRecordSize (reader.bytes.take (reader.eventCount outputSize * eventRecordSize))

/-- The buffer behind them moved to the front. -/
def compacted (outputSize : Nat) (reader : SocketEventReader) : SocketEventReader :=
  let consumedBytes := reader.eventCount outputSize * eventRecordSize
  let bufferedBytes := reader.bufferedBytes - consumedBytes
  { bytes := if bufferedBytes != 0 then
        write reader.bytes 0 (window reader.bytes consumedBytes bufferedBytes)
      else reader.bytes
    bufferedBytes }

/-- `ReadBatch`; `none` while it waits for a turn. -/
def readBatch (outputSize : Nat) (turns : List ReadTurn) (reader : SocketEventReader)
    (stream : List UInt8) : Option BatchRead :=
  if reader.bufferedBytes < eventRecordSize then
    match turns with
    | [] => none
    | .stopRequested :: turns => some { status := .kStopped, after := { reader, stream, turns } }
    | .pollExpired :: turns => some { status := .kExpired, after := { reader, stream, turns } }
    | .pollInterrupted :: turns => readBatch outputSize turns reader stream
    | .pollFailed reason :: turns =>
        some { status := .kError, error := some ("socket poll failed: " ++ reason)
               after := { reader, stream, turns } }
    | .readInterrupted :: turns => readBatch outputSize turns reader stream
    | .readFailed reason :: turns =>
        some { status := .kError, error := some ("socket read failed: " ++ reason)
               after := { reader, stream, turns } }
    | .ready count :: turns =>
        let chunk := stream.take (min (count + 1) (reader.bytes.length - reader.bufferedBytes))
        if chunk.length > 0 then
          readBatch outputSize turns (reader.fill chunk) (stream.drop chunk.length)
        else if reader.bufferedBytes == 0 then
          some { status := .kEndOfFile, after := { reader, stream, turns } }
        else some { status := .kError, error := some "unexpected end of stream"
                    after := { reader, stream, turns } }
  else some { status := .kComplete, events := reader.copied outputSize
              after := { reader := reader.compacted outputSize, stream, turns } }

end SocketEventReader

/-- The batches of complete calls and the call that ended them. -/
structure SocketRun where
  batches : List (List (List UInt8)) := []
  last : BatchRead

/-- The calls of `IngestSocket`, each with the size of its `output`, up to one that is not
complete. -/
def readAll : List Nat → SocketConnection → Option SocketRun
  | [], _ => none
  | outputSize :: sizes, connection =>
      (SocketEventReader.readBatch outputSize connection.turns connection.reader
        connection.stream).bind fun result =>
          if result.status = .kComplete then
            (readAll sizes result.after).map fun run =>
              { run with batches := result.events :: run.batches }
          else some { last := result }

/-- The peer closed the stream. -/
def BatchRead.endsStream (result : BatchRead) : Prop :=
  result.status = .kEndOfFile ∨ result.error = some "unexpected end of stream"

/-- A turn that neither stops a call nor fails it. -/
def ReadTurn.isCalm : ReadTurn → Bool
  | .pollInterrupted | .readInterrupted | .ready _ => true
  | _ => false

def ReadTurn.isReady : ReadTurn → Bool
  | .ready _ => true
  | _ => false

namespace SocketEventReader

/-! ## The buffer -/

/-- The bytes read and not yet handed out. -/
def held (reader : SocketEventReader) : List UInt8 := reader.bytes.take reader.bufferedBytes

structure Sound (reader : SocketEventReader) : Prop where
  length : reader.bytes.length = eventRecordSize * kSocketEventBatchCapacity
  within : reader.bufferedBytes ≤ reader.bytes.length

variable {reader : SocketEventReader} {outputSize : Nat}

theorem sound_empty : Sound {} := ⟨List.length_replicate, Nat.zero_le _⟩

theorem Sound.length_held (sound : Sound reader) : reader.held.length = reader.bufferedBytes :=
  List.length_take_of_le sound.within

theorem fill_sound {chunk : List UInt8} (sound : Sound reader)
    (fits : reader.bufferedBytes + chunk.length ≤ reader.bytes.length) :
    Sound (reader.fill chunk) :=
  ⟨(length_write _ _ _).trans sound.length, fits.trans_eq (length_write _ _ _).symm⟩

theorem held_fill {chunk : List UInt8}
    (fits : reader.bufferedBytes + chunk.length ≤ reader.bytes.length) :
    (reader.fill chunk).held = reader.held ++ chunk :=
  take_write _ _ _ fits

theorem consumed_le : reader.eventCount outputSize * eventRecordSize ≤ reader.bufferedBytes :=
  (Nat.mul_le_mul_right _ (Nat.min_le_right _ _)).trans (Nat.div_mul_le_self _ _)

theorem compacted_sound (sound : Sound reader) : Sound (reader.compacted outputSize) := by
  have within := sound.within
  have length : (reader.compacted outputSize).bytes.length = reader.bytes.length := by
    rw [compacted]
    dsimp only
    split
    · rw [length_write]
    · rfl
  refine ⟨length.trans sound.length, ?_⟩
  rw [length]
  exact (Nat.sub_le _ _).trans within

theorem held_compacted (sound : Sound reader) : (reader.compacted outputSize).held
    = reader.held.drop (reader.eventCount outputSize * eventRecordSize) := by
  have below := @consumed_le reader outputSize
  have within := sound.within
  rw [held, held, compacted, List.drop_take]
  dsimp only
  generalize reader.eventCount outputSize * eventRecordSize = consumed at *
  by_cases none : reader.bufferedBytes - consumed = 0
  · rw [none, List.take_zero, List.take_zero]
  · have size : (window reader.bytes consumed (reader.bufferedBytes - consumed)).length
        = reader.bufferedBytes - consumed := by
      rw [window, List.length_take, List.length_drop]
      omega
    have moved := take_write (window reader.bytes consumed (reader.bufferedBytes - consumed))
      reader.bytes 0 (by rw [size]; omega)
    rw [size, Nat.zero_add, List.take_zero, List.nil_append] at moved
    rw [if_pos (bne_iff_ne.2 none), moved, window]

theorem length_copied {record : List UInt8} (inside : record ∈ reader.copied outputSize) :
    record.length = eventRecordSize :=
  length_chunk inside

/-- The records copied out are the front of what was held. -/
theorem copied_held (sound : Sound reader) :
    (reader.copied outputSize).flatten ++ (reader.compacted outputSize).held = reader.held := by
  have below := @consumed_le reader outputSize
  have within := sound.within
  have front : reader.bytes.take (reader.eventCount outputSize * eventRecordSize)
      = reader.held.take (reader.eventCount outputSize * eventRecordSize) := by
    rw [held, List.take_take, Nat.min_eq_left below]
  have none : rest eventRecordSize
      (reader.bytes.take (reader.eventCount outputSize * eventRecordSize)) = [] := by
    apply List.eq_nil_of_length_eq_zero
    rw [length_rest, List.length_take_of_le (below.trans within), Nat.mul_mod_left]
  have whole := @flatten_chunks _ eventRecordSize (by decide)
    (reader.bytes.take (reader.eventCount outputSize * eventRecordSize))
  rw [none, List.append_nil] at whole
  rw [copied, whole, front, held_compacted sound, List.take_append_drop]

/-! ## One call -/

/-- What a call does to the bytes: nothing is lost, and a stream ends only when nothing but
part of a record is held. -/
structure Keeps (reader : SocketEventReader) (stream : List UInt8) (result : BatchRead) : Prop where
  sound : Sound result.after.reader
  records : ∀ record ∈ result.events, record.length = eventRecordSize
  bytes : result.events.flatten ++ (result.after.reader.held ++ result.after.stream)
    = reader.held ++ stream
  ended : result.endsStream → result.events = [] ∧ result.after.stream = []
    ∧ result.after.reader.bufferedBytes < eventRecordSize
    ∧ (result.status = .kEndOfFile ↔ result.after.reader.bufferedBytes = 0)

/-- The text of another failure. -/
theorem failure_ne (kind : Char) (text reason : String) (other : kind ≠ 'u') :
    kind.toString ++ text ++ reason ≠ "unexpected end of stream" := by
  intro same
  have letters := congrArg String.toList same
  rw [String.toList_append, String.toList_append] at letters
  have first := congrArg List.head? letters
  simp at first
  exact other first

/-- A call that ends before the stream does and hands nothing out. -/
theorem keeps_stopped (sound : Sound reader) {stream : List UInt8} {turns : List ReadTurn}
    {status : TimedReadStatus} {error : Option String} (going : status ≠ .kEndOfFile)
    (other : error ≠ some "unexpected end of stream") :
    Keeps reader stream { status, error, after := { reader, stream, turns } } where
  sound := sound
  records := by simp
  bytes := rfl
  ended ends := absurd ends (not_or.2 ⟨going, other⟩)

/-- A complete call hands out whole records and holds the rest. -/
theorem keeps_complete (sound : Sound reader) {stream : List UInt8} {turns : List ReadTurn} :
    Keeps reader stream { status := .kComplete, events := reader.copied outputSize
                          after := { reader := reader.compacted outputSize, stream, turns } } where
  sound := compacted_sound sound
  records _ := length_copied
  bytes := by rw [← List.append_assoc, copied_held sound]
  ended ends := by
    rcases ends with impossible | impossible
    · cases impossible
    · cases impossible

/-- A call with a record in the buffer takes no turn. -/
theorem readBatch_full (full : ¬ reader.bufferedBytes < eventRecordSize) (turns : List ReadTurn)
    (stream : List UInt8) : readBatch outputSize turns reader stream
      = some { status := .kComplete, events := reader.copied outputSize
               after := { reader := reader.compacted outputSize, stream, turns } } := by
  rw [readBatch.eq_def, if_neg full]

/-- A read that gets something fits behind what is held. -/
theorem chunk_fits (sound : Sound reader) (stream : List UInt8) (count : Nat) :
    reader.bufferedBytes
      + (stream.take (min (count + 1) (reader.bytes.length - reader.bufferedBytes))).length
        ≤ reader.bytes.length := by
  have within := sound.within
  rw [List.length_take]
  omega

/-- A read gets nothing only where nothing is left. -/
theorem chunk_nil (sound : Sound reader) (short : reader.bufferedBytes < eventRecordSize)
    {stream : List UInt8} {count : Nat}
    (none : ¬ (stream.take (min (count + 1)
      (reader.bytes.length - reader.bufferedBytes))).length > 0) : stream = [] := by
  have length : reader.bytes.length = 81920 := sound.length
  have short : reader.bufferedBytes < 320 := short
  apply List.eq_nil_of_length_eq_zero
  rw [List.length_take] at none
  omega

theorem readBatch_keeps (turns : List ReadTurn) (sound : Sound reader) {stream : List UInt8}
    {result : BatchRead} (reads : readBatch outputSize turns reader stream = some result) :
    Keeps reader stream result := by
  induction turns generalizing reader stream with
  | nil =>
      by_cases short : reader.bufferedBytes < eventRecordSize
      · rw [readBatch.eq_def, if_pos short] at reads
        cases reads
      · rw [readBatch_full short] at reads
        cases reads
        exact keeps_complete sound
  | cons turn turns ih =>
      by_cases short : reader.bufferedBytes < eventRecordSize
      · rw [readBatch.eq_def, if_pos short] at reads
        cases turn with
        | stopRequested =>
            cases reads
            exact keeps_stopped sound (by decide) (by decide)
        | pollExpired =>
            cases reads
            exact keeps_stopped sound (by decide) (by decide)
        | pollInterrupted => exact ih sound reads
        | pollFailed reason =>
            cases reads
            exact keeps_stopped sound (by decide)
              fun same => failure_ne 's' "ocket poll failed: " reason (by decide) (Option.some.inj same)
        | readInterrupted => exact ih sound reads
        | readFailed reason =>
            cases reads
            exact keeps_stopped sound (by decide)
              fun same => failure_ne 's' "ocket read failed: " reason (by decide) (Option.some.inj same)
        | ready count =>
            dsimp only at reads
            have fits := chunk_fits sound stream count
            have nothing := @chunk_nil _ sound short stream count
            have taken := List.prefix_iff_eq_append.1 (List.take_prefix
              (min (count + 1) (reader.bytes.length - reader.bufferedBytes)) stream)
            split at reads
            · have later := ih (fill_sound sound fits) reads
              refine ⟨later.sound, later.records, ?_, later.ended⟩
              rw [later.bytes, held_fill fits, List.append_assoc, taken]
            · next none =>
              split at reads
              · next empty =>
                cases reads
                exact ⟨sound, by simp, rfl, fun _ => ⟨rfl, nothing none, short,
                  iff_of_true rfl (by simpa using empty)⟩⟩
              · next some =>
                cases reads
                exact ⟨sound, by simp, rfl, fun _ => ⟨rfl, nothing none, short,
                  iff_of_false TimedReadStatus.noConfusion (by simpa using some)⟩⟩
      · rw [readBatch_full short] at reads
        cases reads
        exact keeps_complete sound

/-! ## A run -/

/-- The complete calls of a run hand out whole records, and the last one goes on from where
they left off. -/
theorem readAll_keeps (sizes : List Nat) {connection : SocketConnection}
    (sound : Sound connection.reader) {run : SocketRun} (reads : readAll sizes connection = some run) :
    (∀ record ∈ run.batches.flatten, record.length = eventRecordSize)
      ∧ ∃ reader stream, Keeps reader stream run.last
        ∧ run.batches.flatten.flatten ++ (reader.held ++ stream)
          = connection.reader.held ++ connection.stream := by
  induction sizes generalizing connection run with
  | nil => cases reads
  | cons outputSize sizes ih =>
      obtain ⟨result, first, rest⟩ := Option.bind_eq_some_iff.1 reads
      have keeps := readBatch_keeps _ sound first
      by_cases complete : result.status = .kComplete
      · rw [if_pos complete] at rest
        obtain ⟨later, runs, rfl⟩ := Option.map_eq_some_iff.1 rest
        obtain ⟨records, reader, stream, last, bytes⟩ := ih keeps.sound runs
        refine ⟨?_, reader, stream, last, ?_⟩
        · intro record inside
          rw [List.flatten_cons, List.mem_append] at inside
          exact inside.elim (keeps.records record) (records record)
        · rw [List.flatten_cons, List.flatten_append, List.append_assoc, bytes, keeps.bytes]
      · rw [if_neg complete] at rest
        cases rest
        exact ⟨by simp, connection.reader, connection.stream, keeps, rfl⟩

/-! ## Termination -/

/-- Turns that only delay the reader, and enough of them to read everything and see the end. -/
structure Fair (turns : List ReadTurn) (stream : List UInt8) : Prop where
  calm : ∀ turn ∈ turns, turn.isCalm = true
  enough : stream.length < turns.countP ReadTurn.isReady

theorem Fair.of_delayed {turn : ReadTurn} {turns : List ReadTurn} {stream : List UInt8}
    (fair : Fair (turn :: turns) stream) (delays : ¬ turn.isReady = true) : Fair turns stream where
  calm later inside := fair.calm later (.tail _ inside)
  enough := by
    have enough := fair.enough
    rwa [List.countP_cons_of_neg delays] at enough

theorem copied_ne (positive : 0 < outputSize) (full : ¬ reader.bufferedBytes < eventRecordSize)
    (sound : Sound reader) : reader.copied outputSize ≠ [] := by
  intro none
  have below := (@consumed_le reader outputSize).trans sound.within
  have count : 1 ≤ reader.eventCount outputSize :=
    le_min positive ((Nat.le_div_iff_mul_le (by decide)).2 (by rw [Nat.one_mul]; exact Nat.not_lt.1 full))
  have length := congrArg List.length none
  rw [copied, chunks, List.length_map, List.length_range, List.length_take_of_le below,
    Nat.mul_div_cancel _ (by decide)] at length
  rw [length] at count
  cases count

/-- A call over fair turns returns a record or sees the end. -/
theorem readBatch_fair (turns : List ReadTurn) (sound : Sound reader) {stream : List UInt8}
    (fair : Fair turns stream) :
    ∃ result, readBatch outputSize turns reader stream = some result
      ∧ (result.endsStream ∧ result.status ≠ .kComplete
        ∨ result.status = .kComplete ∧ Fair result.after.turns result.after.stream
          ∧ (0 < outputSize → result.events ≠ [])) := by
  induction turns generalizing reader stream with
  | nil => exact absurd fair.enough (Nat.not_lt_zero _)
  | cons turn turns ih =>
      by_cases short : reader.bufferedBytes < eventRecordSize
      · have calm := fair.calm turn (.head _)
        rw [readBatch.eq_def, if_pos short]
        cases turn with
        | pollInterrupted => exact ih sound (fair.of_delayed (by decide))
        | readInterrupted => exact ih sound (fair.of_delayed (by decide))
        | ready count =>
            have fits := chunk_fits sound stream count
            have part := List.length_take_le'
              (min (count + 1) (reader.bytes.length - reader.bufferedBytes)) stream
            have enough := fair.enough
            rw [List.countP_cons_of_pos rfl] at enough
            dsimp only
            split
            · exact ih (fill_sound sound fits)
                ⟨fun later inside => fair.calm later (.tail _ inside), by
                  rw [List.length_drop]
                  omega⟩
            · split
              · exact ⟨_, rfl, .inl ⟨.inl rfl, TimedReadStatus.noConfusion⟩⟩
              · exact ⟨_, rfl, .inl ⟨.inr rfl, TimedReadStatus.noConfusion⟩⟩
        | stopRequested => cases calm
        | pollExpired => cases calm
        | pollFailed reason => cases calm
        | readFailed reason => cases calm
      · exact ⟨_, readBatch_full short _ _, .inr ⟨rfl, fair, fun positive =>
          copied_ne positive short sound⟩⟩

/-- Over fair turns enough calls reach the end of the stream. -/
theorem readAll_fair (sizes : List Nat) {connection : SocketConnection}
    (sound : Sound connection.reader) (fair : Fair connection.turns connection.stream)
    (positive : ∀ size ∈ sizes, 0 < size)
    (enough : (connection.reader.held ++ connection.stream).length < eventRecordSize * sizes.length) :
    ∃ run, readAll sizes connection = some run ∧ run.last.endsStream := by
  induction sizes generalizing connection with
  | nil => exact absurd enough (Nat.not_lt_zero _)
  | cons outputSize sizes ih =>
      obtain ⟨some, others⟩ := List.forall_mem_cons.1 positive
      obtain ⟨result, reads, ended | goes⟩ := @readBatch_fair _ outputSize
        connection.turns sound _ fair
      · refine ⟨{ last := result }, ?_, ended.1⟩
        rw [readAll, reads, Option.bind_some, if_neg ended.2]
      · obtain ⟨complete, later, hands⟩ := goes
        have keeps := readBatch_keeps _ sound reads
        have less : (result.after.reader.held ++ result.after.stream).length + eventRecordSize
            ≤ (connection.reader.held ++ connection.stream).length := by
          obtain ⟨record, records, events⟩ := List.exists_cons_of_ne_nil (hands some)
          have length := keeps.records record (by rw [events]; exact .head _)
          rw [← keeps.bytes, events, List.flatten_cons]
          simp only [List.length_append, length]
          omega
        obtain ⟨run, runs, ends⟩ := ih keeps.sound later others (by
          rw [List.length_cons, Nat.mul_succ] at enough
          omega)
        refine ⟨{ run with batches := result.events :: run.batches }, ?_, ends⟩
        rw [readAll, reads, Option.bind_some, if_pos complete, runs, Option.map_some]

/-- Framing does not depend on how the stream is cut: what the complete calls return are the
first records of the stream; at its end they are all of them, and the end is clean exactly
behind a whole record.  Over turns that only delay the reader the end is reached. -/
theorem framing_exact (stream : List UInt8) (turns : List ReadTurn) :
    (∀ sizes run, readAll sizes { stream, turns } = some run →
      run.batches.flatten <+: chunks eventRecordSize stream
        ∧ (run.last.endsStream →
          run.batches.flatten = chunks eventRecordSize stream
            ∧ (run.last.status = .kEndOfFile ↔ eventRecordSize ∣ stream.length)))
    ∧ (Fair turns stream → ∀ sizes, (∀ size ∈ sizes, 0 < size) →
        stream.length < eventRecordSize * sizes.length →
          ∃ run, readAll sizes { stream, turns } = some run ∧ run.last.endsStream) := by
  constructor
  · intro sizes run reads
    obtain ⟨records, reader, left, last, bytes⟩ := readAll_keeps sizes sound_empty reads
    have bytes : run.batches.flatten.flatten ++ (reader.held ++ left) = stream := bytes
    have cut := chunks_flatten_append (by decide) records (reader.held ++ left)
    rw [bytes] at cut
    refine ⟨⟨_, cut.symm⟩, fun ends => ?_⟩
    obtain ⟨events, drained, short, clean⟩ := last.ended ends
    have tail : (reader.held ++ left).length = run.last.after.reader.bufferedBytes := by
      rw [← last.bytes, events, drained, List.append_nil, List.flatten_nil, List.nil_append,
        last.sound.length_held]
    have length : stream.length
        = eventRecordSize * run.batches.flatten.length + run.last.after.reader.bufferedBytes := by
      rw [← bytes, List.length_append, tail, List.length_flatten,
        List.map_congr_left records, List.map_const', List.sum_replicate, smul_eq_mul, Nat.mul_comm]
    have none : chunks eventRecordSize (reader.held ++ left) = [] := chunks_of_lt (by rwa [tail])
    rw [none, List.append_nil] at cut
    refine ⟨cut.symm, clean.trans ?_⟩
    rw [length, Nat.dvd_add_right (Nat.dvd_mul_right _ _)]
    constructor
    · intro none
      rw [none]
      exact Nat.dvd_zero _
    · exact fun whole => Nat.eq_zero_of_dvd_of_lt whole short
  · intro fair sizes positive enough
    exact readAll_fair sizes sound_empty fair positive enough

/-- A byte behind the last whole record: the record comes out and the end is not clean. -/
theorem framing_exact_truncated :
    ∃ run, readAll [256, 256]
        { stream := List.replicate 321 7, turns := List.replicate 322 (.ready 199) } = some run
      ∧ run.batches.flatten = chunks eventRecordSize (List.replicate 321 7)
      ∧ run.last.status ≠ .kEndOfFile := by
  have fair : Fair (List.replicate 322 (.ready 199)) (List.replicate 321 7) :=
    ⟨fun turn inside => by rw [List.eq_of_mem_replicate inside]; rfl, by
      rw [List.length_replicate, List.countP_replicate]; decide⟩
  obtain ⟨run, reads, ends⟩ := (framing_exact _ _).2 fair [256, 256] (by decide) (by
    rw [List.length_replicate]; decide)
  obtain ⟨records, clean⟩ := ((framing_exact _ _).1 _ run reads).2 ends
  refine ⟨run, reads, records, fun ended => ?_⟩
  have divides := clean.1 ended
  rw [List.length_replicate] at divides
  exact absurd divides (by decide)

end SocketEventReader

end Reb.Evidence
