/-
# Analysis.GrpcWebExact -- the frames of a gRPC-web body

`FrameSpelling` is a frame as the wire format writes it.  The inspection succeeds exactly on the
sequences of well-formed frames within its limits (`inspectGrpcWeb_iff`), and the text form is
the body whose pieces have been encoded one by one (`inspectGrpcWebText_pieces`).
-/
import Reb.Analysis.WireInspect
import Reb.Analysis.WireInspectExact

namespace Reb.Analysis.WireInspect

set_option autoImplicit false

/-! ## The wire format -/

def isPrintable (byte : UInt8) : Bool := !(byte < 0x20 || 0x7e < byte)

namespace Trailer

def line (trailer : Trailer) : List UInt8 := trailer.name ++ colon :: trailer.value

def bytes (trailer : Trailer) : List UInt8 := trailer.line ++ [carriageReturn, lineFeed]

structure WellFormed (trailer : Trailer) : Prop where
  name_some : trailer.name ≠ []
  name_bytes : trailer.name.all isNameByte = true
  value_bytes : trailer.value.all isPrintable = true

end Trailer

inductive FrameBody where
  | message (fields : List FieldSpelling)
  | trailers (entries : List Trailer)

namespace FrameBody

def flag : FrameBody → UInt8
  | message _ => 0
  | trailers _ => 0x80

def isTrailers : FrameBody → Bool
  | message _ => false
  | trailers _ => true

def payload : FrameBody → List UInt8
  | message fields => wireBytes fields
  | trailers entries => entries.flatMap Trailer.bytes

def fieldCount : FrameBody → Nat
  | message fields => fields.length
  | trailers _ => 0

def text : FrameBody → List UInt8
  | message fields => ascii "\"kind\":\"message\",\"protobuf\":" ++ protobufReport (located 0 fields)
  | trailers entries =>
      ascii "\"kind\":\"trailers\",\"headers\":[" ++ listed Trailer.text true entries ++ ascii "]"

def WellFormed : FrameBody → Prop
  | message fields => ∀ spelling ∈ fields, spelling.WellFormed
  | trailers entries =>
      (∀ trailer ∈ entries, trailer.WellFormed) ∧ entries.length ≤ 128
        ∧ (entries.flatMap Trailer.bytes).length ≤ 16384

end FrameBody

/-- The number of the header, the first byte the most significant. -/
def lengthNumber (bytes : List UInt8) : Nat := Nat.ofDigits 256 (bytes.reverse.map UInt8.toNat)

structure FrameSpelling where
  lengthBytes : List UInt8
  body : FrameBody

namespace FrameSpelling

def bytes (spelling : FrameSpelling) : List UInt8 :=
  spelling.body.flag :: (spelling.lengthBytes ++ spelling.body.payload)

structure WellFormed (spelling : FrameSpelling) : Prop where
  four : spelling.lengthBytes.length = 4
  length_eq : lengthNumber spelling.lengthBytes = spelling.body.payload.length
  body : spelling.body.WellFormed

def frame (offset : Nat) (spelling : FrameSpelling) : WireFrame where
  offset
  length := spelling.body.payload.length
  stop := offset + spelling.bytes.length
  body := spelling.body.text

end FrameSpelling

def frameBytes (spellings : List FrameSpelling) : List UInt8 := spellings.flatMap FrameSpelling.bytes

/-- The frames one after the other. -/
def framed (offset : Nat) (spellings : List FrameSpelling) : List WireFrame :=
  (Theory.Segments.placed FrameSpelling.bytes offset spellings).map fun p => p.2.frame p.1

@[simp] theorem framed_nil (offset : Nat) : framed offset [] = [] := rfl

@[simp] theorem framed_cons (offset : Nat) (spelling : FrameSpelling) (rest : List FrameSpelling) :
    framed offset (spelling :: rest)
      = spelling.frame offset :: framed (offset + spelling.bytes.length) rest := rfl

/-- The report but for its tail. -/
def framesReport (frames : List WireFrame) : List UInt8 :=
  grpcWebHeader ++ listed WireFrame.text true frames

/-! ## Trailers -/

theorem isTrailerByte_eq (byte : UInt8) :
    isTrailerByte byte = (byte == carriageReturn || byte == lineFeed || isPrintable byte) := rfl

theorem isPrintable_iff (byte : UInt8) :
    isPrintable byte = true
      ↔ isTrailerByte byte = true ∧ byte ≠ carriageReturn ∧ byte ≠ lineFeed := by
  rw [isTrailerByte_eq]
  constructor
  · intro printable
    refine ⟨by simp [printable], ?_, ?_⟩
    · rintro rfl
      exact absurd printable (by decide)
    · rintro rfl
      exact absurd printable (by decide)
  · rintro ⟨bytes, noReturn, noFeed⟩
    simpa [noReturn, noFeed] using bytes

theorem isNameByte_sound {byte : UInt8} (name : isNameByte byte = true) :
    isPrintable byte = true ∧ byte ≠ colon := by
  constructor
  · simp only [isNameByte, isPrintable, Bool.or_eq_true, Bool.and_eq_true, decide_eq_true_eq,
      beq_iff_eq, Bool.not_eq_true', Bool.or_eq_false_iff, decide_eq_false_iff_not,
      UInt8.le_iff_toNat_le, UInt8.lt_iff_toNat_lt, ← UInt8.toNat_inj] at name ⊢
    simp only [UInt8.reduceToNat] at name ⊢
    omega
  · rintro rfl
    exact absurd name (by decide)

theorem readTrailer_iff (line : List UInt8) (trailer : Trailer) :
    readTrailer line = .ok trailer
      ↔ line = trailer.line ∧ trailer.name ≠ [] ∧ trailer.name.all isNameByte = true
          ∧ carriageReturn ∉ trailer.value ∧ lineFeed ∉ trailer.value := by
  constructor
  · intro same
    rw [readTrailer] at same
    split at same
    · cases same
    next separated =>
    split at same
    · cases same
    next named =>
    split at same
    · cases same
    next valued =>
    cases same
    rw [not_or, not_not] at separated
    rw [not_or] at valued
    exact ⟨(Theory.Segments.cut_eq separated.1).symm, separated.2, (Bool.not_eq_false _).mp named,
      valued.1, valued.2⟩
  · rintro ⟨rfl, some, named, noReturn, noFeed⟩
    have absent : colon ∉ trailer.name := by
      intro inside
      exact (isNameByte_sound (List.all_eq_true.1 named _ inside)).2 rfl
    obtain ⟨front, back⟩ := Theory.Segments.cut_append absent trailer.value
    rw [readTrailer, Trailer.line, front, back, if_neg, if_neg, if_neg]
    · simp [noReturn, noFeed]
    · simp [named]
    · simp [some]

/-- A line has no end of line in it. -/
theorem Trailer.return_notMem {trailer : Trailer} (named : trailer.name.all isNameByte = true)
    (noReturn : carriageReturn ∉ trailer.value) : carriageReturn ∉ trailer.line := by
  rw [Trailer.line, List.mem_append, List.mem_cons]
  rintro (inside | same | inside)
  · exact absurd (isNameByte_sound (List.all_eq_true.1 named _ inside)).1 (by decide)
  · exact absurd same (by decide)
  · exact noReturn inside

theorem Trailer.bytes_ne_nil (trailer : Trailer) : trailer.bytes ≠ [] := by
  simp [Trailer.bytes]

theorem readTrailers_nil_iff {fuel headers : Nat} (before : headers ≤ 128) (trailers : List Trailer) :
    readTrailers fuel headers [] = .ok trailers
      ↔ (∀ trailer ∈ trailers, trailer.WellFormed) ∧ [] = trailers.flatMap Trailer.bytes
          ∧ headers + trailers.length ≤ 128 := by
  rw [readTrailers]
  constructor
  · intro same
    cases same
    exact ⟨by simp, rfl, before⟩
  · rintro ⟨-, none, -⟩
    cases trailers with
    | nil => rfl
    | cons trailer rest =>
        rw [List.flatMap_cons, eq_comm, List.append_eq_nil_iff] at none
        exact absurd none.1 trailer.bytes_ne_nil

theorem Trailer.value_absent {trailer : Trailer} (formed : trailer.WellFormed) :
    carriageReturn ∉ trailer.value ∧ lineFeed ∉ trailer.value := by
  constructor
  · intro inside
    exact ((isPrintable_iff _).1 (List.all_eq_true.1 formed.value_bytes _ inside)).2.1 rfl
  · intro inside
    exact ((isPrintable_iff _).1 (List.all_eq_true.1 formed.value_bytes _ inside)).2.2 rfl

theorem readTrailers_iff {fuel headers : Nat} {text : List UInt8} (enough : text.length ≤ fuel)
    (before : headers ≤ 128) (bytes : text.all isTrailerByte = true) (trailers : List Trailer) :
    readTrailers fuel headers text = .ok trailers
      ↔ (∀ trailer ∈ trailers, trailer.WellFormed) ∧ text = trailers.flatMap Trailer.bytes
          ∧ headers + trailers.length ≤ 128 := by
  induction fuel generalizing headers text trailers with
  | zero =>
      have none : text = [] := List.length_eq_zero_iff.1 (Nat.le_zero.1 enough)
      subst none
      exact readTrailers_nil_iff before trailers
  | succ fuel ih =>
      cases text with
      | nil => exact readTrailers_nil_iff before trailers
      | cons byte more =>
          constructor
          · intro same
            rw [readTrailers] at same
            split at same
            · cases same
            next line rest found =>
            split at same
            · cases same
            next room =>
            split at same
            · cases same
            next trailer read =>
            split at same
            · cases same
            next others behind =>
            cases same
            obtain ⟨⟨mark, split, ends⟩, -⟩ := List.dropInfix?_eq_some_iff.1 found
            rw [eq_of_beq ends] at split
            obtain ⟨rfl, some, named, noReturn, noFeed⟩ := (readTrailer_iff line trailer).1 read
            have size := congrArg List.length split
            simp only [List.length_append, List.length_cons] at size enough
            rw [split, List.all_append, List.all_append, Bool.and_eq_true, Bool.and_eq_true] at bytes
            obtain ⟨formed, rfl, count⟩ := (ih (by omega) (by omega) bytes.2 others).1 behind
            refine ⟨List.forall_mem_cons.2 ⟨⟨some, named, ?_⟩, formed⟩, split, ?_⟩
            · rw [List.all_eq_true]
              intro printed inside
              refine (isPrintable_iff printed).2 ⟨List.all_eq_true.1 bytes.1.1 printed ?_, ?_, ?_⟩
              · rw [Trailer.line]
                exact List.mem_append_right _ (List.mem_cons_of_mem _ inside)
              · rintro rfl
                exact noReturn inside
              · rintro rfl
                exact noFeed inside
            · rw [List.length_cons]
              omega
          · rintro ⟨formed, split, count⟩
            cases trailers with
            | nil => cases split
            | cons trailer others =>
                rw [List.forall_mem_cons] at formed
                obtain ⟨first, others_formed⟩ := formed
                obtain ⟨noReturn, noFeed⟩ := Trailer.value_absent first
                rw [List.length_cons] at count
                have found : List.dropInfix? (byte :: more) [carriageReturn, lineFeed]
                    = some (trailer.line, others.flatMap Trailer.bytes) := by
                  rw [split, List.flatMap_cons, Trailer.bytes, List.append_assoc]
                  exact Theory.Decimal.dropInfix?_of_notMem
                    (Trailer.return_notMem first.name_bytes noReturn)
                have size := congrArg List.length split
                rw [List.flatMap_cons, List.length_append] at size
                have some := List.length_pos_iff.2 trailer.bytes_ne_nil
                rw [split, List.flatMap_cons, List.all_append, Bool.and_eq_true] at bytes
                have counted : headers + 1 + others.length ≤ 128 := by omega
                have behind := (ih (by omega) (by omega) bytes.2 others).2
                  ⟨others_formed, rfl, counted⟩
                have read := (readTrailer_iff trailer.line trailer).2
                  ⟨rfl, first.name_some, first.name_bytes, noReturn, noFeed⟩
                rw [readTrailers, found]
                dsimp only
                rw [if_neg (by omega), read]
                dsimp only
                rw [behind]

theorem trailers_bytes {entries : List Trailer} (formed : ∀ trailer ∈ entries, trailer.WellFormed) :
    (entries.flatMap Trailer.bytes).all isTrailerByte = true := by
  rw [List.all_flatMap, List.all_eq_true]
  intro trailer inside
  have first := formed trailer inside
  rw [Trailer.bytes, Trailer.line, List.all_append, List.all_append, List.all_cons]
  have name : trailer.name.all isTrailerByte = true := by
    rw [List.all_eq_true]
    intro byte named
    have printable := (isNameByte_sound (List.all_eq_true.1 first.name_bytes byte named)).1
    exact ((isPrintable_iff byte).1 printable).1
  have value : trailer.value.all isTrailerByte = true := by
    rw [List.all_eq_true]
    intro byte valued
    exact ((isPrintable_iff byte).1 (List.all_eq_true.1 first.value_bytes byte valued)).1
  rw [name, value]
  decide

theorem inspectTrailers_iff (payload text : List UInt8) :
    inspectTrailers payload = .ok text
      ↔ ∃ entries, (FrameBody.trailers entries).WellFormed
          ∧ payload = (FrameBody.trailers entries).payload ∧ text = (FrameBody.trailers entries).text := by
  rw [inspectTrailers]
  constructor
  · intro same
    split at same
    · cases same
    next short =>
    split at same
    · cases same
    next bytes =>
    split at same
    · cases same
    next entries read =>
    cases same
    obtain ⟨formed, rfl, count⟩ := (readTrailers_iff le_rfl (Nat.zero_le _)
      ((Bool.not_eq_false _).mp bytes) entries).1 read
    rw [Nat.zero_add] at count
    exact ⟨entries, ⟨formed, count, not_lt.1 short⟩, rfl, rfl⟩
  · rintro ⟨entries, ⟨formed, count, short⟩, rfl, rfl⟩
    have bytes := trailers_bytes formed
    have read := (readTrailers_iff le_rfl (Nat.zero_le _) bytes entries).2
      ⟨formed, rfl, by rwa [Nat.zero_add]⟩
    rw [FrameBody.payload, if_neg (not_lt.2 short), bytes, if_neg (by decide), read]
    rfl

/-! ## One frame -/

/-- The report inside a frame is within the limit. -/
def FrameBody.Within (outputLimit : Nat) : FrameBody → Prop
  | .message fields => (protobufReport (located 0 fields)).length ≤ outputLimit
  | .trailers _ => True

theorem readBody_iff {outputLimit : Nat} {flags : UInt8} (known : flags = 0 ∨ flags = 0x80)
    (payload : List UInt8) (budget : Nat) (text : List UInt8) (left : Nat) :
    readBody outputLimit flags payload budget = .ok (text, left)
      ↔ ∃ body : FrameBody, flags = body.flag ∧ body.WellFormed ∧ payload = body.payload
          ∧ body.fieldCount + left = budget ∧ body.Within outputLimit ∧ text = body.text := by
  rw [readBody]
  by_cases message : flags = 0
  · subst message
    rw [if_pos rfl]
    constructor
    · intro same
      split at same
      · cases same
      next report remaining inspected =>
      cases same
      obtain ⟨fields, formed, split, count, rfl, fits⟩ :=
        (inspectProtobuf_iff _ _ _ _ _).1 inspected
      exact ⟨.message fields, rfl, formed, split, count, fits, rfl⟩
    · rintro ⟨body, flag, formed, split, count, fits, rfl⟩
      cases body with
      | message fields =>
          rw [(inspectProtobuf_iff _ _ _ _ _).2 ⟨fields, formed, split, count, rfl, fits⟩]
          rfl
      | trailers entries => exact absurd flag (by simp [FrameBody.flag])
  · rw [if_neg message]
    have trailer : flags = 0x80 := known.resolve_left message
    subst trailer
    constructor
    · intro same
      split at same
      · cases same
      next body inspected =>
      cases same
      obtain ⟨entries, formed, split, rfl⟩ := (inspectTrailers_iff payload _).1 inspected
      exact ⟨.trailers entries, rfl, formed, split, Nat.zero_add _, trivial, rfl⟩
    · rintro ⟨body, flag, formed, split, count, -, rfl⟩
      cases body with
      | message fields => exact absurd flag (by simp [FrameBody.flag])
      | trailers entries =>
          rw [(inspectTrailers_iff payload _).2 ⟨entries, formed, split, rfl⟩, ← count]
          dsimp only [FrameBody.fieldCount]
          rw [Nat.zero_add]

theorem readLength_eq (first second third fourth : UInt8) :
    readLength [first, second, third, fourth] = lengthNumber [first, second, third, fourth] := by
  have group : ∀ (number : Nat) (byte : UInt8),
      (number <<< 8) ||| byte.toNat = byte.toNat + 256 * number := by
    intro number byte
    rw [← Nat.shiftLeft_add_eq_or_of_lt byte.toNat_lt, Nat.shiftLeft_eq]
    omega
  simp only [readLength, List.foldl_cons, List.foldl_nil, group, lengthNumber]
  simp [Nat.ofDigits_cons]

theorem FrameBody.known (body : FrameBody) : body.flag = 0 ∨ body.flag = 0x80 := by
  cases body
  · exact .inl rfl
  · exact .inr rfl

theorem FrameBody.flag_trailers (body : FrameBody) : decide (body.flag ≠ 0) = body.isTrailers := by
  cases body <;> rfl

theorem readFrame_iff {size outputLimit : Nat} {input : List UInt8} (within : input.length ≤ size)
    (budget : Nat) (frame : WireFrame) (left : Nat) (trailers : Bool) (rest : List UInt8) :
    readFrame size outputLimit input budget = .ok (frame, left, trailers, rest)
      ↔ ∃ spelling : FrameSpelling, spelling.WellFormed ∧ input = spelling.bytes ++ rest
          ∧ spelling.body.fieldCount + left = budget ∧ spelling.body.Within outputLimit
          ∧ trailers = spelling.body.isTrailers ∧ frame = spelling.frame (size - input.length) := by
  constructor
  · intro same
    rw [readFrame.eq_def] at same
    split at same
    · next flags first second third fourth behind =>
      split at same
      · cases same
      next known =>
      dsimp only at same
      split at same
      · cases same
      next enough =>
      split at same
      · cases same
      next text remaining read =>
      cases same
      obtain ⟨body, rfl, formed, payload, count, fits, rfl⟩ :=
        (readBody_iff (by tauto) _ _ _ _).1 read
      rw [readLength_eq] at enough payload ⊢
      have taken := congrArg List.length payload
      rw [List.length_take_of_le (not_lt.1 enough)] at taken
      refine ⟨⟨[first, second, third, fourth], body⟩, ⟨rfl, taken, formed⟩, ?_, count, fits,
        body.flag_trailers, ?_⟩
      · rw [FrameSpelling.bytes]
        simp only [← payload, List.cons_append, List.nil_append, List.take_append_drop]
      · simp only [FrameSpelling.frame, FrameSpelling.bytes, List.length_cons, List.length_append,
          List.length_drop, List.length_nil, ← taken] at within ⊢
        congr 1
        omega
    · cases same
  · rintro ⟨⟨lengthBytes, body⟩, ⟨four, number, formed⟩, split, count, fits, rfl, rfl⟩
    obtain ⟨first, second, third, fourth, rfl⟩ := List.length_eq_four.1 four
    dsimp only at number formed count fits
    have shape : input
        = body.flag :: first :: second :: third :: fourth :: (body.payload ++ rest) := by
      rw [split, FrameSpelling.bytes]
      rfl
    have known : ¬ (body.flag ≠ 0 ∧ body.flag ≠ 0x80) := by
      rcases body.known with zero | high
      · exact fun both => both.1 zero
      · exact fun both => both.2 high
    subst shape
    rw [readFrame, if_neg known, readLength_eq, number]
    dsimp only
    rw [if_neg (by simp), List.take_left' rfl, List.drop_left' rfl,
      (readBody_iff body.known body.payload budget _ _).2 ⟨body, rfl, formed, rfl, count, fits, rfl⟩]
    dsimp only
    rw [body.flag_trailers]
    simp only [FrameSpelling.frame, FrameSpelling.bytes, List.length_cons, List.length_append,
      List.length_nil] at within ⊢
    congr 3
    omega

/-! ## The loop -/

theorem frameBytes_cons (spelling : FrameSpelling) (spellings : List FrameSpelling) :
    frameBytes (spelling :: spellings) = spelling.bytes ++ frameBytes spellings := List.flatMap_cons

theorem FrameSpelling.bytes_ne_nil (spelling : FrameSpelling) : spelling.bytes ≠ [] :=
  List.cons_ne_nil _ _

/-- The fields of all messages together. -/
def totalFields (spellings : List FrameSpelling) : Nat :=
  (spellings.map fun spelling => spelling.body.fieldCount).sum

/-- The result of the loop: frames in the rest of the input, within the limits, the trailers last. -/
structure Framed (outputLimit position count : Nat) (before : Bool) (input output : List UInt8)
    (budget : Nat) (result : List UInt8) (present : Bool) (spellings : List FrameSpelling) :
    Prop where
  formed : ∀ spelling ∈ spellings, spelling.WellFormed
  split : input = frameBytes spellings
  count_le : count + spellings.length ≤ 256
  budget_le : totalFields spellings ≤ budget
  closed : before = true → spellings = []
  last : ∀ spelling ∈ spellings.dropLast, spelling.body.isTrailers = false
  present_eq : present = (before || spellings.any fun spelling => spelling.body.isTrailers)
  result_eq : result = output ++ listed WireFrame.text (count = 0) (framed position spellings)
  fits : spellings ≠ [] → result.length + 64 ≤ outputLimit

theorem inspectFrames_nil_iff {size outputLimit fuel count : Nat} (room : count ≤ 256)
    (before : Bool) (output : List UInt8) (budget : Nat) (result : List UInt8) (present : Bool)
    (position : Nat) :
    inspectFrames size outputLimit fuel count before [] output budget = .ok (result, present)
      ↔ ∃ spellings, Framed outputLimit position count before [] output budget result present
          spellings := by
  rw [inspectFrames]
  constructor
  · intro same
    cases same
    exact ⟨[], by simp, rfl, room, Nat.zero_le _, fun _ => rfl, by simp, by simp, by simp [listed],
      by simp⟩
  · rintro ⟨spellings, inspected⟩
    cases spellings with
    | nil =>
        have result := inspected.result_eq
        have present := inspected.present_eq
        rw [framed_nil, listed, List.append_nil] at result
        rw [List.any_nil, Bool.or_false] at present
        rw [result, present]
    | cons spelling rest =>
        have split := inspected.split
        rw [frameBytes_cons, eq_comm, List.append_eq_nil_iff] at split
        exact absurd split.1 spelling.bytes_ne_nil

/-- One turn of the loop. -/
theorem framed_cons_iff {outputLimit position count budget : Nat} {before present : Bool}
    {byte : UInt8} {more output result : List UInt8} :
    (∃ spellings, Framed outputLimit position count before (byte :: more) output budget result
        present spellings)
      ↔ before = false ∧ count + 1 ≤ 256
          ∧ ∃ (spelling : FrameSpelling) (rest : List UInt8) (left : Nat),
              spelling.WellFormed ∧ byte :: more = spelling.bytes ++ rest
                ∧ spelling.body.fieldCount + left = budget
                ∧ (output ++ (separator (count = 0) ++ (spelling.frame position).text)).length + 64
                    ≤ outputLimit
                ∧ ∃ spellings, Framed outputLimit (position + spelling.bytes.length) (count + 1)
                    spelling.body.isTrailers rest
                    (output ++ (separator (count = 0) ++ (spelling.frame position).text)) left result
                    present spellings := by
  constructor
  · rintro ⟨spellings, inspected⟩
    cases spellings with
    | nil => cases inspected.split
    | cons spelling spellings =>
        have fits := inspected.fits (List.cons_ne_nil _ _)
        have counted := inspected.count_le
        have fields := inspected.budget_le
        have result := inspected.result_eq
        have shown := inspected.present_eq
        simp only [framed_cons, listed, List.append_assoc] at result
        simp only [totalFields, List.map_cons, List.sum_cons] at fields
        rw [List.length_cons] at counted
        have first : before = false := by
          by_contra after
          exact List.cons_ne_nil _ _ (inspected.closed ((Bool.not_eq_false _).mp after))
        subst first
        refine ⟨rfl, by omega, spelling, frameBytes spellings, budget - spelling.body.fieldCount,
          inspected.formed _ List.mem_cons_self, by rw [inspected.split, frameBytes_cons], by omega,
          ?_, spellings, fun other inside => inspected.formed _ (List.mem_cons_of_mem _ inside), rfl,
          by omega, Nat.le_sub_of_add_le' fields, ?_, ?_, ?_, ?_, fun _ => fits⟩
        · rw [result] at fits
          simp only [List.length_append] at fits ⊢
          omega
        · intro closing
          by_contra others
          have early : spelling ∈ (spelling :: spellings).dropLast := by
            rw [List.dropLast_cons_of_ne_nil others]
            exact List.mem_cons_self
          rw [inspected.last spelling early] at closing
          cases closing
        · intro other inside
          refine inspected.last other ?_
          have others : spellings ≠ [] := by
            rintro rfl
            cases inside
          rw [List.dropLast_cons_of_ne_nil others]
          exact List.mem_cons_of_mem _ inside
        · rw [shown, List.any_cons, Bool.false_or]
        · rw [result]
          simp
  · rintro ⟨rfl, room, spelling, rest, left, formed, split, fields, short, spellings, inspected⟩
    have result := inspected.result_eq
    refine ⟨spelling :: spellings, List.forall_mem_cons.2 ⟨formed, inspected.formed⟩, ?_, ?_, ?_,
      (fun impossible => by cases impossible), ?_, ?_, ?_, ?_⟩
    · rw [split, frameBytes_cons, inspected.split]
    · have counted := inspected.count_le
      rw [List.length_cons]
      omega
    · have others := inspected.budget_le
      simp only [totalFields, List.map_cons, List.sum_cons] at others ⊢
      omega
    · intro other inside
      by_cases none : spellings = []
      · subst none
        cases inside
      · rw [List.dropLast_cons_of_ne_nil none] at inside
        rcases List.mem_cons.1 inside with rfl | later
        · by_contra closing
          exact none (inspected.closed ((Bool.not_eq_false _).mp closing))
        · exact inspected.last other later
    · rw [inspected.present_eq, List.any_cons, Bool.false_or]
    · rw [result]
      simp [listed]
    · intro _
      cases spellings with
      | nil =>
          rw [framed_nil, listed, List.append_nil] at result
          rwa [result]
      | cons => exact inspected.fits (List.cons_ne_nil _ _)

theorem body_length_le (spelling : FrameSpelling) (position : Nat) :
    spelling.body.text.length ≤ (spelling.frame position).text.length := by
  simp only [WireFrame.text, FrameSpelling.frame, List.length_append]
  omega

theorem within_of_fits {spelling : FrameSpelling} {position outputLimit : Nat}
    (fits : (spelling.frame position).text.length ≤ outputLimit) :
    spelling.body.Within outputLimit := by
  have inside := (body_length_le spelling position).trans fits
  cases body : spelling.body with
  | message fields =>
      rw [body, FrameBody.text, List.length_append] at inside
      exact le_trans (Nat.le_add_left _ _) inside
  | trailers entries => trivial

theorem inspectFrames_iff {size outputLimit fuel count : Nat} {input : List UInt8}
    (within : input.length ≤ size) (enough : input.length ≤ fuel) (room : count ≤ 256)
    (before : Bool) (output : List UInt8) (budget : Nat) (result : List UInt8) (present : Bool) :
    inspectFrames size outputLimit fuel count before input output budget = .ok (result, present)
      ↔ ∃ spellings, Framed outputLimit (size - input.length) count before input output budget result
          present spellings := by
  induction fuel generalizing input count before output budget with
  | zero =>
      have none : input = [] := List.length_eq_zero_iff.1 (Nat.le_zero.1 enough)
      subst none
      exact inspectFrames_nil_iff room before output budget result present _
  | succ fuel ih =>
      cases input with
      | nil => exact inspectFrames_nil_iff room before output budget result present _
      | cons byte more =>
          rw [framed_cons_iff]
          have shorter : ∀ {spelling : FrameSpelling} {rest : List UInt8},
              byte :: more = spelling.bytes ++ rest → rest.length < (byte :: more).length
                ∧ size - rest.length = size - (byte :: more).length + spelling.bytes.length := by
            intro spelling rest split
            have some := List.length_pos_iff.2 spelling.bytes_ne_nil
            rw [split, List.length_append] at within ⊢
            omega
          constructor
          · intro same
            rw [inspectFrames] at same
            split at same
            · cases same
            next first =>
            split at same
            · cases same
            next another =>
            split at same
            · cases same
            next frame left trailers rest read =>
            split at same
            · cases same
            next added entry =>
            obtain ⟨spelling, formed, split, fields, -, rfl, rfl⟩ :=
              (readFrame_iff within _ _ _ _ _).1 read
            obtain ⟨rfl, fits⟩ := addEntry_iff.1 entry
            obtain ⟨less, moved⟩ := shorter split
            rw [ih (by omega) (by omega) (by omega), moved] at same
            exact ⟨(Bool.not_eq_true _).mp first, by omega, spelling, rest, left, formed, split, fields,
              fits, same⟩
          · rintro ⟨rfl, another, spelling, rest, left, formed, split, fields, fits, inspected⟩
            obtain ⟨less, moved⟩ := shorter split
            have short : (spelling.frame (size - (byte :: more).length)).text.length
                ≤ outputLimit := by
              simp only [List.length_append] at fits
              omega
            have read := (readFrame_iff within budget _ left _ rest).2
              ⟨spelling, formed, split, fields, within_of_fits short, rfl, rfl⟩
            rw [inspectFrames, if_neg (by decide), if_neg (by omega), read]
            dsimp only
            rw [addEntry_iff.2 ⟨rfl, fits⟩]
            dsimp only
            rw [ih (by omega) (by omega) (by omega), moved]
            exact inspected

/-- The inspection succeeds exactly on the sequences of well-formed frames within the limits, the
trailers last. -/
theorem inspectGrpcWeb_iff (input : List UInt8) (outputLimit : Nat) (report : List UInt8) :
    inspectGrpcWeb input outputLimit = .ok report
      ↔ ∃ spellings : List FrameSpelling, (∀ spelling ∈ spellings, spelling.WellFormed)
          ∧ input = frameBytes spellings ∧ spellings.length ≤ 256 ∧ totalFields spellings ≤ 4096
          ∧ (∀ spelling ∈ spellings.dropLast, spelling.body.isTrailers = false)
          ∧ report = framesReport (framed 0 spellings)
              ++ grpcWebTail (spellings.any fun spelling => spelling.body.isTrailers)
          ∧ (spellings ≠ [] → (framesReport (framed 0 spellings)).length + 64 ≤ outputLimit)
          ∧ report.length ≤ outputLimit := by
  have loop := @inspectFrames_iff input.length outputLimit input.length 0 input le_rfl le_rfl
    (Nat.zero_le _) false grpcWebHeader 4096
  rw [Nat.sub_self] at loop
  constructor
  · intro same
    rw [inspectGrpcWeb] at same
    split at same
    · cases same
    next output present frames =>
    obtain ⟨rfl, fits⟩ := finish_iff.1 same
    obtain ⟨spellings, inspected⟩ := (loop output present).1 frames
    have result := inspected.result_eq
    have shown := inspected.present_eq
    rw [Bool.false_or] at shown
    subst result shown
    have counted := inspected.count_le
    rw [Nat.zero_add] at counted
    exact ⟨spellings, inspected.formed, inspected.split, counted, inspected.budget_le, inspected.last,
      rfl, inspected.fits, fits⟩
  · rintro ⟨spellings, formed, split, count, fields, last, rfl, room, fits⟩
    have frames := (loop (framesReport (framed 0 spellings))
      (spellings.any fun spelling => spelling.body.isTrailers)).2
      ⟨spellings, formed, split, by rwa [Nat.zero_add], fields,
        (fun impossible => by cases impossible), last, by rw [Bool.false_or],
        rfl, room⟩
    rw [inspectGrpcWeb, frames]
    exact finish_iff.2 ⟨rfl, fits⟩

/-! ## Partition -/

/-- The frame is what the wire format spells at its offset of the input. -/
def WireFrame.ReadsAt (input : List UInt8) (frame : WireFrame) : Prop :=
  ∃ spelling : FrameSpelling, spelling.WellFormed ∧ frame = spelling.frame frame.offset
    ∧ (input.drop frame.offset).take (frame.stop - frame.offset) = spelling.bytes

structure FramePartitions (input : List UInt8) (frames : List WireFrame) : Prop where
  adjoin : Theory.Segments.Adjoin 0 input.length (frames.map fun frame => (frame.offset, frame.stop))
  reads : ∀ frame ∈ frames, frame.ReadsAt input

theorem partitions_framed {spellings : List FrameSpelling}
    (formed : ∀ spelling ∈ spellings, spelling.WellFormed) :
    FramePartitions (frameBytes spellings) (framed 0 spellings) := by
  constructor
  · have ranges := Theory.Segments.adjoin_placed FrameSpelling.bytes
      (fun (spelling : FrameSpelling) (_ : spelling ∈ spellings) => spelling.bytes_ne_nil) 0
    rw [Nat.zero_add] at ranges
    rw [framed, List.map_map]
    exact ranges
  · intro frame inside
    obtain ⟨p, place, rfl⟩ := List.mem_map.1 inside
    refine ⟨p.2, formed _ (Theory.Segments.mem_of_placed _ place), rfl, ?_⟩
    have window := Theory.Segments.window_placed FrameSpelling.bytes [] spellings p place
    rw [List.nil_append] at window
    simp only [FrameSpelling.frame, Nat.add_sub_cancel_left]
    exact window

/-! ## Text -/

theorem decodeQuartets_quartet {piece letters rest decoded : List UInt8}
    (encoded : base64Encode false true piece = letters) (four : letters.length = 4)
    (short : piece.length ≤ 3) (behind : decodeQuartets rest = .ok decoded) :
    decodeQuartets (letters ++ rest) = .ok (piece ++ decoded) := by
  have quartet : base64Decode letters false 3 = .success piece := by
    rw [← encoded]
    exact base64Decode_encode (.inr rfl) short
  obtain ⟨first, second, third, fourth, rfl⟩ := List.length_eq_four.1 four
  rw [List.cons_append, List.cons_append, List.cons_append, List.cons_append, List.nil_append,
    decodeQuartets, quartet]
  have succeeded : ¬ (DecoderResult.success piece).status ≠ .ok := not_not.2 rfl
  rw [if_neg succeeded, behind]
  rfl

theorem decodeQuartets_encode (piece : List UInt8) {rest decoded : List UInt8}
    (behind : decodeQuartets rest = .ok decoded) :
    decodeQuartets (base64Encode false true piece ++ rest) = .ok (piece ++ decoded) := by
  induction piece using base64Encode.induct with
  | case1 => exact behind
  | case2 first => exact decodeQuartets_quartet rfl rfl (by simp) behind
  | case3 first second => exact decodeQuartets_quartet rfl rfl (by simp) behind
  | case4 first second third others ih =>
      have quartet : decodeQuartets (base64Encode false true [first, second, third]
          ++ (base64Encode false true others ++ rest))
            = .ok ([first, second, third] ++ (others ++ decoded)) :=
        decodeQuartets_quartet rfl rfl (by simp) ih
      exact quartet

theorem decodeQuartets_pieces (pieces : List (List UInt8)) :
    decodeQuartets (pieces.flatMap (base64Encode false true)) = .ok pieces.flatten := by
  induction pieces with
  | nil => rfl
  | cons piece rest ih =>
      rw [List.flatMap_cons, List.flatten_cons]
      exact decodeQuartets_encode piece ih

theorem pieces_quartets (pieces : List (List UInt8)) :
    (pieces.flatMap (base64Encode false true)).length % 4 = 0 := by
  induction pieces with
  | nil => rfl
  | cons piece rest ih =>
      have whole := (base64_groups piece.length).1
      rw [List.flatMap_cons, List.length_append, base64Encode_length, if_pos rfl]
      omega

/-- The text form of a body in pieces is the body. -/
theorem inspectGrpcWebText_pieces (pieces : List (List UInt8)) (outputLimit : Nat) :
    inspectGrpcWebText (pieces.flatMap (base64Encode false true)) outputLimit
      = inspectGrpcWeb pieces.flatten outputLimit := by
  rw [inspectGrpcWebText, if_neg (not_not.2 (pieces_quartets pieces)), decodeQuartets_pieces]

/-! ## Nothing is lost -/

theorem wireInspection_exact :
    (∀ input outputLimit fieldBudget report left,
      inspectProtobuf input outputLimit fieldBudget = .ok (report, left) →
        ∃ fields, Partitions input fields ∧ fields.length + left = fieldBudget
          ∧ report = protobufReport fields)
    ∧ (∀ (spellings : List FieldSpelling) outputLimit fieldBudget,
      (∀ spelling ∈ spellings, spelling.WellFormed) → spellings.length ≤ fieldBudget →
        (protobufReport (located 0 spellings)).length ≤ outputLimit →
          inspectProtobuf (wireBytes spellings) outputLimit fieldBudget
            = .ok (protobufReport (located 0 spellings), fieldBudget - spellings.length))
    ∧ (∀ input outputLimit report, inspectGrpcWeb input outputLimit = .ok report →
        ∃ frames trailers, FramePartitions input frames
          ∧ report = framesReport frames ++ grpcWebTail trailers)
    ∧ ∀ (pieces : List (List UInt8)) outputLimit,
      inspectGrpcWebText (pieces.flatMap (base64Encode false true)) outputLimit
        = inspectGrpcWeb pieces.flatten outputLimit := by
  refine ⟨?_, ?_, ?_, inspectGrpcWebText_pieces⟩
  · intro input outputLimit fieldBudget report left accepted
    obtain ⟨spellings, formed, rfl, count, rfl, -⟩ := (inspectProtobuf_iff _ _ _ _ _).1 accepted
    refine ⟨located 0 spellings, partitions_located formed, ?_, rfl⟩
    rw [located_length]
    exact count
  · intro spellings outputLimit fieldBudget formed count fits
    exact (inspectProtobuf_iff _ _ _ _ _).2
      ⟨spellings, formed, rfl, Nat.add_sub_cancel' count, rfl, fits⟩
  · intro input outputLimit report accepted
    obtain ⟨spellings, formed, rfl, -, -, -, rfl, -⟩ := (inspectGrpcWeb_iff _ _ _).1 accepted
    exact ⟨framed 0 spellings, _, partitions_framed formed, rfl⟩

theorem wireInspection_field :
    inspectProtobuf [0x08, 0x96, 0x01] 256 16
      = .ok (protobufReport (located 0 [⟨[0x08], 1, .varint [0x96, 0x01] 150⟩]), 15) := by
  have key : VarintBytes [0x08] 8 := by
    refine ⟨⟨by simp, ⟨0x08, rfl, ?_⟩, ?_⟩, by simp, by norm_num⟩
    · simp
    · simp [Theory.Varint.value]
  have value : VarintBytes [0x96, 0x01] 150 := by
    refine ⟨⟨by simp, ⟨0x01, rfl, ?_⟩, ?_⟩, by simp, by norm_num⟩
    · simp
    · simp [Theory.Varint.value, Nat.ofDigits_cons]
  have formed : ∀ spelling ∈ [(⟨[0x08], 1, .varint [0x96, 0x01] 150⟩ : FieldSpelling)],
      spelling.WellFormed := by
    intro spelling inside
    rw [List.mem_singleton.1 inside]
    exact ⟨le_rfl, by norm_num, key, value⟩
  have fits : (protobufReport (located 0 [⟨[0x08], 1, .varint [0x96, 0x01] 150⟩])).length ≤ 256 := by
    decide +kernel
  have accepted := wireInspection_exact.2.1 _ 256 16 formed (by simp) fits
  have encoded : wireBytes [⟨[0x08], 1, .varint [0x96, 0x01] 150⟩] = [0x08, 0x96, 0x01] := by
    simp [wireBytes, FieldSpelling.bytes, PayloadSpelling.bytes]
  have left : 16 - [(⟨[0x08], 1, .varint [0x96, 0x01] 150⟩ : FieldSpelling)].length = 15 := by simp
  rewrite [encoded, left] at accepted
  exact accepted

end Reb.Analysis.WireInspect
