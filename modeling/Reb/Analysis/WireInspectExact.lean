/-
# Analysis.WireInspectExact -- the fields of a protobuf message

`FieldSpelling` is a field as the wire format writes it, and `field` what is to be reported of
it at an offset.  The inspection succeeds exactly on the sequences of well-formed spellings
within its limits, and reports them in order (`inspectProtobuf_iff`).
-/
import Reb.Analysis.WireInspect
import Reb.Theory.Varint

namespace Reb.Analysis.WireInspect

set_option autoImplicit false

/-! ## The wire format -/

/-- A spelling of a 64-bit number. -/
structure VarintBytes (bytes : List UInt8) (number : Nat) : Prop where
  spells : Theory.Varint.Spells bytes number
  short : bytes.length ≤ 10
  lt : number < 2 ^ 64

/-- The number of a fixed-width value, the first byte the least significant. -/
def fixedNumber (bytes : List UInt8) : Nat := Nat.ofDigits 256 (bytes.map UInt8.toNat)

inductive PayloadSpelling where
  | varint (bytes : List UInt8) (value : Nat)
  | fixed64 (bytes : List UInt8)
  | delimited (lengthBytes content : List UInt8)
  | fixed32 (bytes : List UInt8)

namespace PayloadSpelling

def wire : PayloadSpelling → Nat
  | varint _ _ => 0
  | fixed64 _ => 1
  | delimited _ _ => 2
  | fixed32 _ => 5

def bytes : PayloadSpelling → List UInt8
  | varint bytes _ => bytes
  | fixed64 bytes => bytes
  | delimited lengthBytes content => lengthBytes ++ content
  | fixed32 bytes => bytes

def WellFormed : PayloadSpelling → Prop
  | varint bytes value => VarintBytes bytes value
  | fixed64 bytes => bytes.length = 8
  | delimited lengthBytes content => VarintBytes lengthBytes content.length
  | fixed32 bytes => bytes.length = 4

def detail (position : Nat) : PayloadSpelling → WireDetail
  | varint _ value => .unsigned value
  | fixed64 bytes => .unsigned (fixedNumber bytes)
  | delimited lengthBytes content => .payload (position + lengthBytes.length) content
  | fixed32 bytes => .unsigned (fixedNumber bytes)

/-- The bytes that are written out in Base64. -/
def content : PayloadSpelling → List UInt8
  | delimited _ content => content
  | _ => []

end PayloadSpelling

structure FieldSpelling where
  key : List UInt8
  number : Nat
  payload : PayloadSpelling

namespace FieldSpelling

def bytes (spelling : FieldSpelling) : List UInt8 := spelling.key ++ spelling.payload.bytes

structure WellFormed (spelling : FieldSpelling) : Prop where
  number_pos : 1 ≤ spelling.number
  number_le : spelling.number ≤ 2 ^ 29 - 1
  key : VarintBytes spelling.key (spelling.number * 8 + spelling.payload.wire)
  payload : spelling.payload.WellFormed

/-- The field at an offset of the message. -/
def field (offset : Nat) (spelling : FieldSpelling) : WireField where
  offset
  keyEnd := offset + spelling.key.length
  stop := offset + spelling.bytes.length
  number := spelling.number
  wire := spelling.payload.wire
  detail := spelling.payload.detail (offset + spelling.key.length)

end FieldSpelling

/-- The bytes of a sequence of fields. -/
def wireBytes (spellings : List FieldSpelling) : List UInt8 := spellings.flatMap FieldSpelling.bytes

/-- The fields one after the other. -/
def located (offset : Nat) (spellings : List FieldSpelling) : List WireField :=
  (Theory.Segments.placed FieldSpelling.bytes offset spellings).map fun p => p.2.field p.1

@[simp] theorem located_nil (offset : Nat) : located offset [] = [] := rfl

@[simp] theorem located_cons (offset : Nat) (spelling : FieldSpelling) (rest : List FieldSpelling) :
    located offset (spelling :: rest)
      = spelling.field offset :: located (offset + spelling.bytes.length) rest := rfl

theorem located_length (offset : Nat) (spellings : List FieldSpelling) :
    (located offset spellings).length = spellings.length := by
  induction spellings generalizing offset with
  | nil => rfl
  | cons spelling rest ih => rw [located_cons, List.length_cons, ih, List.length_cons]

/-- The report of a message with these fields. -/
def protobufReport (fields : List WireField) : List UInt8 :=
  protobufHeader ++ listed WireField.text true fields ++ ascii "]\x7d"

/-! ## Numbers -/

theorem closed_iff (byte : UInt8) : byte.toNat &&& 0x80 = 0 ↔ byte.toNat < 128 := by
  have small := byte.toNat_lt
  have parts := Nat.and_two_pow byte.toNat 7
  rw [Nat.testBit_eq_decide_div_mod_eq] at parts
  by_cases low : byte.toNat < 128
  · have clear : byte.toNat / 2 ^ 7 % 2 = 0 := by omega
    rw [clear] at parts
    exact iff_of_true parts low
  · have set : byte.toNat / 2 ^ 7 % 2 = 1 := by omega
    rw [set] at parts
    refine iff_of_false ?_ low
    intro none
    have high : byte.toNat &&& 2 ^ 7 = 0 := none
    rw [parts] at high
    simp at high

theorem readWireVarintFrom_iff {index value : Nat} (below : value < 2 ^ (index * 7))
    (input : List UInt8) (number : Nat) (rest : List UInt8) :
    readWireVarintFrom index value input = some (number, rest)
      ↔ ∃ bytes upper, input = bytes ++ rest ∧ Theory.Varint.Spells bytes upper
          ∧ index + bytes.length ≤ 10 ∧ number = value + 2 ^ (index * 7) * upper
          ∧ number < 2 ^ 64 := by
  induction input generalizing index value with
  | nil =>
      constructor
      · intro impossible
        cases impossible
      · rintro ⟨bytes, upper, split, spelled, -⟩
        exact absurd (List.append_eq_nil_iff.1 split.symm).1 spelled.ne_nil
  | cons byte behind ih =>
      rw [readWireVarintFrom]
      by_cases ended : 10 ≤ index
      · rw [if_pos ended]
        constructor
        · intro impossible
          cases impossible
        · rintro ⟨bytes, upper, -, spelled, short, -⟩
          have some := List.length_pos_iff.2 spelled.ne_nil
          omega
      · rw [if_neg ended]
        have turns : index ≤ 9 := by omega
        by_cases wide : index = 9 ∧ 1 < byte.toNat
        · rw [if_pos wide]
          obtain ⟨rfl, big⟩ := wide
          constructor
          · intro impossible
            cases impossible
          · rintro ⟨bytes, upper, split, spelled, short, same, small⟩
            rcases spelled.cons_cases split with ⟨-, -, -, rfl⟩ | ⟨-, tail, above, rfl, -, more, -⟩
            · omega
            · have some := List.length_pos_iff.2 more.ne_nil
              rw [List.length_cons] at short
              omega
        · rw [if_neg wide]
          have group : byte.toNat &&& 0x7f = byte.toNat % 128 :=
            Nat.and_two_pow_sub_one_eq_mod byte.toNat 7
          simp only [closed_iff, group, Theory.Varint.lor_group below]
          have below' : value + 2 ^ (index * 7) * (byte.toNat % 128) < 2 ^ ((index + 1) * 7) := by
            rw [Nat.succ_mul]
            exact Theory.Varint.add_group_lt below
              (show byte.toNat % 128 < 2 ^ 7 from Nat.mod_lt _ (by decide))
          by_cases last : byte.toNat < 128
          · rw [if_pos last, Nat.mod_eq_of_lt last]
            rw [Nat.mod_eq_of_lt last] at below'
            constructor
            · intro same
              cases same
              refine ⟨[byte], byte.toNat, rfl, (Theory.Varint.spells_one last _).2 rfl, by simp; omega,
                rfl, ?_⟩
              by_cases tenth : index = 9
              · subst tenth
                omega
              · exact below'.trans_le (Nat.pow_le_pow_right (by decide) (by omega))
            · rintro ⟨bytes, upper, split, spelled, -, rfl, -⟩
              rcases spelled.cons_cases split with ⟨-, -, rfl, rfl⟩ | ⟨more, -⟩
              · rfl
              · omega
          · rw [if_neg last, ih below']
            constructor
            · rintro ⟨bytes, upper, rfl, spelled, short, rfl, small⟩
              refine ⟨byte :: bytes, byte.toNat % 128 + 128 * upper, rfl,
                (Theory.Varint.spells_cons (not_lt.1 last) _).2 ⟨upper, spelled, rfl⟩, ?_, ?_, small⟩
              · rw [List.length_cons]
                omega
              · rw [Nat.add_mul, pow_add]
                ring
            · rintro ⟨bytes, upper, split, spelled, short, rfl, small⟩
              rcases spelled.cons_cases split with ⟨few, -⟩ | ⟨-, tail, above, rfl, rfl, more, rfl⟩
              · omega
              · refine ⟨tail, above, rfl, more, ?_, ?_, small⟩
                · rw [List.length_cons] at short
                  omega
                · rw [Nat.add_mul, pow_add]
                  ring

theorem readWireVarint_iff (input : List UInt8) (number : Nat) (rest : List UInt8) :
    readWireVarint input = some (number, rest)
      ↔ ∃ bytes, input = bytes ++ rest ∧ VarintBytes bytes number := by
  rw [readWireVarint, readWireVarintFrom_iff (by decide)]
  constructor
  · rintro ⟨bytes, upper, split, spelled, short, same, small⟩
    rw [Nat.zero_mul, pow_zero, Nat.one_mul, Nat.zero_add] at same
    subst same
    exact ⟨bytes, split, spelled, by omega, small⟩
  · rintro ⟨bytes, split, spelled, short, small⟩
    exact ⟨bytes, number, split, spelled, by omega, by omega, small⟩

theorem readFixedFrom_eq {index value : Nat} (below : value < 2 ^ (index * 8)) (bytes : List UInt8) :
    readFixedFrom index value bytes = value + 2 ^ (index * 8) * fixedNumber bytes := by
  induction bytes generalizing index value with
  | nil => rfl
  | cons byte rest ih =>
      have below' : value + 2 ^ (index * 8) * byte.toNat < 2 ^ ((index + 1) * 8) := by
        rw [Nat.succ_mul]
        exact Theory.Varint.add_group_lt below byte.toNat_lt
      rw [readFixedFrom, Theory.Varint.lor_group below, ih below', fixedNumber, fixedNumber, List.map_cons, Nat.ofDigits_cons,
        Nat.succ_mul, pow_add]
      push_cast
      ring

theorem readFixed_eq (bytes : List UInt8) : readFixedFrom 0 0 bytes = fixedNumber bytes := by
  rw [readFixedFrom_eq (by decide)]
  simp

/-! ## One field -/

section Field

variable {size outputLimit : Nat}

theorem readDetail_varint_iff (input : List UInt8) (detail : WireDetail) (rest : List UInt8) :
    readDetail size outputLimit 0 input = .ok (detail, rest)
      ↔ ∃ bytes value, VarintBytes bytes value ∧ input = bytes ++ rest ∧ detail = .unsigned value := by
  rw [readDetail, if_pos rfl]
  cases read : readWireVarint input with
  | none =>
      constructor
      · intro impossible
        cases impossible
      · rintro ⟨bytes, value, spelled, split, -⟩
        rw [(readWireVarint_iff input value rest).2 ⟨bytes, split, spelled⟩] at read
        cases read
  | some found =>
      obtain ⟨bytes, split, spelled⟩ := (readWireVarint_iff input found.1 found.2).1 read
      constructor
      · intro same
        cases same
        exact ⟨bytes, found.1, spelled, split, rfl⟩
      · rintro ⟨others, value, another, split', rfl⟩
        rw [(readWireVarint_iff input value rest).2 ⟨others, split', another⟩] at read
        cases read
        rfl

theorem readDetail_fixed_iff {wire width : Nat} (kind : wire = 1 ∧ width = 8 ∨ wire = 5 ∧ width = 4)
    (input : List UInt8) (detail : WireDetail) (rest : List UInt8) :
    readDetail size outputLimit wire input = .ok (detail, rest)
      ↔ ∃ bytes, bytes.length = width ∧ input = bytes ++ rest
          ∧ detail = .unsigned (fixedNumber bytes) := by
  have chosen : (if wire = 1 then 8 else 4) = width := by
    rcases kind with ⟨rfl, rfl⟩ | ⟨rfl, rfl⟩ <;> rfl
  rw [readDetail, if_neg (by omega), if_pos (by omega)]
  simp only [chosen, readFixed_eq]
  by_cases short : input.length < width
  · rw [if_pos short]
    constructor
    · intro impossible
      cases impossible
    · rintro ⟨bytes, size, rfl, -⟩
      rw [List.length_append] at short
      omega
  · rw [if_neg short]
    constructor
    · intro same
      cases same
      exact ⟨input.take width, List.length_take_of_le (not_lt.1 short),
        (List.take_append_drop width input).symm, rfl⟩
    · rintro ⟨bytes, rfl, rfl, rfl⟩
      rw [List.take_left', List.drop_left'] <;> rfl

theorem readDetail_delimited_iff {input : List UInt8} (within : input.length ≤ size)
    (detail : WireDetail) (rest : List UInt8) :
    readDetail size outputLimit 2 input = .ok (detail, rest)
      ↔ ∃ lengthBytes content, VarintBytes lengthBytes content.length
          ∧ input = lengthBytes ++ content ++ rest ∧ content.length ≤ outputLimit / 4 * 3
          ∧ detail = .payload (size - input.length + lengthBytes.length) content := by
  rw [readDetail, if_neg (by decide), if_neg (by decide), if_pos rfl]
  cases read : readWireVarint input with
  | none =>
      constructor
      · intro impossible
        cases impossible
      · rintro ⟨bytes, content, spelled, split, -⟩
        rw [List.append_assoc] at split
        rw [(readWireVarint_iff input _ _).2 ⟨bytes, split, spelled⟩] at read
        cases read
  | some found =>
      obtain ⟨length, behind⟩ := found
      obtain ⟨bytes, rfl, spelled⟩ := (readWireVarint_iff input length behind).1 read
      rw [List.length_append] at within
      simp only
      constructor
      · intro same
        split at same
        · cases same
        · next enough =>
          split at same
          · cases same
          · next small =>
            cases same
            have taken : (behind.take length).length = length :=
              List.length_take_of_le (not_lt.1 enough)
            refine ⟨bytes, behind.take length, by rwa [taken], ?_, by rw [taken]; omega, ?_⟩
            · rw [List.append_assoc, List.take_append_drop]
            · rw [List.length_append]
              congr 1
              omega
      · rintro ⟨others, content, another, split, small, rfl⟩
        rw [List.append_assoc] at split
        rw [(readWireVarint_iff _ _ _).2 ⟨others, split, another⟩] at read
        cases read
        have sizes := congrArg List.length split
        simp only [List.length_append] at sizes
        rw [if_neg (by simp), if_neg (by omega), List.take_left', List.drop_left']
        · simp only [List.length_append] at within ⊢
          congr 3
          omega
        · rfl
        · rfl

theorem readDetail_iff {wire : Nat} {input : List UInt8} (within : input.length ≤ size)
    (detail : WireDetail) (rest : List UInt8) :
    readDetail size outputLimit wire input = .ok (detail, rest)
      ↔ ∃ payload : PayloadSpelling, payload.WellFormed ∧ wire = payload.wire
          ∧ input = payload.bytes ++ rest ∧ payload.content.length ≤ outputLimit / 4 * 3
          ∧ detail = payload.detail (size - input.length) := by
  constructor
  · intro same
    by_cases zero : wire = 0
    · subst zero
      obtain ⟨bytes, value, spelled, split, rfl⟩ := (readDetail_varint_iff _ _ _).1 same
      exact ⟨.varint bytes value, spelled, rfl, split, Nat.zero_le _, rfl⟩
    by_cases one : wire = 1
    · subst one
      obtain ⟨bytes, eight, split, rfl⟩ := (readDetail_fixed_iff (.inl ⟨rfl, rfl⟩) _ _ _).1 same
      exact ⟨.fixed64 bytes, eight, rfl, split, Nat.zero_le _, rfl⟩
    by_cases five : wire = 5
    · subst five
      obtain ⟨bytes, four, split, rfl⟩ := (readDetail_fixed_iff (.inr ⟨rfl, rfl⟩) _ _ _).1 same
      exact ⟨.fixed32 bytes, four, rfl, split, Nat.zero_le _, rfl⟩
    by_cases two : wire = 2
    · subst two
      obtain ⟨lengthBytes, content, spelled, split, small, rfl⟩ :=
        (readDetail_delimited_iff within _ _).1 same
      exact ⟨.delimited lengthBytes content, spelled, rfl, split, small, rfl⟩
    · rw [readDetail, if_neg zero, if_neg (by omega), if_neg two] at same
      cases same
  · rintro ⟨payload, formed, rfl, split, small, rfl⟩
    cases payload with
    | varint bytes value => exact (readDetail_varint_iff _ _ _).2 ⟨bytes, value, formed, split, rfl⟩
    | fixed64 bytes =>
        exact (readDetail_fixed_iff (.inl ⟨rfl, rfl⟩) _ _ _).2 ⟨bytes, formed, split, rfl⟩
    | delimited lengthBytes content =>
        exact (readDetail_delimited_iff within _ _).2
          ⟨lengthBytes, content, formed, split, small, rfl⟩
    | fixed32 bytes =>
        exact (readDetail_fixed_iff (.inr ⟨rfl, rfl⟩) _ _ _).2 ⟨bytes, formed, split, rfl⟩

theorem PayloadSpelling.wire_lt (payload : PayloadSpelling) : payload.wire < 8 := by
  cases payload <;> simp [wire]

theorem tag_parts (tag : Nat) : tag >>> 3 = tag / 8 ∧ tag &&& 7 = tag % 8 :=
  ⟨Nat.shiftRight_eq_div_pow tag 3, Nat.and_two_pow_sub_one_eq_mod tag 3⟩

/-- Positions counted from the end of the input, and from the front of it. -/
theorem positions {key payload rest : Nat} (within : key + (payload + rest) ≤ size) :
    size - (payload + rest) = size - (key + (payload + rest)) + key
      ∧ size - rest = size - (key + (payload + rest)) + (key + payload) := by
  omega

theorem readField_iff {input : List UInt8} (within : input.length ≤ size) (field : WireField)
    (rest : List UInt8) :
    readField size outputLimit input = .ok (field, rest)
      ↔ ∃ spelling : FieldSpelling, spelling.WellFormed ∧ input = spelling.bytes ++ rest
          ∧ spelling.payload.content.length ≤ outputLimit / 4 * 3
          ∧ field = spelling.field (size - input.length) := by
  constructor
  · intro same
    rw [readField] at same
    cases read : readWireVarint input with
    | none =>
        rw [read] at same
        cases same
    | some found =>
        obtain ⟨tag, keyed⟩ := found
        obtain ⟨key, rfl, spelled⟩ := (readWireVarint_iff input tag keyed).1 read
        rw [read] at same
        dsimp only at same
        rw [(tag_parts tag).1, (tag_parts tag).2] at same
        split at same
        · cases same
        next number =>
        rw [List.length_append] at within
        cases detailed : readDetail size outputLimit (tag % 8) keyed with
        | error failed =>
            rw [detailed] at same
            cases same
        | ok found =>
            obtain ⟨detail, behind⟩ := found
            rw [detailed] at same
            cases same
            obtain ⟨payload, formed, kind, rfl, small, rfl⟩ :=
              (readDetail_iff (by omega) _ _).1 detailed
            have whole : tag / 8 * 8 + payload.wire = tag := by omega
            refine ⟨⟨key, tag / 8, payload⟩, ⟨?_, ?_, by rwa [whole], formed⟩, ?_, small, ?_⟩
            · dsimp only
              omega
            · dsimp only
              omega
            · rw [FieldSpelling.bytes, List.append_assoc]
            · simp only [List.length_append] at within
              obtain ⟨keyEnd, stop⟩ := positions within
              simp only [FieldSpelling.field, FieldSpelling.bytes, List.length_append]
              rw [kind, keyEnd, stop]
  · rintro ⟨⟨key, number, payload⟩, ⟨positive, bounded, spelled, formed⟩, rfl, small, rfl⟩
    dsimp only at positive bounded spelled formed small
    have kind := payload.wire_lt
    simp only [FieldSpelling.bytes, List.length_append, List.append_assoc] at within ⊢
    have read := (readWireVarint_iff (key ++ (payload.bytes ++ rest)) _ _).2 ⟨key, rfl, spelled⟩
    rw [readField, read]
    dsimp only
    have tag : (number * 8 + payload.wire) / 8 = number
        ∧ (number * 8 + payload.wire) % 8 = payload.wire := by omega
    have behind : (payload.bytes ++ rest).length ≤ size := by
      rw [List.length_append]
      omega
    have detailed := (readDetail_iff behind _ rest).2 ⟨payload, formed, rfl, rfl, small, rfl⟩
    rw [(tag_parts _).1, (tag_parts _).2, if_neg (by omega), tag.1, tag.2, detailed]
    obtain ⟨keyEnd, stop⟩ := positions within
    simp only [FieldSpelling.field, FieldSpelling.bytes, List.length_append]
    rw [keyEnd, stop]

end Field

/-! ## The loop -/

theorem addEntry_iff {outputLimit reserve : Nat} {error : String} {entry output added : List UInt8} :
    addEntry outputLimit reserve error entry output = .ok added
      ↔ added = output ++ entry ∧ added.length + reserve ≤ outputLimit := by
  rw [addEntry]
  constructor
  · intro same
    split at same
    · cases same
    · next fits =>
      cases same
      rw [List.length_append]
      exact ⟨rfl, by omega⟩
  · rintro ⟨rfl, fits⟩
    rw [List.length_append] at fits
    rw [if_neg (by omega)]

theorem base64_quartets (input : List UInt8) :
    input.length ≤ (base64Encode false true input).length / 4 * 3 := by
  rw [base64Encode_length, if_pos rfl]
  obtain ⟨whole, -, -, -⟩ := base64_groups input.length
  obtain none | one | two : input.length % 3 = 0 ∨ input.length % 3 = 1 ∨ input.length % 3 = 2 := by
    omega
  · rw [none] at whole ⊢
    omega
  · rw [one] at whole ⊢
    omega
  · rw [two] at whole ⊢
    omega

/-- The Base64 text is longer than what it encodes, so a report within the limit is made of short
enough payloads. -/
theorem content_le {spelling : FieldSpelling} {offset outputLimit : Nat}
    (fits : (spelling.field offset).text.length ≤ outputLimit) :
    spelling.payload.content.length ≤ outputLimit / 4 * 3 := by
  obtain ⟨key, number, payload⟩ := spelling
  cases payload with
  | delimited lengthBytes content =>
      have quartets := base64_quartets content
      simp only [WireField.text, WireDetail.text, FieldSpelling.field, PayloadSpelling.detail,
        List.length_append] at fits
      dsimp only [PayloadSpelling.content]
      omega
  | varint => exact Nat.zero_le _
  | fixed64 => exact Nat.zero_le _
  | fixed32 => exact Nat.zero_le _

theorem wireBytes_cons (spelling : FieldSpelling) (spellings : List FieldSpelling) :
    wireBytes (spelling :: spellings) = spelling.bytes ++ wireBytes spellings := List.flatMap_cons

theorem FieldSpelling.WellFormed.bytes_ne_nil {spelling : FieldSpelling}
    (formed : spelling.WellFormed) : spelling.bytes ≠ [] := by
  rw [FieldSpelling.bytes, ne_eq, List.append_eq_nil_iff]
  exact fun none => formed.key.spells.ne_nil none.1

theorem wireBytes_eq_nil {spellings : List FieldSpelling}
    (formed : ∀ spelling ∈ spellings, spelling.WellFormed) (none : wireBytes spellings = []) :
    spellings = [] := by
  cases spellings with
  | nil => rfl
  | cons spelling rest =>
      rw [wireBytes_cons, List.append_eq_nil_iff] at none
      exact absurd none.1 (formed spelling List.mem_cons_self).bytes_ne_nil

/-- The result of the loop: fields in the rest of the input, within the budget and the limit. -/
structure Inspected (outputLimit : Nat) (position : Nat) (first : Bool) (input output : List UInt8)
    (budget : Nat) (result : List UInt8) (left : Nat) (spellings : List FieldSpelling) : Prop where
  formed : ∀ spelling ∈ spellings, spelling.WellFormed
  split : input = wireBytes spellings
  budget_eq : spellings.length + left = budget
  result_eq : result = output ++ listed WireField.text first (located position spellings)
  fits : spellings ≠ [] → result.length + 2 ≤ outputLimit

theorem inspectFields_nil_iff {size outputLimit fuel : Nat} (first : Bool) (output : List UInt8)
    (budget : Nat) (result : List UInt8) (left position : Nat) :
    inspectFields size outputLimit fuel first [] output budget = .ok (result, left)
      ↔ ∃ spellings, Inspected outputLimit position first [] output budget result left spellings := by
  rw [inspectFields]
  constructor
  · intro same
    cases same
    refine ⟨[], by simp, rfl, Nat.zero_add _, ?_, by simp⟩
    simp [listed]
  · rintro ⟨spellings, inspected⟩
    have none := wireBytes_eq_nil inspected.formed inspected.split.symm
    subst none
    have same := inspected.result_eq
    have count := inspected.budget_eq
    simp only [located_nil, listed, List.append_nil, List.length_nil, Nat.zero_add] at same count
    rw [same, count]

/-- One turn of the loop. -/
theorem inspected_cons_iff {outputLimit position budget left : Nat} {first : Bool}
    {byte : UInt8} {more output result : List UInt8} :
    (∃ spellings, Inspected outputLimit position first (byte :: more) output budget result left
        spellings)
      ↔ ∃ (spelling : FieldSpelling) (rest : List UInt8) (remaining : Nat),
          spelling.WellFormed ∧ byte :: more = spelling.bytes ++ rest ∧ budget = remaining + 1
            ∧ (output ++ (separator first ++ (spelling.field position).text)).length + 2 ≤ outputLimit
            ∧ ∃ spellings, Inspected outputLimit (position + spelling.bytes.length) false rest
                (output ++ (separator first ++ (spelling.field position).text)) remaining result left
                spellings := by
  constructor
  · rintro ⟨spellings, formed, split, count, rfl, fits⟩
    cases spellings with
    | nil => cases split
    | cons spelling spellings =>
        have fits := fits (List.cons_ne_nil _ _)
        simp only [located_cons, listed, List.append_assoc] at fits ⊢
        rw [List.length_cons] at count
        refine ⟨spelling, wireBytes spellings, spellings.length + left, formed _ List.mem_cons_self,
          by rw [split, wireBytes_cons], by omega, ?_, spellings,
          fun other inside => formed _ (List.mem_cons_of_mem _ inside), rfl, rfl, ?_, fun _ => fits⟩
        · simp only [List.length_append] at fits ⊢
          omega
        · simp only [List.append_assoc]
  · rintro ⟨spelling, rest, remaining, formed, split, rfl, short, spellings, inspected⟩
    refine ⟨spelling :: spellings, List.forall_mem_cons.2 ⟨formed, inspected.formed⟩, ?_, ?_, ?_, ?_⟩
    · rw [split, wireBytes_cons, inspected.split]
    · rw [List.length_cons, ← inspected.budget_eq]
      omega
    · rw [inspected.result_eq]
      simp only [located_cons, listed, List.append_assoc]
    · intro _
      cases spellings with
      | nil =>
          have same := inspected.result_eq
          rw [located_nil, listed, List.append_nil] at same
          rwa [same]
      | cons => exact inspected.fits (List.cons_ne_nil _ _)

theorem inspectFields_iff {size outputLimit fuel : Nat} {input : List UInt8}
    (within : input.length ≤ size) (enough : input.length ≤ fuel) (first : Bool)
    (output : List UInt8) (budget : Nat) (result : List UInt8) (left : Nat) :
    inspectFields size outputLimit fuel first input output budget = .ok (result, left)
      ↔ ∃ spellings, Inspected outputLimit (size - input.length) first input output budget result
          left spellings := by
  induction fuel generalizing input first output budget with
  | zero =>
      have none : input = [] := List.length_eq_zero_iff.1 (Nat.le_zero.1 enough)
      subst none
      exact inspectFields_nil_iff first output budget result left _
  | succ fuel ih =>
      cases input with
      | nil => exact inspectFields_nil_iff first output budget result left _
      | cons byte more =>
          rw [inspected_cons_iff]
          have shorter : ∀ {spelling : FieldSpelling} {rest : List UInt8}, spelling.WellFormed →
              byte :: more = spelling.bytes ++ rest → rest.length < (byte :: more).length
                ∧ size - rest.length = size - (byte :: more).length + spelling.bytes.length := by
            intro spelling rest formed split
            have some := List.length_pos_iff.2 formed.bytes_ne_nil
            rw [split, List.length_append] at within ⊢
            omega
          cases budget with
          | zero =>
              constructor
              · intro impossible
                cases impossible
              · rintro ⟨spelling, rest, remaining, -, -, none, -⟩
                cases none
          | succ budget =>
              constructor
              · intro same
                rw [inspectFields] at same
                split at same
                · cases same
                next field rest read =>
                split at same
                · cases same
                next added entry =>
                obtain ⟨spelling, formed, split, small, rfl⟩ := (readField_iff within _ _).1 read
                obtain ⟨rfl, fits⟩ := addEntry_iff.1 entry
                obtain ⟨less, moved⟩ := shorter formed split
                rw [ih (by omega) (by omega), moved] at same
                exact ⟨spelling, rest, budget, formed, split, rfl, fits, same⟩
              · rintro ⟨spelling, rest, remaining, formed, split, count, fits, inspected⟩
                obtain ⟨less, moved⟩ := shorter formed split
                cases count
                have short : (spelling.field (size - (byte :: more).length)).text.length
                    ≤ outputLimit := by
                  simp only [List.length_append] at fits
                  omega
                have read := (readField_iff within _ rest).2
                  ⟨spelling, formed, split, content_le short, rfl⟩
                rw [inspectFields, read]
                dsimp only
                rw [addEntry_iff.2 ⟨rfl, fits⟩]
                dsimp only
                rw [ih (by omega) (by omega), moved]
                exact inspected

theorem finish_iff {outputLimit : Nat} {error : String} {output report : List UInt8} :
    finish outputLimit error output = .ok report ↔ report = output ∧ output.length ≤ outputLimit := by
  rw [finish]
  split
  · next exceeded =>
      constructor
      · intro impossible
        cases impossible
      · rintro ⟨-, fits⟩
        exact absurd fits (not_le.2 exceeded)
  · next fits =>
      constructor
      · intro same
        cases same
        exact ⟨rfl, not_lt.1 fits⟩
      · rintro ⟨rfl, -⟩
        rfl

/-- The inspection succeeds exactly on the sequences of well-formed fields within the budget whose
report is within the limit. -/
theorem inspectProtobuf_iff (input : List UInt8) (outputLimit fieldBudget : Nat)
    (report : List UInt8) (left : Nat) :
    inspectProtobuf input outputLimit fieldBudget = .ok (report, left)
      ↔ ∃ spellings : List FieldSpelling, (∀ spelling ∈ spellings, spelling.WellFormed)
          ∧ input = wireBytes spellings ∧ spellings.length + left = fieldBudget
          ∧ report = protobufReport (located 0 spellings) ∧ report.length ≤ outputLimit := by
  have loop := fun result => @inspectFields_iff input.length outputLimit input.length input le_rfl
    le_rfl true protobufHeader fieldBudget result left
  rw [Nat.sub_self] at loop
  constructor
  · intro same
    rw [inspectProtobuf] at same
    split at same
    · cases same
    next output remaining fields =>
    split at same
    · cases same
    next finished =>
    cases same
    obtain ⟨rfl, fits⟩ := finish_iff.1 finished
    obtain ⟨spellings, inspected⟩ := (loop output).1 fields
    have result := inspected.result_eq
    subst result
    exact ⟨spellings, inspected.formed, inspected.split, inspected.budget_eq, rfl, fits⟩
  · rintro ⟨spellings, formed, split, count, rfl, fits⟩
    have fields := (loop (protobufHeader ++ listed WireField.text true (located 0 spellings))).2
      ⟨spellings, formed, split, count, rfl, fun _ => by
        rw [protobufReport, List.length_append] at fits
        exact fits⟩
    rw [inspectProtobuf, fields]
    dsimp only
    have finished : finish outputLimit protobufExceeded
        (protobufHeader ++ listed WireField.text true (located 0 spellings)
          ++ ascii "]\x7d") = .ok (protobufReport (located 0 spellings)) :=
      finish_iff.2 ⟨rfl, fits⟩
    rw [finished]

/-! ## Partition -/

/-- The field is what the wire format spells at its offset of the input. -/
def WireField.ReadsAt (input : List UInt8) (field : WireField) : Prop :=
  ∃ spelling : FieldSpelling, spelling.WellFormed ∧ field = spelling.field field.offset
    ∧ (input.drop field.offset).take (field.stop - field.offset) = spelling.bytes

/-- The ranges of the fields, and what stands there. -/
structure Partitions (input : List UInt8) (fields : List WireField) : Prop where
  adjoin : Theory.Segments.Adjoin 0 input.length (fields.map fun field => (field.offset, field.stop))
  reads : ∀ field ∈ fields, field.ReadsAt input

theorem partitions_located {spellings : List FieldSpelling}
    (formed : ∀ spelling ∈ spellings, spelling.WellFormed) :
    Partitions (wireBytes spellings) (located 0 spellings) := by
  constructor
  · have ranges := Theory.Segments.adjoin_placed FieldSpelling.bytes
      (fun spelling inside => (formed spelling inside).bytes_ne_nil) 0
    rw [Nat.zero_add] at ranges
    rw [located, List.map_map]
    exact ranges
  · intro field inside
    obtain ⟨p, place, rfl⟩ := List.mem_map.1 inside
    refine ⟨p.2, formed _ (Theory.Segments.mem_of_placed _ place), rfl, ?_⟩
    have window := Theory.Segments.window_placed FieldSpelling.bytes [] spellings p place
    rw [List.nil_append] at window
    simp only [FieldSpelling.field, Nat.add_sub_cancel_left]
    exact window

end Reb.Analysis.WireInspect
