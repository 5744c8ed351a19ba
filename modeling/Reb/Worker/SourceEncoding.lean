/-
# Worker.SourceEncoding -- the two passes of the text encoder agree

The encoder accepts a string exactly when it spells characters whose UTF-8 form fits, the
size that the first pass counts is the size that the second pass writes, and what is
written is the UTF-8 form (`encode_exact`).
-/
import Reb.Worker.NativeWorkerSource

namespace Reb.Worker.Source

set_option autoImplicit false

open Reb.Theory Reb.Theory.Utf8

/-! ## One character -/

theorem continuation {n : Nat} : 0x80 ||| (n &&& 0x3f) = n % 0x40 + 0x80 := by
  have low : n &&& 0x3f = n % 0x40 := Nat.and_two_pow_sub_one_eq_mod n 6
  have small : ∀ x < 0x40, 0x80 ||| x = x + 0x80 := by decide
  rw [low, small _ (Nat.mod_lt _ (by decide))]

theorem pointSize_eq (c : Char) : pointSize c.toNat = (String.utf8EncodeChar c).length := by
  rw [pointSize, String.utf8EncodeChar]
  have same : c.val.toNat = c.toNat := rfl
  simp only [same]
  split
  · rw [if_pos (by omega)]
    rfl
  · split
    · rw [if_neg (by omega), if_pos (by omega)]
      rfl
    · split
      · rw [if_neg (by omega), if_neg (by omega), if_pos (by omega)]
        rfl
      · rw [if_neg (by omega), if_neg (by omega), if_neg (by omega)]
        rfl

theorem set_at (done rest : List UInt8) (k : Nat) (byte : UInt8) :
    (done ++ rest).set (done.length + k) byte = done ++ rest.set k byte := by
  rw [List.set_append_right _ _ (Nat.le_add_right _ _), Nat.add_sub_cancel_left]

/-- The bytes of a character take the place of as many bytes of the output. -/
theorem writePoint_char (c : Char) (done rest : List UInt8)
    (room : pointSize c.toNat ≤ rest.length) :
    writePoint (done ++ rest) done.length (pointSize c.toNat) c.toNat
      = done ++ String.utf8EncodeChar c ++ rest.drop (pointSize c.toNat) := by
  have first (bytes : List UInt8) (byte : UInt8) :
      (done ++ bytes).set done.length byte = done ++ bytes.set 0 byte := set_at done bytes 0 byte
  have range := Utf16.toNat_char_lt c
  have same : c.val.toNat = c.toNat := rfl
  have two : ∀ x < 0x20, 0xc0 ||| x = x % 0x20 + 0xc0 := by decide
  have three : ∀ x < 0x10, 0xe0 ||| x = x % 0x10 + 0xe0 := by decide
  have four : ∀ x < 0x08, 0xf0 ||| x = x % 0x08 + 0xf0 := by decide
  have shift (n : Nat) : n >>> 6 = n / 64 := Nat.shiftRight_eq_div_pow n 6
  rw [String.utf8EncodeChar]
  simp only [same]
  unfold pointSize at room ⊢
  split at room
  · next small =>
      obtain ⟨a, rest, rfl⟩ := List.exists_cons_of_length_pos room
      rw [if_pos small, if_pos (by omega), writePoint, if_pos rfl, first]
      simp
  next large =>
  split at room
  · next small =>
      obtain ⟨a, b, rest, rfl⟩ : ∃ a b more, rest = a :: b :: more := by
        match rest, room with
        | a :: b :: more, _ => exact ⟨a, b, more, rfl⟩
      rw [if_neg large, if_pos small, if_neg (by omega), if_pos (by omega), writePoint,
        if_neg (by decide)]
      simp only [writeTail, set_at, first, continuation, shift, if_true]
      rw [two _ (by omega)]
      simp
  next larger =>
  split at room
  · next small =>
      obtain ⟨a, b, d, rest, rfl⟩ : ∃ a b d more, rest = a :: b :: d :: more := by
        match rest, room with
        | a :: b :: d :: more, _ => exact ⟨a, b, d, more, rfl⟩
      rw [if_neg large, if_neg larger, if_pos small, if_neg (by omega), if_neg (by omega),
        if_pos (by omega), writePoint, if_neg (by decide)]
      simp only [writeTail, set_at, first, continuation, shift, if_true, Nat.div_div_eq_div_mul]
      rw [if_neg (by decide), three _ (by omega)]
      simp
  next largest =>
      obtain ⟨a, b, d, e, rest, rfl⟩ : ∃ a b d e more, rest = a :: b :: d :: e :: more := by
        match rest, room with
        | a :: b :: d :: e :: more, _ => exact ⟨a, b, d, e, more, rfl⟩
      rw [if_neg large, if_neg larger, if_neg largest, if_neg (by omega), if_neg (by omega),
        if_neg (by omega), writePoint, if_neg (by decide)]
      simp only [writeTail, set_at, first, continuation, shift, Nat.div_div_eq_div_mul]
      rw [if_neg (by decide), if_neg (by decide), four _ (by omega)]
      simp

/-! ## The units of one character -/

/-- The units of a well-formed text as the loop reads them. -/
def spelling (cs : List Char) : List Nat := (Utf16.encode cs).map UInt16.toNat

theorem spelling_cons (c : Char) (cs : List Char) :
    spelling (c :: cs) = (Utf16.encodeChar c).map UInt16.toNat ++ spelling cs := by
  rw [spelling, Utf16.encode, List.flatMap_cons, List.map_append]
  rfl

theorem utf8_cons_length (c : Char) (cs : List Char) :
    (utf8 (c :: cs)).length = pointSize c.toNat + (utf8 cs).length := by
  rw [utf8_cons, List.length_append, pointSize_eq]

/-- What a code point that is read whole does to the rest of the loop. -/
def afterPoint (limit : Nat) (more : List Nat) (output : List UInt8) (size point : Nat) :
    NativeWorkerCaptureStatus × List UInt8 × Nat :=
  match encodePoint limit output size point with
  | .error status => (status, output, size)
  | .ok (output, size) => encodeUnits limit more output size

theorem encodeUnits_point {limit : Nat} {unit : Nat} (plain : unit < 0xd800 ∨ 0xdfff < unit)
    (more : List Nat) (output : List UInt8) (size : Nat) :
    encodeUnits limit (unit :: more) output size = afterPoint limit more output size unit := by
  rw [encodeUnits.eq_def, afterPoint]
  dsimp only
  refine (if_neg (by omega)).trans ((if_neg (by omega)).trans ?_)
  cases encodePoint limit output size unit with
  | error status => rfl
  | ok next => rfl

theorem encodeUnits_pair {limit : Nat} {high low : Nat} (first : 0xd800 ≤ high ∧ high ≤ 0xdbff)
    (second : 0xdc00 ≤ low ∧ low ≤ 0xdfff) (more : List Nat) (output : List UInt8) (size : Nat) :
    encodeUnits limit (high :: low :: more) output size
      = afterPoint limit more output size (pairedPoint high low) := by
  rw [encodeUnits.eq_def, afterPoint]
  dsimp only
  refine (if_pos first).trans ((if_neg (by omega)).trans ?_)
  cases encodePoint limit output size (pairedPoint high low) with
  | error status => rfl
  | ok next => rfl

theorem pairedPoint_eq (high low : Nat) :
    pairedPoint high low = 0x10000 + (high - 0xd800) * 0x400 + (low - 0xdc00) := by
  unfold pairedPoint
  rw [Nat.shiftLeft_eq]

/-- The loop reads a character before it looks at what follows. -/
theorem encodeUnits_char (limit : Nat) (c : Char) (more : List Nat) (output : List UInt8)
    (size : Nat) :
    encodeUnits limit ((Utf16.encodeChar c).map UInt16.toNat ++ more) output size
      = afterPoint limit more output size c.toNat := by
  have range := Utf16.toNat_char_lt c
  rw [Utf16.encodeChar]
  split
  · next small =>
      rw [List.map_singleton, Utf16.toNat_ofNat_unit small, List.singleton_append,
        encodeUnits_point (by omega)]
  · next large =>
      have first : (UInt16.ofNat (0xd800 + (c.toNat - 0x10000) / 0x400)).toNat
          = 0xd800 + (c.toNat - 0x10000) / 0x400 := Utf16.toNat_ofNat_unit (by omega)
      have second : (UInt16.ofNat (0xdc00 + (c.toNat - 0x10000) % 0x400)).toNat
          = 0xdc00 + (c.toNat - 0x10000) % 0x400 := Utf16.toNat_ofNat_unit (by omega)
      rw [List.map_cons, List.map_singleton, first, second, List.cons_append, List.cons_append,
        List.nil_append, encodeUnits_pair (by omega) (by omega),
        (pairedPoint_eq _ _).trans (Utf16.pair_split (Nat.not_lt.1 large))]

/-! ## A run over well-formed text -/

section Runs

variable {limit size point : Nat} {output : List UInt8} {more : List Nat}

theorem afterPoint_over (beyond : limit - size < pointSize point) :
    afterPoint limit more output size point = (.tooLarge, output, size) := by
  rw [afterPoint, encodePoint, if_pos beyond]

theorem afterPoint_sized (room : pointSize point ≤ limit - size) :
    afterPoint limit more [] size point = encodeUnits limit more [] (size + pointSize point) := by
  rw [afterPoint, encodePoint, if_neg (Nat.not_lt.2 room), if_pos rfl]

theorem afterPoint_small (room : pointSize point ≤ limit - size) (given : output ≠ [])
    (small : output.length - size < pointSize point) :
    afterPoint limit more output size point = (.outputTooSmall, output, size) := by
  rw [afterPoint, encodePoint, if_neg (Nat.not_lt.2 room), if_neg given, if_pos small]

theorem afterPoint_written (room : pointSize point ≤ limit - size) (given : output ≠ [])
    (space : pointSize point ≤ output.length - size) :
    afterPoint limit more output size point
      = encodeUnits limit more (writePoint output size (pointSize point) point)
          (size + pointSize point) := by
  rw [afterPoint, encodePoint, if_neg (Nat.not_lt.2 room), if_neg given,
    if_neg (Nat.not_lt.2 space)]

theorem pointSize_pos (point : Nat) : 0 < pointSize point := by
  unfold pointSize
  split
  · decide
  · split
    · decide
    · split <;> decide

theorem encodeUnits_cons (c : Char) (cs : List Char) :
    encodeUnits limit (spelling (c :: cs) ++ more) output size
      = afterPoint limit (spelling cs ++ more) output size c.toNat := by
  rw [spelling_cons, List.append_assoc, encodeUnits_char]

/-- The sizing pass adds the lengths up. -/
theorem sizing_run (cs : List Char) (fits : size + (utf8 cs).length ≤ limit) :
    encodeUnits limit (spelling cs ++ more) [] size
      = encodeUnits limit more [] (size + (utf8 cs).length) := by
  induction cs generalizing size with
  | nil => rfl
  | cons c cs ih =>
      rw [utf8_cons_length] at fits ⊢
      rw [encodeUnits_cons, afterPoint_sized (by omega), ih (by omega), Nat.add_assoc]

theorem sizing_over (cs : List Char) (within : size ≤ limit)
    (beyond : limit < size + (utf8 cs).length) :
    (encodeUnits limit (spelling cs ++ more) [] size).1 = .tooLarge := by
  induction cs generalizing size with
  | nil => exact absurd beyond (Nat.not_lt.2 within)
  | cons c cs ih =>
      rw [utf8_cons_length] at beyond
      rw [encodeUnits_cons]
      by_cases room : pointSize c.toNat ≤ limit - size
      · rw [afterPoint_sized room, ih (by omega) (by omega)]
      · rw [afterPoint_over (Nat.not_le.1 room)]

/-- The writing pass leaves the UTF-8 form in the place of as many bytes. -/
theorem writing_run (cs : List Char) (done rest : List UInt8)
    (fits : done.length + (utf8 cs).length ≤ limit) (space : (utf8 cs).length ≤ rest.length) :
    encodeUnits limit (spelling cs ++ more) (done ++ rest) done.length
      = encodeUnits limit more (done ++ utf8 cs ++ rest.drop (utf8 cs).length)
          (done.length + (utf8 cs).length) := by
  induction cs generalizing done rest with
  | nil =>
      rw [utf8, List.flatMap_nil, List.append_nil]
      rfl
  | cons c cs ih =>
      have size := pointSize_eq c
      have first := pointSize_pos c.toNat
      rw [utf8_cons_length] at fits space ⊢
      have room : pointSize c.toNat ≤ rest.length := by omega
      have given : done ++ rest ≠ [] := by
        intro none
        rw [List.append_eq_nil_iff] at none
        rw [none.2] at room
        exact absurd first (Nat.not_lt.2 room)
      rw [encodeUnits_cons, afterPoint_written (by omega) given
        (by rw [List.length_append]; omega), writePoint_char c done rest room, utf8_cons,
        size, ← List.length_append, ih]
      · rw [List.length_append, List.drop_drop, List.append_assoc done, Nat.add_assoc]
      · rw [List.length_append]
        omega
      · rw [List.length_drop]
        omega

theorem writeTail_length (size byte : Nat) (output : List UInt8) (point : Nat) :
    (writeTail size byte output point).1.length = output.length := by
  induction byte generalizing output point with
  | zero => rfl
  | succ byte ih => rw [writeTail, ih, List.length_set]

theorem writePoint_length (count : Nat) :
    (writePoint output size count point).length = output.length := by
  unfold writePoint
  split
  · exact List.length_set
  · dsimp only
    rw [List.length_set, writeTail_length]

/-- A run that is accepted had room for what it read. -/
theorem accepted_room (cs : List Char) (within : size ≤ limit)
    (inside : output = [] ∨ size ≤ output.length)
    (accepted : (encodeUnits limit (spelling cs ++ more) output size).1 = .accepted) :
    size + (utf8 cs).length ≤ limit ∧ (output = [] ∨ size + (utf8 cs).length ≤ output.length) := by
  induction cs generalizing size output with
  | nil => exact ⟨within, inside⟩
  | cons c cs ih =>
      rw [encodeUnits_cons] at accepted
      rw [utf8_cons_length, ← Nat.add_assoc]
      by_cases room : pointSize c.toNat ≤ limit - size
      · by_cases given : output = []
        · subst given
          rw [afterPoint_sized room] at accepted
          exact ih (by omega) (.inl rfl) accepted
        · have start := inside.resolve_left given
          by_cases space : pointSize c.toNat ≤ output.length - size
          · rw [afterPoint_written room given space] at accepted
            have left := ih (by omega) (.inr (by rw [writePoint_length]; omega)) accepted
            rw [writePoint_length] at left
            refine ⟨left.1, .inr ?_⟩
            rcases left.2 with none | enough
            · have length := congrArg List.length none
              rw [writePoint_length] at length
              exact absurd (List.length_eq_zero_iff.1 length) given
            · exact enough
          · rw [afterPoint_small room given (Nat.not_le.1 space)] at accepted
            cases accepted
      · rw [afterPoint_over (Nat.not_le.1 room)] at accepted
        cases accepted

end Runs

/-! ## Any text -/

/-- The units as the loop reads them. -/
def CodeUnits.numbers : CodeUnits → List Nat
  | .inl bytes => bytes.map UInt8.toNat
  | .inr units => units.map UInt16.toNat

theorem encode_text (units : CodeUnits) (output : List UInt8) (limit : Nat) :
    encode units.text output limit
      = if limit < units.numbers.length then (.tooLarge, output, 0)
        else encodeUnits limit units.numbers output 0 := by
  cases units with
  | inl bytes => simp [encode, CodeUnits.text, CodeUnits.numbers]
  | inr units =>
      by_cases none : units = []
      · subst none
        simp [encode, CodeUnits.text, CodeUnits.numbers]
      · simp [encode, CodeUnits.text, CodeUnits.numbers, none]

theorem spelling_byte (byte : UInt8) :
    (Utf16.encodeChar (.ofNat byte.toNat)).map UInt16.toNat = [byte.toNat] := by
  have small := byte.toNat_lt
  have same : (Char.ofNat byte.toNat).toNat = byte.toNat :=
    Utf16.toNat_ofNat_char (.inl (by omega))
  rw [Utf16.encodeChar, same, if_pos (by omega), List.map_singleton,
    Utf16.toNat_ofNat_unit (by omega)]

theorem numbers_spelled {units : CodeUnits} {cs : List Char} (spells : Spells units cs) :
    units.numbers = spelling cs := by
  cases units with
  | inr units =>
      subst spells
      rfl
  | inl bytes =>
      subst spells
      rw [CodeUnits.numbers]
      induction bytes with
      | nil => rfl
      | cons byte bytes ih => rw [List.map_cons, List.map_cons, spelling_cons, spelling_byte, ih]; rfl

theorem encodeChar_length_le (c : Char) : (Utf16.encodeChar c).length ≤ pointSize c.toNat := by
  rw [Utf16.encodeChar]
  split
  · exact pointSize_pos c.toNat
  · next large =>
      rw [pointSize, if_neg (by omega), if_neg (by omega), if_neg large, List.length_cons,
        List.length_singleton]
      decide

/-- A text has no more units than its UTF-8 form has bytes. -/
theorem spelling_length_le (cs : List Char) : (spelling cs).length ≤ (utf8 cs).length := by
  induction cs with
  | nil => exact Nat.le_refl 0
  | cons c cs ih =>
      rw [spelling_cons, utf8_cons_length, List.length_append, List.length_map]
      exact Nat.add_le_add (encodeChar_length_le c) ih

/-- What spells nothing has a lone surrogate after the characters it begins with. -/
theorem numbers_lone {units : CodeUnits} (ill : ¬ ∃ cs, Spells units cs) :
    ∃ cs rest, units.numbers = spelling cs ++ rest.map UInt16.toNat ∧ Utf16.Lone rest := by
  cases units with
  | inl bytes => exact absurd ⟨_, rfl⟩ ill
  | inr units =>
      obtain ⟨cs, rfl | ⟨rest, rfl, lone⟩⟩ := Utf16.encode_or_lone units
      · exact absurd ⟨cs, rfl⟩ ill
      · exact ⟨cs, rest, List.map_append, lone⟩

theorem encodeUnits_lone {limit size : Nat} {output : List UInt8} {units : List UInt16}
    (lone : Utf16.Lone units) :
    encodeUnits limit (units.map UInt16.toNat) output size = (.invalid, output, size) := by
  obtain ⟨unit, rest, rfl, surrogate, unpaired⟩ := lone
  rw [List.map_cons, encodeUnits.eq_def]
  dsimp only
  by_cases high : Utf16.isHigh unit = true
  · rw [if_pos (Utf16.isHigh_iff.1 high)]
    cases rest with
    | nil => rfl
    | cons low rest =>
        have plain := unpaired high low rfl
        rw [← Bool.not_eq_true, Utf16.isLow_iff] at plain
        rw [List.map_cons]
        dsimp only
        rw [if_pos (by omega)]
  · have low := surrogate.resolve_left high
    rw [Utf16.isHigh_iff] at high
    rw [if_neg high, if_pos (Utf16.isLow_iff.1 low)]

/-- No output and no limit make a lone surrogate acceptable. -/
theorem lone_refused {limit size : Nat} {output : List UInt8} {units : List UInt16}
    (lone : Utf16.Lone units) (cs : List Char)
    (accepted : (encodeUnits limit (spelling cs ++ units.map UInt16.toNat) output size).1
      = .accepted) : False := by
  induction cs generalizing output size with
  | nil =>
      rw [spelling, Utf16.encode, List.flatMap_nil, List.map_nil, List.nil_append,
        encodeUnits_lone lone] at accepted
      cases accepted
  | cons c cs ih =>
      rw [encodeUnits_cons] at accepted
      by_cases room : pointSize c.toNat ≤ limit - size
      · by_cases given : output = []
        · subst given
          rw [afterPoint_sized room] at accepted
          exact ih accepted
        · by_cases space : pointSize c.toNat ≤ output.length - size
          · rw [afterPoint_written room given space] at accepted
            exact ih accepted
          · rw [afterPoint_small room given (Nat.not_le.1 space)] at accepted
            cases accepted
      · rw [afterPoint_over (Nat.not_le.1 room)] at accepted
        cases accepted

theorem encode_spelled {units : CodeUnits} {cs : List Char} (spells : Spells units cs)
    {limit : Nat} (fits : (utf8 cs).length ≤ limit) (output : List UInt8) :
    encode units.text output limit = encodeUnits limit (spelling cs ++ []) output 0 := by
  have units := spelling_length_le cs
  rw [encode_text, numbers_spelled spells, if_neg (by omega), List.append_nil]

/-- The size that is counted first. -/
theorem encode_sized {units : CodeUnits} {cs : List Char} (spells : Spells units cs)
    {limit : Nat} (fits : (utf8 cs).length ≤ limit) :
    encode units.text [] limit = (.accepted, [], (utf8 cs).length) := by
  rw [encode_spelled spells fits, sizing_run cs (by omega), encodeUnits, Nat.zero_add]

/-- What is written then. -/
theorem encode_written {units : CodeUnits} {cs : List Char} (spells : Spells units cs)
    {limit : Nat} (fits : (utf8 cs).length ≤ limit) {output : List UInt8}
    (space : (utf8 cs).length ≤ output.length) :
    encode units.text output limit
      = (.accepted, utf8 cs ++ output.drop (utf8 cs).length, (utf8 cs).length) := by
  have run := @writing_run limit [] cs [] output (by simpa using fits) space
  rw [encode_spelled spells fits]
  simpa [encodeUnits] using run

theorem encode_over {units : CodeUnits} {cs : List Char} (spells : Spells units cs) {limit : Nat}
    (beyond : limit < (utf8 cs).length) : (encode units.text [] limit).1 = .tooLarge := by
  rw [encode_text, numbers_spelled spells]
  split
  · rfl
  · have run := @sizing_over limit 0 [] cs (Nat.zero_le _) (by omega)
    rwa [List.append_nil] at run

/-- A lone surrogate is reported, unless the text before it is too large already. -/
theorem encode_ill {units : CodeUnits} (ill : ¬ ∃ cs, Spells units cs) (limit : Nat) :
    (encode units.text [] limit).1 = .invalid ∨
      (encode units.text [] limit).1 = .tooLarge ∧
        (limit < units.numbers.length ∨ ∃ cs, spelling cs <+: units.numbers ∧
          limit < (utf8 cs).length) := by
  obtain ⟨cs, rest, numbers, lone⟩ := numbers_lone ill
  rw [encode_text]
  split
  · next beyond => exact .inr ⟨rfl, .inl beyond⟩
  · rw [numbers]
    by_cases fits : (utf8 cs).length ≤ limit
    · rw [sizing_run cs (by omega), encodeUnits_lone lone]
      exact .inl rfl
    · rw [Nat.not_le] at fits
      exact .inr ⟨sizing_over cs (Nat.zero_le _) (by omega), .inr ⟨cs, List.prefix_append _ _, fits⟩⟩

theorem encode_accepted {units : CodeUnits} {output : List UInt8} {limit : Nat}
    (accepted : (encode units.text output limit).1 = .accepted) :
    ∃ cs, Spells units cs ∧ (utf8 cs).length ≤ limit ∧
      (output = [] ∨ (utf8 cs).length ≤ output.length) := by
  rw [encode_text] at accepted
  split at accepted
  · cases accepted
  · by_cases well : ∃ cs, Spells units cs
    · obtain ⟨cs, spells⟩ := well
      rw [numbers_spelled spells, ← List.append_nil (spelling cs)] at accepted
      have room := accepted_room cs (Nat.zero_le _) (.inr (Nat.zero_le _)) accepted
      rw [Nat.zero_add] at room
      exact ⟨cs, spells, room⟩
    · obtain ⟨cs, rest, numbers, lone⟩ := numbers_lone well
      rw [numbers] at accepted
      exact (lone_refused lone cs accepted).elim

/-! ## What is captured -/

theorem capturedSource_ok {units : CodeUnits} {slot bytes : List UInt8}
    (slots : slot.length = kNativeWorkerSourceMaxBytes) :
    capturedSource units.text slot = .ok bytes ↔
      ∃ cs, Spells units cs ∧ (utf8 cs).length ≤ kNativeWorkerSourceMaxBytes ∧
        bytes = utf8 cs := by
  constructor
  · intro captured
    unfold capturedSource at captured
    split at captured
    · next sized =>
        obtain ⟨cs, spells, fits, _⟩ := encode_accepted (congrArg Prod.fst sized)
        rw [encode_written spells fits (by rw [slots]; exact fits)] at captured
        dsimp only at captured
        rw [List.take_left] at captured
        exact ⟨cs, spells, fits, (Except.ok.inj captured).symm⟩
    · cases captured
  · rintro ⟨cs, spells, fits, rfl⟩
    rw [capturedSource, encode_sized spells fits]
    dsimp only
    rw [encode_written spells fits (by rw [slots]; exact fits)]
    dsimp only
    rw [List.take_left]

theorem capturedSource_error {units : CodeUnits} {slot : List UInt8}
    {status : NativeWorkerCaptureStatus} (slots : slot.length = kNativeWorkerSourceMaxBytes)
    (failed : capturedSource units.text slot = .error status) :
    status = .invalid ∨ status = .tooLarge := by
  by_cases well : ∃ cs, Spells units cs
  · obtain ⟨cs, spells⟩ := well
    by_cases fits : (utf8 cs).length ≤ kNativeWorkerSourceMaxBytes
    · have kept := (capturedSource_ok slots).2 ⟨cs, spells, fits, rfl⟩
      rw [kept] at failed
      cases failed
    · have beyond := encode_over spells (Nat.not_le.1 fits)
      unfold capturedSource at failed
      split at failed
      · next sized =>
          rw [sized] at beyond
          cases beyond
      · next sized =>
          rw [sized] at beyond
          exact .inr ((Except.error.inj failed).symm.trans beyond)
  · have ill := encode_ill well kNativeWorkerSourceMaxBytes
    unfold capturedSource at failed
    split at failed
    · next sized =>
        rw [sized] at ill
        rcases ill with invalid | ⟨large, _⟩
        · cases invalid
        · cases large
    · next sized =>
        rw [sized, Except.error.inj failed] at ill
        exact ill.imp id And.left

/-- A text is accepted exactly when it spells characters whose UTF-8 form fits; the size
counted first is the size written then, and what is written is the UTF-8 form.  Anything
else is reported, and nothing of it is captured. -/
theorem encode_exact (units : CodeUnits) (limit : Nat) (output : List UInt8) :
    ((encode units.text output limit).1 = .accepted ↔
      ∃ cs, Spells units cs ∧ (utf8 cs).length ≤ limit ∧
        (output = [] ∨ (utf8 cs).length ≤ output.length)) ∧
    (∀ cs, Spells units cs → (utf8 cs).length ≤ limit →
      encode units.text [] limit = (.accepted, [], (utf8 cs).length) ∧
      ((utf8 cs).length ≤ output.length → encode units.text output limit
        = (.accepted, utf8 cs ++ output.drop (utf8 cs).length, (utf8 cs).length))) ∧
    (∀ cs, Spells units cs → limit < (utf8 cs).length →
      (encode units.text [] limit).1 = .tooLarge) ∧
    ((¬ ∃ cs, Spells units cs) → (encode units.text [] limit).1 = .invalid ∨
      (encode units.text [] limit).1 = .tooLarge ∧
        (limit < units.numbers.length ∨ ∃ cs, spelling cs <+: units.numbers ∧
          limit < (utf8 cs).length)) ∧
    (∀ slot : List UInt8, slot.length = kNativeWorkerSourceMaxBytes →
      (∀ bytes, capturedSource units.text slot = .ok bytes ↔
        ∃ cs, Spells units cs ∧ (utf8 cs).length ≤ kNativeWorkerSourceMaxBytes ∧
          bytes = utf8 cs) ∧
      (∀ status, capturedSource units.text slot = .error status →
        status = .invalid ∨ status = .tooLarge)) := by
  refine ⟨⟨encode_accepted, ?_⟩, ?_, ?_, ?_, ?_⟩
  · rintro ⟨cs, spells, fits, rfl | space⟩
    · rw [encode_sized spells fits]
    · rw [encode_written spells fits space]
  · intro cs spells fits
    exact ⟨encode_sized spells fits, fun space => encode_written spells fits space⟩
  · intro cs spells beyond
    exact encode_over spells beyond
  · intro ill
    exact encode_ill ill limit
  · intro slot slots
    exact ⟨fun bytes => capturedSource_ok slots, fun status => capturedSource_error slots⟩

end Reb.Worker.Source
