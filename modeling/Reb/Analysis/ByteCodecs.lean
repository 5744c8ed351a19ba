/-
# Analysis.ByteCodecs -- the byte codecs of the decoder

`TransformBytes` picks a codec and checks the byte limits.  Decoding undoes encoding for
Base64 in both alphabets, hexadecimal and percent escapes (`codecs_invert`), and standard
Base64 has one accepted spelling for each value (`base64Encode_decode`).
-/
import Reb.Analysis.Base36
import Reb.Analysis.Base64
import Reb.Analysis.Utf8Exact

namespace Reb.Analysis

set_option autoImplicit false

/-! ## Hexadecimal -/

/-- `std::isspace` -/
def isSpace (byte : UInt8) : Bool := byte == 0x20 || (0x09 ≤ byte && byte ≤ 0x0d)

def isHexMark (byte : UInt8) : Bool := byte == 0x78 || byte == 0x58

/-- The digits of a hexadecimal text, without separators and `0x`. -/
def hexDigits : List UInt8 → Option (List UInt8)
  | [] => some []
  | byte :: rest =>
      if isSpace byte || byte == colon || byte == 0x2d then hexDigits rest
      else if byte == 0x30 && rest.head?.any isHexMark then
        match rest with
        | [] => some []
        | _ :: rest => hexDigits rest
      else if (hexValue byte).isNone then none
      else (hexDigits rest).map (byte :: ·)

def hexPairs : List UInt8 → List UInt8
  | high :: low :: rest =>
      .ofNat ((((hexValue high).getD 0) <<< 4) ||| ((hexValue low).getD 0)) :: hexPairs rest
  | _ => []

def hexDecode (input : List UInt8) (outputLimit : Nat) : DecoderResult :=
  match hexDigits input with
  | none => .failure .invalidInput "Hex input contains an invalid character"
  | some digits =>
      if digits.length % 2 ≠ 0 then
        .failure .invalidInput "Hex input must contain complete byte pairs"
      else if digits.length / 2 > outputLimit then
        .failure .outputLimit "Decoded output exceeds the configured byte limit"
      else .success (hexPairs digits)

/-- `kHex` of the hexadecimal encoder. -/
def kHex : List UInt8 := Theory.Decimal.ascii "0123456789abcdef"

/-- `kHex` of the URL encoder. -/
def kUpperHex : List UInt8 := Theory.Decimal.ascii "0123456789ABCDEF"

def hexEncode (input : List UInt8) : List UInt8 :=
  input.flatMap fun byte : UInt8 =>
    [kHex.getD (byte >>> 4).toNat 0, kHex.getD (byte &&& 0x0f).toNat 0]

/-! ## Percent escapes -/

def isUrlUnreserved (byte : UInt8) : Bool :=
  (0x41 ≤ byte && byte ≤ 0x5a) || (0x61 ≤ byte && byte ≤ 0x7a) || (0x30 ≤ byte && byte ≤ 0x39)
    || byte == 0x2d || byte == 0x2e || byte == 0x5f || byte == 0x7e

abbrev percent : UInt8 := 0x25

/-- The loop over the sizes; `none` once they exceed the limit. -/
def urlSize (outputLimit : Nat) : List UInt8 → Nat → Option Nat
  | [], size => some size
  | byte :: rest, size =>
      let size := size + if isUrlUnreserved byte then 1 else 3
      if size > outputLimit then none else urlSize outputLimit rest size

def urlEscape (byte : UInt8) : List UInt8 :=
  if isUrlUnreserved byte then [byte]
  else [percent, kUpperHex.getD (byte >>> 4).toNat 0, kUpperHex.getD (byte &&& 0x0f).toNat 0]

def urlEncode (input : List UInt8) (outputLimit : Nat) : DecoderResult :=
  match urlSize outputLimit input 0 with
  | none => .failure .outputLimit "Encoded output exceeds the configured byte limit"
  | some _ => .success (input.flatMap urlEscape)

/-- The loop of `UrlDecode`. -/
def urlDecodeLoop : List UInt8 → List UInt8 → DecoderResult
  | [], output => .success output
  | byte :: rest, output =>
      if byte ≠ percent then urlDecodeLoop rest (output ++ [byte])
      else
        match rest with
        | high :: low :: rest =>
            match hexValue high, hexValue low with
            | some high, some low => urlDecodeLoop rest (output ++ [.ofNat ((high <<< 4) ||| low)])
            | _, _ => .failure .invalidInput "URL input contains an invalid percent escape"
        | _ => .failure .invalidInput "URL input ends inside a percent escape"

def urlDecode (input : List UInt8) (outputLimit : Nat) : DecoderResult :=
  if input.length > outputLimit then
    .failure .outputLimit "Decoded output exceeds the configured byte limit"
  else urlDecodeLoop input []

/-! ## The operations -/

def kDecoderMaxInputBytes : Nat := 1 <<< 20

def kDecoderMaxOutputBytes : Nat := 1 <<< 20

/-- The operations of the decoder on bytes alone. -/
inductive DecoderOperation where
  | base64Encode | base64Decode | base64UrlEncode | base64UrlDecode | hexEncode | hexDecode
  | urlEncode | urlDecode | base36Encode | base36Decode
  deriving DecidableEq, Repr

/-- The operations themselves. -/
def transform (input : List UInt8) (outputLimit : Nat) : DecoderOperation → DecoderResult
  | .base64Encode =>
      if (input.length + 2) / 3 * 4 > outputLimit then
        .failure .outputLimit "Encoded output exceeds the configured byte limit"
      else .success (base64Encode false true input)
  | .base64Decode => base64Decode input false outputLimit
  | .base64UrlEncode =>
      if (input.length * 4 + 2) / 3 > outputLimit then
        .failure .outputLimit "Encoded output exceeds the configured byte limit"
      else .success (base64Encode true false input)
  | .base64UrlDecode => base64Decode input true outputLimit
  | .hexEncode =>
      if input.length > outputLimit / 2 then
        .failure .outputLimit "Hex output exceeds the configured byte limit"
      else .success (hexEncode input)
  | .hexDecode => hexDecode input outputLimit
  | .urlEncode => urlEncode input outputLimit
  | .urlDecode => urlDecode input outputLimit
  | .base36Encode =>
      if input.length > 4 <<< 10 then
        .failure .invalidInput "Base36 integers are limited to 4 KiB of digits"
      else decimalToBase36 input outputLimit
  | .base36Decode =>
      if input.length > 4 <<< 10 then
        .failure .invalidInput "Base36 integers are limited to 4 KiB of digits"
      else base36ToDecimal input outputLimit

def transformBytes (operation : DecoderOperation) (input : List UInt8) (outputLimit : Nat) :
    DecoderResult :=
  if input.length > kDecoderMaxInputBytes || outputLimit == 0
      || outputLimit > kDecoderMaxOutputBytes then
    .failure .invalidInput "Decoder byte limits are invalid or exceeded"
  else transform input outputLimit operation

/-! ## Hexadecimal digits -/

/-- The two digits of a byte, in either letter case. -/
theorem hex_pair {digits : List UInt8} (table : digits = kHex ∨ digits = kUpperHex) (byte : UInt8) :
    hexValue (digits.getD (byte >>> 4).toNat 0) = some (byte >>> 4).toNat
      ∧ hexValue (digits.getD (byte &&& 0x0f).toNat 0) = some (byte &&& 0x0f).toNat
      ∧ UInt8.ofNat (((byte >>> 4).toNat <<< 4) ||| (byte &&& 0x0f).toNat) = byte := by
  rcases table with rfl | rfl
  · revert byte
    decide +kernel
  · revert byte
    decide +kernel

/-- A digit is no separator, and no mark follows it. -/
theorem hex_plain {byte : UInt8} (digit : (hexValue byte).isSome = true) :
    (isSpace byte || byte == colon || byte == 0x2d) = false ∧ isHexMark byte = false := by
  revert byte
  decide +kernel

theorem hexDigits_all {digits : List UInt8} (all : ∀ byte ∈ digits, (hexValue byte).isSome = true) :
    hexDigits digits = some digits := by
  induction digits with
  | nil => rfl
  | cons byte rest ih =>
      rw [List.forall_mem_cons] at all
      have unmarked : rest.head?.any isHexMark = false := by
        cases rest with
        | nil => rfl
        | cons next rest => exact (hex_plain (all.2 next List.mem_cons_self)).2
      have digit : ¬ (hexValue byte).isNone = true := by
        rw [Option.isNone_iff_eq_none, ← Option.not_isSome_iff_eq_none, all.1]
        simp
      rw [hexDigits.eq_def]
      dsimp only
      rw [(hex_plain all.1).1, unmarked, Bool.and_false, if_neg Bool.false_ne_true,
        if_neg Bool.false_ne_true, if_neg digit, ih all.2]
      rfl

theorem hexDecode_encode {input : List UInt8} {outputLimit : Nat} (fits : input.length ≤ outputLimit) :
    hexDecode (hexEncode input) outputLimit = .success input := by
  have length : (hexEncode input).length = input.length * 2 := by
    rw [hexEncode, List.length_flatMap]
    simp
  have pairs : hexPairs (hexEncode input) = input := by
    clear length fits
    induction input with
    | nil => rfl
    | cons byte rest ih =>
        obtain ⟨high, low, joined⟩ := hex_pair (.inl rfl) byte
        rw [hexEncode, List.flatMap_cons, List.cons_append, List.cons_append, List.nil_append,
          hexPairs, high, low, ← hexEncode, ih]
        exact congrArg (· :: rest) joined
  rw [hexDecode, hexDigits_all]
  · dsimp only
    rw [if_neg (by omega), if_neg (by omega), pairs]
  · intro digit inside
    obtain ⟨byte, _, member⟩ := List.mem_flatMap.1 inside
    obtain ⟨high, low, _⟩ := hex_pair (.inl rfl) byte
    simp only [List.mem_cons, List.not_mem_nil, or_false] at member
    rcases member with rfl | rfl
    · rw [high]
      rfl
    · rw [low]
      rfl

/-! ## Percent escapes decoded -/

theorem urlDecodeLoop_encode (input output : List UInt8) :
    urlDecodeLoop (input.flatMap urlEscape) output = .success (output ++ input) := by
  induction input generalizing output with
  | nil => rw [List.flatMap_nil, urlDecodeLoop, List.append_nil]
  | cons byte rest ih =>
      rw [List.flatMap_cons, urlEscape]
      by_cases plain : isUrlUnreserved byte = true
      · have other : byte ≠ percent := by
          rintro rfl
          cases plain
        rw [if_pos plain, List.singleton_append, urlDecodeLoop.eq_def]
        dsimp only
        rw [if_pos other, ih, List.append_assoc]
        rfl
      · obtain ⟨high, low, joined⟩ := hex_pair (.inr rfl) byte
        rw [if_neg plain, List.cons_append, List.cons_append, List.cons_append, List.nil_append,
          urlDecodeLoop.eq_def]
        dsimp only
        rw [if_neg (by simp), high, low]
        dsimp only
        rw [joined, ih, List.append_assoc]
        rfl

/-- The escapes are as long as their sizes say. -/
theorem urlSize_eq {outputLimit size : Nat} (input : List UInt8) (within : size ≤ outputLimit) :
    urlSize outputLimit input size
      = if size + (input.flatMap urlEscape).length > outputLimit then none
        else some (size + (input.flatMap urlEscape).length) := by
  induction input generalizing size with
  | nil => rw [List.flatMap_nil, List.length_nil, Nat.add_zero, if_neg (by omega), urlSize]
  | cons byte rest ih =>
      have width : (urlEscape byte).length = if isUrlUnreserved byte then 1 else 3 := by
        rw [urlEscape]
        split <;> rfl
      rw [urlSize, List.flatMap_cons, List.length_append, ← width]
      by_cases exceeds : size + (urlEscape byte).length > outputLimit
      · rw [if_pos exceeds, if_pos (by omega)]
      · rw [if_neg exceeds, ih (by omega), Nat.add_assoc]

/-! ## One accepted spelling in Base64 -/

section Canonical

variable (urlSafe : Bool)

theorem base64Letter_mod (value : Nat) :
    base64Letter urlSafe value = base64Letter urlSafe (value % 64) := by
  rw [base64Letter, base64Letter, Nat.and_two_pow_sub_one_eq_mod value 6,
    Nat.and_two_pow_sub_one_eq_mod _ 6, Nat.mod_mod]

theorem base64Letter_eq {value other : Nat} (same : value % 64 = other % 64) :
    base64Letter urlSafe value = base64Letter urlSafe other := by
  rw [base64Letter_mod, same, ← base64Letter_mod]

/-- A byte with a value is the letter of that value. -/
theorem base64Value_some {byte : UInt8} {value : Nat} (read : base64Value byte urlSafe = some value) :
    value < 64 ∧ byte = base64Letter urlSafe value := by
  have all : ∀ urlSafe : Bool, ∀ byte : UInt8, (base64Value byte urlSafe).all
      (fun value => value < 64 && byte == base64Letter urlSafe value) = true := by decide +kernel
  have this := all urlSafe byte
  rw [read] at this
  simpa using this

/-- What the loop goes over has a value. -/
theorem base64Loop_value {byte : UInt8} {rest output : List UInt8} {accumulator bitCount : Nat}
    {result : List UInt8 × Nat}
    (loops : base64Loop urlSafe (byte :: rest) accumulator bitCount output = some result) :
    ∃ value < 64, byte = base64Letter urlSafe value := by
  cases read : base64Value byte urlSafe with
  | none =>
      rw [base64Loop, read] at loops
      cases loops
  | some value => exact ⟨value, base64Value_some urlSafe read⟩

/-- The loop without a rest went over letters that encode its output. -/
theorem base64Loop_canonical : (letters : List UInt8) → ∀ {output result : List UInt8},
    letters.length % 4 ≠ 1 → base64Loop urlSafe letters 0 0 output = some (result, 0) →
      ∃ bytes, result = output ++ bytes ∧ letters = base64Encode urlSafe false bytes
  | [], output, result, _, loops => by
      rw [base64Loop, Option.some.injEq, Prod.mk.injEq] at loops
      exact ⟨[], by rw [List.append_nil, loops.1], rfl⟩
  | [a], _, _, whole, _ => absurd rfl whole
  | [a, b], output, result, _, loops => by
      obtain ⟨va, smallA, rfl⟩ := base64Loop_value urlSafe loops
      have next := loops
      rw [base64Loop_letter, if_neg (by omega)] at next
      obtain ⟨vb, smallB, rfl⟩ := base64Loop_value urlSafe next
      rw [base64Loop_letter, if_pos (by omega), base64Loop, Option.some.injEq, Prod.mk.injEq] at next
      obtain ⟨-, rest⟩ := next
      have first : (UInt8.ofNat (va * 4 + vb / 16)).toNat = va * 4 + vb / 16 :=
        toNat_ofNat_byte (by omega)
      have zero : (0 : UInt8).toNat = 0 := rfl
      have letters : [base64Letter urlSafe va, base64Letter urlSafe vb]
          = base64Encode urlSafe false [.ofNat (va * 4 + vb / 16)] := by
        simp only [base64Encode, Bool.false_eq_true, if_false, List.append_nil, base64Group_eq,
          Nat.shiftRight_eq_div_pow, first, zero]
        exact congrArg₂ List.cons (base64Letter_eq urlSafe (by omega))
          (congrArg₂ List.cons (base64Letter_eq urlSafe (by omega)) rfl)
      rw [letters, base64Loop_encode, Option.some.injEq, Prod.mk.injEq] at loops
      exact ⟨_, loops.1.symm, letters⟩
  | [a, b, c], output, result, _, loops => by
      obtain ⟨va, smallA, rfl⟩ := base64Loop_value urlSafe loops
      have next := loops
      rw [base64Loop_letter, if_neg (by omega)] at next
      obtain ⟨vb, smallB, rfl⟩ := base64Loop_value urlSafe next
      rw [base64Loop_letter, if_pos (by omega)] at next
      obtain ⟨vc, smallC, rfl⟩ := base64Loop_value urlSafe next
      rw [base64Loop_letter, if_pos (by omega), base64Loop, Option.some.injEq, Prod.mk.injEq] at next
      obtain ⟨-, rest⟩ := next
      have first : (UInt8.ofNat (va * 4 + vb / 16)).toNat = va * 4 + vb / 16 :=
        toNat_ofNat_byte (by omega)
      have second : (UInt8.ofNat (vb % 16 * 16 + vc / 4)).toNat = vb % 16 * 16 + vc / 4 :=
        toNat_ofNat_byte (by omega)
      have zero : (0 : UInt8).toNat = 0 := rfl
      have letters : [base64Letter urlSafe va, base64Letter urlSafe vb, base64Letter urlSafe vc]
          = base64Encode urlSafe false [.ofNat (va * 4 + vb / 16), .ofNat (vb % 16 * 16 + vc / 4)] := by
        simp only [base64Encode, Bool.false_eq_true, if_false, List.append_nil, base64Group_eq,
          Nat.shiftRight_eq_div_pow, first, second, zero]
        exact congrArg₂ List.cons (base64Letter_eq urlSafe (by omega))
          (congrArg₂ List.cons (base64Letter_eq urlSafe (by omega))
            (congrArg₂ List.cons (base64Letter_eq urlSafe (by omega)) rfl))
      rw [letters, base64Loop_encode, Option.some.injEq, Prod.mk.injEq] at loops
      exact ⟨_, loops.1.symm, letters⟩
  | a :: b :: c :: d :: rest, output, result, whole, loops => by
      obtain ⟨va, smallA, rfl⟩ := base64Loop_value urlSafe loops
      have next := loops
      rw [base64Loop_letter, if_neg (by omega)] at next
      obtain ⟨vb, smallB, rfl⟩ := base64Loop_value urlSafe next
      rw [base64Loop_letter, if_pos (by omega)] at next
      obtain ⟨vc, smallC, rfl⟩ := base64Loop_value urlSafe next
      rw [base64Loop_letter, if_pos (by omega)] at next
      obtain ⟨vd, smallD, rfl⟩ := base64Loop_value urlSafe next
      clear next
      have first : (UInt8.ofNat (va * 4 + vb / 16)).toNat = va * 4 + vb / 16 :=
        toNat_ofNat_byte (by omega)
      have second : (UInt8.ofNat (vb % 16 * 16 + vc / 4)).toNat = vb % 16 * 16 + vc / 4 :=
        toNat_ofNat_byte (by omega)
      have third : (UInt8.ofNat (vc % 4 * 64 + vd)).toNat = vc % 4 * 64 + vd :=
        toNat_ofNat_byte (by omega)
      have group : base64Group (.ofNat (va * 4 + vb / 16)) (.ofNat (vb % 16 * 16 + vc / 4))
          (.ofNat (vc % 4 * 64 + vd)) = ((va * 64 + vb) * 64 + vc) * 64 + vd := by
        rw [base64Group_eq, first, second, third]
        omega
      have sixth (bits value : Nat) (same : (((va * 64 + vb) * 64 + vc) * 64 + vd) / 2 ^ bits % 64 = value % 64) :
          base64Letter urlSafe ((((va * 64 + vb) * 64 + vc) * 64 + vd) / 2 ^ bits)
            = base64Letter urlSafe value := base64Letter_eq urlSafe same
      have last : base64Letter urlSafe (((va * 64 + vb) * 64 + vc) * 64 + vd)
          = base64Letter urlSafe vd := base64Letter_eq urlSafe (by omega)
      have letters := base64Loop_group urlSafe (.ofNat (va * 4 + vb / 16))
        (.ofNat (vb % 16 * 16 + vc / 4)) (.ofNat (vc % 4 * 64 + vd)) rest output
      simp only [group, Nat.shiftRight_eq_div_pow] at letters
      rw [sixth 18 va (by omega), sixth 12 vb (by omega), sixth 6 vc (by omega), last, loops] at letters
      obtain ⟨bytes, rfl, rfl⟩ := base64Loop_canonical rest (by
        simp only [List.length_cons] at whole
        omega) letters.symm
      refine ⟨.ofNat (va * 4 + vb / 16) :: .ofNat (vb % 16 * 16 + vc / 4)
        :: .ofNat (vc % 4 * 64 + vd) :: bytes, by simp, ?_⟩
      rw [base64Encode, group]
      simp only [Nat.shiftRight_eq_div_pow]
      rw [sixth 18 va (by omega), sixth 12 vb (by omega), sixth 6 vc (by omega), last]

end Canonical

theorem meaningful_padding (input : List UInt8) :
    input = meaningful input ++ List.replicate (input.length - (meaningful input).length) padding := by
  have whole := List.rdropWhile_append_rtakeWhile (p := (· == padding)) (l := input)
  have signs : input.rtakeWhile (· == padding)
      = List.replicate (input.rtakeWhile (· == padding)).length padding :=
    List.eq_replicate_of_mem fun byte inside => by simpa using List.mem_rtakeWhile_imp inside
  have length := congrArg List.length whole
  rw [List.length_append] at length
  rw [meaningful, ← length, Nat.add_sub_cancel_left, ← signs, whole]

/-- What standard Base64 decoding accepts is the encoding of what it gives. -/
theorem base64Encode_decode {input : List UInt8} {outputLimit : Nat}
    (ok : (base64Decode input false outputLimit).status = .ok) :
    base64Encode false true (base64Decode input false outputLimit).output = input := by
  rw [base64Decode] at ok ⊢
  split at ok
  · next none => rw [if_pos none, none]; rfl
  next some_byte =>
  rw [if_neg some_byte]
  have signs := meaningful_padding input
  have prefix_length : (meaningful input).length ≤ input.length := by
    rw [meaningful]
    exact (List.rdropWhile_prefix _ _).length_le
  dsimp only at ok ⊢
  split at ok
  · cases ok
  next padded =>
  rw [if_neg padded]
  split at ok
  · cases ok
  next urlPadded =>
  rw [if_neg urlPadded]
  split at ok
  · cases ok
  next fits =>
  rw [if_neg fits]
  simp only [Bool.not_false, Bool.true_and, Bool.or_eq_true, decide_eq_true_eq, bne_iff_ne, ne_eq,
    beq_iff_eq, not_or, not_not] at padded
  obtain ⟨⟨short, groups⟩, whole⟩ := padded
  cases loops : base64Loop false (meaningful input) 0 0 [] with
  | none =>
      rw [loops] at ok
      cases ok
  | some result =>
      obtain ⟨output, left⟩ := result
      rw [loops] at ok
      dsimp only at ok ⊢
      split at ok
      · cases ok
      next zero =>
      rw [if_neg zero]
      obtain rfl := not_not.1 zero
      obtain ⟨bytes, same, letters⟩ := base64Loop_canonical false _ whole loops
      rw [List.nil_append] at same
      subst same
      have count := base64Letters_length false output
      rw [← letters] at count
      have missing : (3 - output.length % 3) % 3 = input.length - (meaningful input).length := by
        obtain ⟨filled, few, -, -⟩ := base64_groups output.length
        rw [← count] at filled
        generalize (3 - output.length % 3) % 3 = missing at filled few ⊢
        omega
      change base64Encode false true output = input
      rw [base64Encode_padded, if_pos rfl, ← letters, missing, ← signs]

/-! ## Codecs -/

inductive Codec where
  | base64 | base64Url | hex | url
  deriving DecidableEq, Repr

namespace Codec

def encodes : Codec → DecoderOperation
  | .base64 => .base64Encode
  | .base64Url => .base64UrlEncode
  | .hex => .hexEncode
  | .url => .urlEncode

def decodes : Codec → DecoderOperation
  | .base64 => .base64Decode
  | .base64Url => .base64UrlDecode
  | .hex => .hexDecode
  | .url => .urlDecode

/-- The output limit that decoding needs: the decoded size, and for a URL the size of the
escaped text, which is what `UrlDecode` checks. -/
def room (input encoded : List UInt8) : Codec → Nat
  | .url => encoded.length
  | _ => input.length

end Codec

theorem within_limits {input : List UInt8} {outputLimit : Nat} :
    (input.length > kDecoderMaxInputBytes || outputLimit == 0
        || outputLimit > kDecoderMaxOutputBytes) = false
      ↔ input.length ≤ kDecoderMaxInputBytes ∧ 0 < outputLimit
        ∧ outputLimit ≤ kDecoderMaxOutputBytes := by
  simp only [Bool.or_eq_false_iff, decide_eq_false_iff_not, beq_eq_false_iff_ne, gt_iff_lt, not_lt,
    ne_eq, Nat.pos_iff_ne_zero, and_assoc]

theorem transformBytes_limits {operation : DecoderOperation} {input : List UInt8} {outputLimit : Nat}
    (ok : (transformBytes operation input outputLimit).status = .ok) :
    input.length ≤ kDecoderMaxInputBytes ∧ 0 < outputLimit ∧ outputLimit ≤ kDecoderMaxOutputBytes := by
  rw [← within_limits, ← Bool.not_eq_true]
  intro outside
  rw [transformBytes, if_pos outside] at ok
  cases ok

theorem transformBytes_eq {operation : DecoderOperation} {input : List UInt8} {outputLimit : Nat}
    (limits : input.length ≤ kDecoderMaxInputBytes ∧ 0 < outputLimit
      ∧ outputLimit ≤ kDecoderMaxOutputBytes) :
    transformBytes operation input outputLimit = transform input outputLimit operation := by
  rw [transformBytes, within_limits.2 limits]
  rfl

theorem ite_failure_ok {exceeds : Prop} [Decidable exceeds] {status : DecoderStatus} {error : String}
    {output : List UInt8} (failed : status ≠ .ok)
    (ok : (if exceeds then DecoderResult.failure status error else .success output).status = .ok) :
    ¬ exceeds ∧ (if exceeds then DecoderResult.failure status error else .success output)
      = .success output := by
  by_cases long : exceeds
  · rw [if_pos long] at ok
    exact absurd ok failed
  · exact ⟨long, if_neg long⟩

/-- Within the limits, decoding the encoding gives the input. -/
theorem transform_decodes (codec : Codec) {input : List UInt8} {limit limit' : Nat}
    (ok : (transform input limit codec.encodes).status = .ok)
    (room : codec.room input (transform input limit codec.encodes).output ≤ limit') :
    (transform input limit codec.encodes).output.length ≤ limit
      ∧ transform (transform input limit codec.encodes).output limit' codec.decodes
        = .success input := by
  obtain ⟨groups, _, _, _⟩ := base64_groups input.length
  cases codec with
  | base64 =>
      obtain ⟨fits, same⟩ := ite_failure_ok (by decide) ok
      rw [Codec.encodes, transform, same] at room ⊢
      refine ⟨?_, base64Decode_encode (.inr rfl) room⟩
      change (base64Encode false true input).length ≤ limit
      rw [base64Encode_length, if_pos rfl]
      omega
  | base64Url =>
      obtain ⟨fits, same⟩ := ite_failure_ok (by decide) ok
      rw [Codec.encodes, transform, same] at room ⊢
      refine ⟨?_, base64Decode_encode (.inl rfl) room⟩
      change (base64Encode true false input).length ≤ limit
      rw [base64Encode_length, if_neg (by decide), Nat.add_zero]
      omega
  | hex =>
      obtain ⟨fits, same⟩ := ite_failure_ok (by decide) ok
      rw [Codec.encodes, transform, same] at room ⊢
      refine ⟨?_, hexDecode_encode room⟩
      change (hexEncode input).length ≤ limit
      rw [hexEncode, List.length_flatMap]
      simp only [List.length_cons, List.length_nil, List.map_const', List.sum_replicate]
      simp only [smul_eq_mul]
      omega
  | url =>
      have sizes := urlSize_eq input (Nat.zero_le limit)
      rw [Nat.zero_add] at sizes
      by_cases exceeds : (input.flatMap urlEscape).length > limit
      · rw [Codec.encodes, transform, urlEncode, sizes, if_pos exceeds] at ok
        cases ok
      have same : transform input limit .urlEncode = .success (input.flatMap urlEscape) := by
        rw [transform, urlEncode, sizes, if_neg exceeds]
      rw [Codec.encodes, same] at room ⊢
      refine ⟨Nat.not_lt.1 exceeds, ?_⟩
      change urlDecode (input.flatMap urlEscape) limit' = .success input
      have short : ¬ (input.flatMap urlEscape).length > limit' := Nat.not_lt.2 room
      rw [urlDecode, if_neg short, urlDecodeLoop_encode, List.nil_append]

/-- Decoding undoes encoding for the four codecs, and what standard Base64 decoding accepts is
the one spelling that encoding gives. -/
theorem codecs_invert :
    (∀ (codec : Codec) (input : List UInt8) (limit limit' : Nat),
      (transformBytes codec.encodes input limit).status = .ok →
        0 < limit' → limit' ≤ kDecoderMaxOutputBytes →
          codec.room input (transformBytes codec.encodes input limit).output ≤ limit' →
            transformBytes codec.decodes (transformBytes codec.encodes input limit).output limit'
              = .success input)
    ∧ ∀ (input : List UInt8) (limit limit' : Nat),
      (transformBytes .base64Decode input limit).status = .ok →
        0 < limit' → limit' ≤ kDecoderMaxOutputBytes → input.length ≤ limit' →
          transformBytes .base64Encode (transformBytes .base64Decode input limit).output limit'
            = .success input := by
  constructor
  · intro codec input limit limit' ok positive most room
    have limits := transformBytes_limits ok
    rw [transformBytes_eq limits] at ok room ⊢
    obtain ⟨length, decodes⟩ := transform_decodes codec ok room
    rw [transformBytes_eq ⟨length.trans limits.2.2, positive, most⟩, decodes]
  · intro input limit limit' ok positive most room
    have limits := transformBytes_limits ok
    rw [transformBytes_eq limits] at ok ⊢
    have same : base64Encode false true (transform input limit .base64Decode).output = input :=
      base64Encode_decode ok
    generalize (transform input limit .base64Decode).output = output at same ⊢
    have length := base64Encode_length false true output
    rw [same, if_pos rfl] at length
    obtain ⟨groups, few, _, _⟩ := base64_groups output.length
    have shorter : output.length ≤ input.length := by omega
    rw [transformBytes_eq ⟨shorter.trans limits.1, positive, most⟩, transform, if_neg (by omega), same]

theorem codecs_invert_sample :
    transformBytes .urlDecode (transformBytes .urlEncode [0x20, 0x61] 16).output 16
      = .success [0x20, 0x61] :=
  codecs_invert.1 .url [0x20, 0x61] 16 16 (by decide +kernel) (by decide) (by decide)
    (by decide +kernel)

end Reb.Analysis
