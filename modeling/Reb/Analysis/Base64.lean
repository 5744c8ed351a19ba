/-
# Analysis.Base64 -- Base64, and what decodes again

Three bytes are four letters, and a shorter rest two or three.  The decoder refuses
what it would not have encoded so: it reads back whatever has been encoded in its own
alphabet, with padding or, in the URL alphabet, without it (`base64Decode_encode`).
-/
import Reb.Analysis.JsonFormatter

namespace Reb.Analysis

set_option autoImplicit false

/-! ## The alphabets -/

def kBase64Alphabet : List Char :=
  ['A', 'B', 'C', 'D', 'E', 'F', 'G', 'H', 'I', 'J', 'K', 'L', 'M', 'N', 'O', 'P', 'Q', 'R', 'S',
    'T', 'U', 'V', 'W', 'X', 'Y', 'Z', 'a', 'b', 'c', 'd', 'e', 'f', 'g', 'h', 'i', 'j', 'k', 'l',
    'm', 'n', 'o', 'p', 'q', 'r', 's', 't', 'u', 'v', 'w', 'x', 'y', 'z', '0', '1', '2', '3', '4',
    '5', '6', '7', '8', '9', '+', '/']

def kBase64UrlAlphabet : List Char :=
  ['A', 'B', 'C', 'D', 'E', 'F', 'G', 'H', 'I', 'J', 'K', 'L', 'M', 'N', 'O', 'P', 'Q', 'R', 'S',
    'T', 'U', 'V', 'W', 'X', 'Y', 'Z', 'a', 'b', 'c', 'd', 'e', 'f', 'g', 'h', 'i', 'j', 'k', 'l',
    'm', 'n', 'o', 'p', 'q', 'r', 's', 't', 'u', 'v', 'w', 'x', 'y', 'z', '0', '1', '2', '3', '4',
    '5', '6', '7', '8', '9', '-', '_']

abbrev padding : UInt8 := 0x3d

/-- The letter of the six lowest bits. -/
def base64Letter (urlSafe : Bool) (value : Nat) : UInt8 :=
  ((if urlSafe then kBase64UrlAlphabet else kBase64Alphabet).getD (value &&& 0x3f) 'A').toUInt8

def base64Value (byte : UInt8) (urlSafe : Bool) : Option Nat :=
  if 0x41 ≤ byte && byte ≤ 0x5a then some (byte.toNat - 0x41)
  else if 0x61 ≤ byte && byte ≤ 0x7a then some (byte.toNat - 0x61 + 26)
  else if 0x30 ≤ byte && byte ≤ 0x39 then some (byte.toNat - 0x30 + 52)
  else if (!urlSafe && byte == 0x2b) || (urlSafe && byte == 0x2d) then some 62
  else if (!urlSafe && byte == 0x2f) || (urlSafe && byte == 0x5f) then some 63
  else none

/-! ## Encoding -/

/-- The 24 bits of three bytes. -/
def base64Group (first second third : UInt8) : Nat :=
  (first.toNat <<< 16) ||| (second.toNat <<< 8) ||| third.toNat

def base64Encode (urlSafe includePadding : Bool) : List UInt8 → List UInt8
  | [] => []
  | [first] =>
      let value := base64Group first 0 0
      [base64Letter urlSafe (value >>> 18), base64Letter urlSafe (value >>> 12)]
        ++ if includePadding then [padding, padding] else []
  | [first, second] =>
      let value := base64Group first second 0
      [base64Letter urlSafe (value >>> 18), base64Letter urlSafe (value >>> 12),
        base64Letter urlSafe (value >>> 6)] ++ if includePadding then [padding] else []
  | first :: second :: third :: rest =>
      let value := base64Group first second third
      base64Letter urlSafe (value >>> 18) :: base64Letter urlSafe (value >>> 12)
        :: base64Letter urlSafe (value >>> 6) :: base64Letter urlSafe value
        :: base64Encode urlSafe includePadding rest

/-! ## Decoding -/

/-- The loop over the letters: the output and the bits that are left over. -/
def base64Loop (urlSafe : Bool) : List UInt8 → Nat → Nat → List UInt8 → Option (List UInt8 × Nat)
  | [], accumulator, _, output => some (output, accumulator)
  | byte :: rest, accumulator, bitCount, output =>
      match base64Value byte urlSafe with
      | none => none
      | some value =>
          let accumulator := (accumulator <<< 6) ||| value
          let bitCount := bitCount + 6
          if bitCount ≥ 8 then
            base64Loop urlSafe rest (accumulator &&& ((1 <<< (bitCount - 8)) - 1)) (bitCount - 8)
              (output ++ [UInt8.ofNat (accumulator >>> (bitCount - 8))])
          else base64Loop urlSafe rest accumulator bitCount output

/-- The input without the padding at its end. -/
def meaningful (input : List UInt8) : List UInt8 := input.rdropWhile (· == padding)

def base64Decode (input : List UInt8) (urlSafe : Bool) (outputLimit : Nat) : DecoderResult :=
  if input = [] then .success []
  else
    let meaningfulSize := (meaningful input).length
    let padded := input.length - meaningfulSize
    if padded > 2 || (!urlSafe && input.length % 4 != 0) || meaningfulSize % 4 == 1 then
      .failure .invalidInput "Base64 padding is invalid"
    else if urlSafe && padded != 0 && input.length % 4 != 0 then
      .failure .invalidInput "Base64URL padding is invalid"
    else if meaningfulSize * 6 / 8 > outputLimit then
      .failure .outputLimit "Decoded output exceeds the configured byte limit"
    else
      match base64Loop urlSafe (meaningful input) 0 0 [] with
      | none =>
          .failure .invalidInput
            (if urlSafe then "Base64URL input contains an invalid character"
            else "Base64 input contains an invalid character")
      | some (output, accumulator) =>
          if accumulator ≠ 0 then .failure .invalidInput "Base64 trailing bits are not canonical"
          else .success output

/-- A result is the output that it succeeds with, or an error. -/
def DecoderResult.Plain (result : DecoderResult) : Prop :=
  result.status = .ok → result = .success result.output

theorem base64Decode_plain (input : List UInt8) (urlSafe : Bool) (outputLimit : Nat) :
    (base64Decode input urlSafe outputLimit).Plain := by
  unfold base64Decode
  dsimp only
  repeat' split
  all_goals first | exact fun _ => rfl | exact fun impossible => by cases impossible

/-! ## Round trips -/

section RoundTrip

variable (urlSafe : Bool)

theorem base64Value_letter (value : Nat) :
    base64Value (base64Letter urlSafe value) urlSafe = some (value % 64) := by
  have letters : ∀ sextet < 64, base64Value (base64Letter urlSafe sextet) urlSafe = some sextet := by
    cases urlSafe <;> decide +kernel
  have same : base64Letter urlSafe value = base64Letter urlSafe (value % 64) := by
    rw [base64Letter, base64Letter, Nat.and_two_pow_sub_one_eq_mod value 6,
      Nat.and_two_pow_sub_one_eq_mod _ 6, Nat.mod_mod]
  rw [same, letters _ (Nat.mod_lt _ (by decide))]

theorem base64Letter_safe (value : Nat) :
    base64Letter urlSafe value ≠ padding ∧ base64Letter urlSafe value ≠ 0x2e := by
  have letters : ∀ sextet < 64, base64Letter urlSafe sextet ≠ padding
      ∧ base64Letter urlSafe sextet ≠ 0x2e := by
    cases urlSafe <;> decide +kernel
  have same : base64Letter urlSafe value = base64Letter urlSafe (value % 64) := by
    rw [base64Letter, base64Letter, Nat.and_two_pow_sub_one_eq_mod value 6,
      Nat.and_two_pow_sub_one_eq_mod _ 6, Nat.mod_mod]
  rw [same]
  exact letters _ (Nat.mod_lt _ (by decide))

theorem base64Group_eq (first second third : UInt8) :
    base64Group first second third = first.toNat * 65536 + second.toNat * 256 + third.toNat := by
  have low := third.toNat_lt
  have middle := second.toNat_lt
  rw [base64Group, Nat.lor_assoc, ← Nat.shiftLeft_add_eq_or_of_lt low,
    ← Nat.shiftLeft_add_eq_or_of_lt (by rw [Nat.shiftLeft_eq]; omega), Nat.shiftLeft_eq,
    Nat.shiftLeft_eq]
  omega

/-- One letter: six bits more, and a byte when there are eight. -/
theorem base64Loop_letter (value accumulator bitCount : Nat) (output rest : List UInt8) :
    base64Loop urlSafe (base64Letter urlSafe value :: rest) accumulator bitCount output
      = if bitCount + 6 ≥ 8 then
          base64Loop urlSafe rest ((accumulator * 64 + value % 64) % 2 ^ (bitCount + 6 - 8))
            (bitCount + 6 - 8)
            (output ++ [UInt8.ofNat ((accumulator * 64 + value % 64) / 2 ^ (bitCount + 6 - 8))])
        else base64Loop urlSafe rest (accumulator * 64 + value % 64) (bitCount + 6) output := by
  have joined : (accumulator <<< 6) ||| (value % 64) = accumulator * 64 + value % 64 := by
    rw [← Nat.shiftLeft_add_eq_or_of_lt (Nat.mod_lt _ (by decide)), Nat.shiftLeft_eq]
  rw [base64Loop, base64Value_letter]
  simp only [joined, Nat.one_shiftLeft, Nat.and_two_pow_sub_one_eq_mod, Nat.shiftRight_eq_div_pow]

theorem ofNat_eq {byte : UInt8} {value : Nat} (same : value = byte.toNat) :
    UInt8.ofNat value = byte := by
  rw [same, UInt8.ofNat_toNat]

/-- The letters by themselves, and the padding. -/
theorem base64Encode_padded (includePadding : Bool) (input : List UInt8) :
    base64Encode urlSafe includePadding input = base64Encode urlSafe false input
      ++ if includePadding then List.replicate ((3 - input.length % 3) % 3) padding else [] := by
  induction input using base64Encode.induct with
  | case1 => cases includePadding <;> rfl
  | case2 first => cases includePadding <;> simp [base64Encode]
  | case3 first second => cases includePadding <;> simp [base64Encode]
  | case4 first second third rest ih =>
      have period : (rest.length + 1 + 1 + 1) % 3 = rest.length % 3 := by omega
      rw [base64Encode, base64Encode, ih]
      simp only [List.length_cons, period, List.cons_append]

-- Two bytes are three letters and one sign.
example : base64Encode false true [0x66, 0x6f] = [0x5a, 0x6d, 0x38, padding] := by decide +kernel

theorem base64Letters_safe (input : List UInt8) :
    ∀ byte ∈ base64Encode urlSafe false input, byte ≠ padding ∧ byte ≠ 0x2e := by
  induction input using base64Encode.induct with
  | case1 => simp [base64Encode]
  | case2 first => simp [base64Encode, base64Letter_safe]
  | case3 first second => simp [base64Encode, base64Letter_safe]
  | case4 first second third rest ih =>
      intro byte member
      simp only [base64Encode, List.mem_cons] at member
      rcases member with rfl | rfl | rfl | rfl | member
      iterate 4 exact base64Letter_safe urlSafe _
      exact ih byte member

theorem base64Letters_length (input : List UInt8) :
    (base64Encode urlSafe false input).length = (input.length * 4 + 2) / 3 := by
  induction input using base64Encode.induct with
  | case1 => rfl
  | case2 first => simp [base64Encode]
  | case3 first second => simp [base64Encode]
  | case4 first second third rest ih =>
      simp only [base64Encode, List.length_cons, ih]
      omega

theorem meaningful_encode (includePadding : Bool) (input : List UInt8) :
    meaningful (base64Encode urlSafe includePadding input) = base64Encode urlSafe false input := by
  have unpadded : meaningful (base64Encode urlSafe false input) = base64Encode urlSafe false input := by
    rw [meaningful, List.rdropWhile_eq_self_iff]
    intro some
    simpa using (base64Letters_safe urlSafe input _ (List.getLast_mem some)).1
  rw [base64Encode_padded]
  cases includePadding with
  | false => simpa using unpadded
  | true =>
      rw [if_pos rfl]
      induction (3 - input.length % 3) % 3 with
      | zero => simpa using unpadded
      | succ count ih =>
          rw [List.replicate_succ', ← List.append_assoc, meaningful, List.rdropWhile_concat,
            if_pos (by simp)]
          exact ih

/-- Four letters are three bytes. -/
theorem base64Loop_group (first second third : UInt8) (rest output : List UInt8) :
    base64Loop urlSafe (base64Letter urlSafe (base64Group first second third >>> 18)
        :: base64Letter urlSafe (base64Group first second third >>> 12)
        :: base64Letter urlSafe (base64Group first second third >>> 6)
        :: base64Letter urlSafe (base64Group first second third) :: rest) 0 0 output
      = base64Loop urlSafe rest 0 0 (output ++ [first, second, third]) := by
  have high := first.toNat_lt
  have middle := second.toNat_lt
  have low := third.toNat_lt
  rw [base64Loop_letter, if_neg (by omega), base64Loop_letter, if_pos (by omega), base64Loop_letter,
    if_pos (by omega), base64Loop_letter, if_pos (by omega)]
  simp only [base64Group_eq, Nat.shiftRight_eq_div_pow]
  rw [@ofNat_eq first _ (by omega), @ofNat_eq second _ (by omega), @ofNat_eq third _ (by omega)]
  simp only [List.append_assoc, List.cons_append, List.nil_append]
  congr 1
  omega

theorem base64Loop_encode (input output : List UInt8) :
    base64Loop urlSafe (base64Encode urlSafe false input) 0 0 output = some (output ++ input, 0) := by
  induction input using base64Encode.induct generalizing output with
  | case1 => simp [base64Encode, base64Loop]
  | case2 first =>
      have high := first.toNat_lt
      simp only [base64Encode, Bool.false_eq_true, if_false, List.append_nil]
      rw [base64Loop_letter, if_neg (by omega), base64Loop_letter, if_pos (by omega), base64Loop]
      simp only [base64Group_eq, Nat.shiftRight_eq_div_pow]
      have none : (0 : UInt8).toNat = 0 := rfl
      rw [@ofNat_eq first _ (by omega)]
      congr 2
      omega
  | case3 first second =>
      have high := first.toNat_lt
      have middle := second.toNat_lt
      simp only [base64Encode, Bool.false_eq_true, if_false, List.append_nil]
      rw [base64Loop_letter, if_neg (by omega), base64Loop_letter, if_pos (by omega),
        base64Loop_letter, if_pos (by omega), base64Loop]
      simp only [base64Group_eq, Nat.shiftRight_eq_div_pow]
      have none : (0 : UInt8).toNat = 0 := rfl
      rw [@ofNat_eq first _ (by omega), @ofNat_eq second _ (by omega)]
      simp only [List.append_assoc, List.cons_append, List.nil_append]
      congr 2
      omega
  | case4 first second third rest ih =>
      rw [base64Encode, base64Loop_group, ih, List.append_assoc]
      rfl

end RoundTrip

theorem base64Encode_length (urlSafe includePadding : Bool) (input : List UInt8) :
    (base64Encode urlSafe includePadding input).length = (input.length * 4 + 2) / 3
      + if includePadding then (3 - input.length % 3) % 3 else 0 := by
  rw [base64Encode_padded, List.length_append, base64Letters_length]
  cases includePadding <;> simp

/-- The padding fills the last group of four. -/
theorem base64_groups (count : Nat) :
    ((count * 4 + 2) / 3 + (3 - count % 3) % 3) % 4 = 0 ∧ (3 - count % 3) % 3 ≤ 2
      ∧ (count * 4 + 2) / 3 % 4 ≠ 1 ∧ (count * 4 + 2) / 3 * 6 / 8 = count := by
  obtain none | one | two : count % 3 = 0 ∨ count % 3 = 1 ∨ count % 3 = 2 := by omega
  · rw [none]
    omega
  · rw [one]
    omega
  · rw [two]
    omega

/-- What has been encoded decodes again. -/
theorem base64Decode_encode {urlSafe includePadding : Bool}
    (decodable : urlSafe = true ∨ includePadding = true) {input : List UInt8} {outputLimit : Nat}
    (fits : input.length ≤ outputLimit) :
    base64Decode (base64Encode urlSafe includePadding input) urlSafe outputLimit = .success input := by
  have size := base64Encode_length urlSafe includePadding input
  have letters := base64Letters_length urlSafe input
  cases input with
  | nil => rfl
  | cons byte rest =>
      have some : base64Encode urlSafe includePadding (byte :: rest) ≠ [] := by
        intro none
        rw [none, List.length_cons] at size
        simp only [List.length_nil] at size
        omega
      obtain ⟨whole, short, canonical, decoded⟩ := base64_groups (byte :: rest).length
      rw [base64Decode, if_neg some, meaningful_encode, letters, size, base64Loop_encode]
      generalize (3 - (byte :: rest).length % 3) % 3 = missing at whole short
      generalize ((byte :: rest).length * 4 + 2) / 3 = count at whole canonical decoded
      rw [if_neg, if_neg, if_neg (by omega)]
      · simp
      · cases includePadding <;> cases urlSafe <;> simp <;> omega
      · cases includePadding <;> cases urlSafe <;> simp at decodable ⊢ <;> omega

end Reb.Analysis
