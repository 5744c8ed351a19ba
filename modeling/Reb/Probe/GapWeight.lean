/-
# Probe.GapWeight -- what a gap record weighs, by three readers

A full queue is reported by a gap record whose payload is the number of events lost, in
decimal.  Three readers turn it back into a number: the native queue, when a gap is
itself dropped (`nativeProbeDropWeight`), the broker (`reportedQueueDrops`) and the
backend, from the hex text of the stored payload (`dropWeight`).

`gapWeight` is the number they are to agree on: a canonical count above zero counts, and
anything else weighs one event.  The native reader has no guard on leading zeros, so it
differs on a padded count (`PaddedCount`); no gap record the probe builds has one.
-/
import Reb.Evidence.EventBroker
import Reb.Theory.Decimal

namespace Reb.Probe

set_option autoImplicit false

open Reb.Capture Reb.Evidence Reb.Theory.Decimal

/-- The probe's copy of the event record, the same member for member. -/
abbrev NativeProbeEvent : Type := EventRecord

/-! ## The native queue -/

/-- The do loop that writes the digits, least significant first, into twenty bytes. -/
def reversedDigits : Nat → UInt64 → List UInt8
  | 0, _ => []
  | turns + 1, remaining =>
      let digit := 0x30 + (remaining % 10).toUInt8
      if remaining / 10 == 0 then [digit] else digit :: reversedDigits turns (remaining / 10)

def makeNativeProbeGapEvent (reference : NativeProbeEvent) (dropped : UInt64) : NativeProbeEvent :=
  let digits := (reversedDigits 20 dropped).reverse
  { header :=
      { category := reference.header.category
        type := .gap
        payloadSize := digits.length.toUInt32
        sequenceNumber := reference.header.sequenceNumber
        monotonicTimeNs := reference.header.monotonicTimeNs
        sessionId := reference.header.sessionId
        processId := reference.header.processId
        threadId := reference.header.threadId }
    inlinePayload := Vector.ofFn fun index => digits.getD index 0 }

/-- The digit loop of `NativeProbeDropWeight`; a refused byte leaves it without a count. -/
def nativeDigits : List UInt8 → UInt64 → Option UInt64
  | [], count => some count
  | digit :: rest, count =>
      if digit < 0x30 || digit > 0x39 ||
          count > (0xffffffffffffffff - (digit - 0x30).toUInt64) / 10 then none
      else nativeDigits rest (count * 10 + digit.toUInt64 - 0x30)

def nativeProbeDropWeight (event : NativeProbeEvent) : UInt64 :=
  if event.header.type != .gap || event.header.payloadSize == 0 ||
      event.header.payloadSize > 20 then 1
  else
    match nativeDigits (event.inlinePayload.toList.take event.header.payloadSize.toNat) 0 with
    | none => 1
    | some count => if count == 0 then 1 else count

/-! ## The backend -/

/-- A JSON value; of a number only what `as_u64` reads. -/
inductive Value where
  | null
  | bool (value : Bool)
  | number (asU64 : Option UInt64)
  | string (text : String)
  | array (items : List Value)
  | object (members : List (String × Value))

/-- `value[key]`: null unless an object has the member. -/
def Value.member (value : Value) (key : String) : Value :=
  match value with
  | .object members => (members.lookup key).getD .null
  | _ => .null

def Value.asStr : Value → Option String
  | .string text => some text
  | _ => none

/-- The bytes of a text. -/
def textBytes (text : String) : List UInt8 := text.toByteArray.data.toList

/-- `text.parse::<u64>()` on a text of digits. -/
def parseU64 (bytes : List UInt8) : Option UInt64 := do
  let value ← fromDecimal bytes
  if value < 2 ^ 64 then some (.ofNat value) else none

def unsigned : Value → Option UInt64
  | .number asU64 => asU64
  | .string text =>
      let bytes := textBytes text
      if bytes ≠ [] ∧ bytes.length ≤ 20 ∧ (bytes.length = 1 ∨ bytes.head? ≠ some 0x30) ∧
          bytes.all isDigit then
        parseU64 bytes
      else none
  | _ => none

/-- What the backend reads from a stored event; `hexDecode` is `hex::decode`. -/
def dropWeight (hexDecode : String → Option (List UInt8)) (event : Value) : UInt64 :=
  let count := do
    let text ← (event.member "payload").asStr
    let bytes ← hexDecode text
    let text ← String.fromUTF8? bytes.toByteArray
    unsigned (.string text)
  (count.filter (0 < ·)).getD 1

/-- The hex text `WriteEventJson` stores for a payload. -/
def hexText (payload : List UInt8) : String :=
  let digit (value : UInt8) : Char := "0123456789abcdef".toList.getD value.toNat '0'
  String.ofList (payload.flatMap fun byte : UInt8 => [digit (byte >>> 4), digit (byte &&& 0x0f)])

/-- The stored value carries the payload of the event. -/
def Stores (stored : Value) (event : EventRecord) : Prop :=
  stored.member "payload" = .string (hexText (inlinePayload event))

/-! ## The weight -/

/-- A decimal count as the encoder writes it, in at most twenty digits. -/
def CanonicalCount (payload : List UInt8) : Prop :=
  payload ≠ [] ∧ payload.length ≤ 20 ∧ (payload.length = 1 ∨ payload.head? ≠ some 0x30) ∧
    payload.all isDigit = true

/-- A count above one in two to twenty digits, the first of them zero. -/
def PaddedCount (payload : List UInt8) : Prop :=
  2 ≤ payload.length ∧ payload.length ≤ 20 ∧ payload.head? = some 0x30 ∧
    payload.all isDigit = true ∧ 1 < positional 0 payload

instance (payload : List UInt8) : Decidable (CanonicalCount payload) :=
  inferInstanceAs (Decidable (_ ∧ _ ∧ (_ ∨ _) ∧ _))

/-- A canonical count above zero counts; anything else weighs one. -/
def gapWeight (payload : List UInt8) : UInt64 :=
  if CanonicalCount payload ∧ 0 < positional 0 payload ∧ positional 0 payload < 2 ^ 64 then
    .ofNat (positional 0 payload)
  else 1

/-- A canonical payload is read as a word, and weighs what it reads as unless that is 0. -/
theorem gapWeight_of_canonical {payload : List UInt8} (canonical : CanonicalCount payload) :
    gapWeight payload = (((readWord payload 0).filter (0 < ·)).getD 1) := by
  have digits : payload.all isDigit = true := canonical.2.2.2
  rw [gapWeight, readWord_eq, UInt64.toNat_zero]
  by_cases small : positional 0 payload < 2 ^ 64
  · rw [if_pos (show payload.all isDigit = true ∧ positional 0 payload < 2 ^ 64 from ⟨digits, small⟩)]
    by_cases positive : 0 < positional 0 payload
    · have word : (0 : UInt64) < .ofNat (positional 0 payload) := by
        rw [UInt64.lt_iff_toNat_lt, UInt64.toNat_ofNat_of_lt' small]
        exact positive
      rw [if_pos ⟨canonical, positive, small⟩, Option.filter_some, if_pos (by simpa using word)]
      rfl
    · have zero : positional 0 payload = 0 := Nat.eq_zero_of_not_pos positive
      rw [if_neg (by simp [zero]), zero]
      rfl
  · rw [if_neg fun all => small all.2.2, if_neg fun all => small all.2]
    rfl

theorem gapWeight_of_not_canonical {payload : List UInt8} (other : ¬ CanonicalCount payload) :
    gapWeight payload = 1 := by
  rw [gapWeight, if_neg]
  exact fun all => other all.1

/-! ## The broker -/

theorem reportedDigits_eq (bytes : List UInt8) (count : UInt64) :
    reportedDigits bytes count = (readWord bytes count).getD 1 := by
  induction bytes generalizing count with
  | nil => rfl
  | cons digit rest ih =>
      rw [reportedDigits, readWord]
      split
      · rfl
      · dsimp only
        split
        · rfl
        · exact ih _

/-- A count that begins with a digit above zero is above zero. -/
theorem positional_pos {first : UInt8} (least : 0x31 ≤ first) (rest : List UInt8) :
    0 < positional 0 (first :: rest) := by
  have value : 0x31 ≤ first.toNat := UInt8.le_iff_toNat_le.1 least
  have large := le_positional (0 * 10 + (first.toNat - 48)) rest
  rw [positional_cons]
  omega

theorem reportedQueueDrops_eq (event : EventRecord) :
    reportedQueueDrops event = gapWeight (inlinePayload event) := by
  unfold reportedQueueDrops
  split
  · rename_i empty
    rw [empty, gapWeight_of_not_canonical]
    exact fun canonical => canonical.1 rfl
  rename_i first rest payload
  rw [payload]
  split
  · rename_i long
    rw [gapWeight_of_not_canonical]
    exact fun canonical => absurd canonical.2.1 (by omega)
  rename_i short
  split
  · rename_i outside
    by_cases canonical : CanonicalCount (first :: rest)
    · -- only a single zero is canonical and does not begin with a digit above it
      obtain ⟨-, -, single, digits⟩ := canonical
      have firstDigit : isDigit first = true := by
        rw [List.all_cons, Bool.and_eq_true] at digits
        exact digits.1
      have zero : first = 0x30 := by
        rw [isDigit_iff] at firstDigit
        rw [Bool.or_eq_true, decide_eq_true_iff, decide_eq_true_iff, UInt8.lt_iff_toNat_lt, gt_iff_lt,
          UInt8.lt_iff_toNat_lt] at outside
        have low : (0x31 : UInt8).toNat = 49 := rfl
        have high : (0x39 : UInt8).toNat = 57 := rfl
        exact UInt8.toNat.inj (show first.toNat = 48 by omega)
      subst zero
      have alone : rest = [] := by
        rcases single with one | other
        · exact List.length_eq_zero_iff.1 (Nat.succ.inj one)
        · exact absurd rfl other
      subst alone
      rfl
    · rw [gapWeight_of_not_canonical canonical]
  rename_i inside
  rw [Bool.or_eq_true, decide_eq_true_iff, decide_eq_true_iff, not_or, UInt8.not_lt, gt_iff_lt,
    UInt8.not_lt] at inside
  rw [reportedDigits_eq]
  by_cases digits : (first :: rest).all isDigit = true
  · have canonical : CanonicalCount (first :: rest) := by
      refine ⟨List.cons_ne_nil _ _, by omega, .inr ?_, digits⟩
      rw [List.head?_cons, ne_eq, Option.some.injEq]
      rintro rfl
      exact absurd inside.1 (by decide)
    rw [gapWeight_of_canonical canonical, readWord_eq, UInt64.toNat_zero]
    split
    · rename_i fits
      have positive : (0 : UInt64) < .ofNat (positional 0 (first :: rest)) := by
        rw [UInt64.lt_iff_toNat_lt, UInt64.toNat_ofNat_of_lt' fits.2]
        exact positional_pos inside.1 rest
      rw [Option.filter_some, if_pos (by simpa using positive)]
    · rfl
  · rw [gapWeight_of_not_canonical fun canonical => digits canonical.2.2.2, readWord_eq,
      if_neg fun all => digits all.1]
    rfl

/-! ## The backend -/

theorem textBytes_of_fromUTF8? {bytes : List UInt8} {text : String}
    (decoded : String.fromUTF8? bytes.toByteArray = some text) : textBytes text = bytes := by
  unfold String.fromUTF8? at decoded
  split at decoded
  · cases decoded
    show bytes.toByteArray.data.toList = bytes
    rw [List.data_toByteArray]
  · cases decoded

/-- A string of digits is a text. -/
theorem fromUTF8?_of_digits {bytes : List UInt8} (digits : bytes.all isDigit = true) :
    ∃ text, String.fromUTF8? bytes.toByteArray = some text := by
  have valid : bytes.toByteArray.IsValidUTF8 := by
    induction bytes with
    | nil => exact ByteArray.isValidUTF8_empty
    | cons byte rest ih =>
        rw [List.all_cons, Bool.and_eq_true, isDigit_iff] at digits
        have table : ∀ n < 58, 48 ≤ n →
            String.utf8EncodeChar (Char.ofNat n) = [UInt8.ofNat n] := by decide
        have one : String.utf8EncodeChar (Char.ofNat byte.toNat) = [byte] := by
          rw [table byte.toNat (by omega) digits.1.1, UInt8.ofNat_toNat]
        have split : (byte :: rest).toByteArray =
            (String.utf8EncodeChar (Char.ofNat byte.toNat)).toByteArray ++ rest.toByteArray := by
          rw [one, ← List.toByteArray_append, List.singleton_append]
        rw [split]
        exact Char.isValidUTF8_toByteArray_utf8EncodeChar.append (ih digits.2)
  exact ⟨_, dif_pos valid⟩

theorem unsigned_string (text : String) :
    unsigned (.string text) =
      if CanonicalCount (textBytes text) then parseU64 (textBytes text) else none := rfl

theorem dropWeight_eq {hexDecode : String → Option (List UInt8)}
    (decodes : ∀ bytes, hexDecode (hexText bytes) = some bytes) {event : EventRecord}
    {stored : Value} (stores : Stores stored event) :
    dropWeight hexDecode stored = gapWeight (inlinePayload event) := by
  have read : ∀ payload, ((String.fromUTF8? (List.toByteArray payload)).bind fun text =>
      unsigned (.string text)) = if CanonicalCount payload then readWord payload 0 else none := by
    intro payload
    by_cases canonical : CanonicalCount payload
    · obtain ⟨text, decoded⟩ := fromUTF8?_of_digits canonical.2.2.2
      rw [decoded, Option.bind_some, if_pos canonical, unsigned_string,
        textBytes_of_fromUTF8? decoded, if_pos canonical, parseU64, fromDecimal_eq canonical.1 canonical.2.2.2, readWord_eq]
      simp only [canonical.2.2.2, true_and, UInt64.toNat_zero, Option.bind_eq_bind, Option.bind_some]
    · rw [if_neg canonical]
      cases decoded : String.fromUTF8? (List.toByteArray payload) with
      | none => rfl
      | some text =>
          rw [Option.bind_some, unsigned_string, textBytes_of_fromUTF8? decoded, if_neg canonical]
  unfold Stores at stores
  unfold dropWeight
  simp only [stores, Value.asStr, decodes, Option.bind_eq_bind, Option.bind_some, read]
  by_cases canonical : CanonicalCount (inlinePayload event)
  · rw [if_pos canonical, gapWeight_of_canonical canonical]
  · rw [if_neg canonical, gapWeight_of_not_canonical canonical]
    rfl

/-! ## The native queue -/

theorem nativeDigits_eq (bytes : List UInt8) (count : UInt64) :
    nativeDigits bytes count = readWord bytes count := by
  induction bytes generalizing count with
  | nil => rfl
  | cons digit rest ih =>
      rw [nativeDigits, readWord]
      by_cases outside : (digit < 0x30 || digit > 0x39) = true
      · simp [outside]
      · have digits : isDigit digit = true := by
          rw [isDigit_eq_not, Bool.not_eq_true']
          exact Bool.eq_false_iff.2 outside
        have value : digit.toUInt64 - 0x30 = (digit - 0x30).toUInt64 := by
          apply UInt64.toNat.inj
          rw [toNat_digitValue digits, UInt64.toNat_sub_of_le, UInt8.toNat_toUInt64]
          · rfl
          · rw [isDigit_iff] at digits
            exact UInt64.le_iff_toNat_le.2 digits.1
        have next : count * 10 + digit.toUInt64 - 0x30 = count * 10 + (digit - 0x30).toUInt64 := by
          rw [← value, UInt64.sub_eq_add_neg, UInt64.sub_eq_add_neg, UInt64.add_assoc]
        rw [ih, next]
        simp only [outside, Bool.false_or, decide_eq_true_iff, Bool.false_eq_true, if_false]

theorem nativeProbeDropWeight_eq {event : NativeProbeEvent} (gap : event.header.type = .gap)
    (size : event.header.payloadSize.toNat ≤ kInlinePayloadSize) :
    nativeProbeDropWeight event =
      if inlinePayload event = [] ∨ 20 < (inlinePayload event).length then 1
      else ((readWord (inlinePayload event) 0).filter (0 < ·)).getD 1 := by
  have payload : inlinePayload event =
      event.inlinePayload.toList.take event.header.payloadSize.toNat := by
    rw [inlinePayload, Nat.min_eq_left size]
  have length : (inlinePayload event).length = event.header.payloadSize.toNat := by
    rw [payload, List.length_take, Vector.length_toList, Nat.min_eq_left size]
  have guard : (event.header.type != .gap || event.header.payloadSize == 0 ||
      event.header.payloadSize > 20) = true ↔
      inlinePayload event = [] ∨ 20 < (inlinePayload event).length := by
    rw [← List.length_eq_zero_iff, length, gap]
    simp only [bne_self_eq_false, Bool.false_or, Bool.or_eq_true, beq_iff_eq, decide_eq_true_iff,
      gt_iff_lt, UInt32.lt_iff_toNat_lt, ← UInt32.toNat_inj]
    exact Iff.rfl
  unfold nativeProbeDropWeight
  simp only [guard, nativeDigits_eq, ← payload]
  split
  · rfl
  · cases readWord (inlinePayload event) 0 with
    | none => rfl
    | some count =>
        by_cases zero : count = 0
        · subst zero
          rfl
        · have positive : 0 < count := UInt64.pos_iff_ne_zero.2 zero
          simp [zero, Option.filter_some, positive]

/-- The native queue weighs a payload as the others do unless it is a padded count. -/
theorem native_eq_iff {event : NativeProbeEvent} (gap : event.header.type = .gap)
    (size : event.header.payloadSize.toNat ≤ kInlinePayloadSize) :
    nativeProbeDropWeight event = gapWeight (inlinePayload event) ↔
      ¬ PaddedCount (inlinePayload event) := by
  rw [nativeProbeDropWeight_eq gap size]
  generalize inlinePayload event = payload
  by_cases outside : payload = [] ∨ 20 < payload.length
  · have other : ¬ CanonicalCount payload := by
      rintro ⟨nonempty, short, -, -⟩
      rcases outside with empty | long
      · exact nonempty empty
      · omega
    have unpadded : ¬ PaddedCount payload := by
      rintro ⟨least, most, -, -⟩
      rcases outside with rfl | long
      · exact absurd least (by decide)
      · omega
    rw [if_pos outside, gapWeight_of_not_canonical other]
    exact iff_of_true rfl unpadded
  rw [if_neg outside]
  rw [not_or, not_lt] at outside
  by_cases canonical : CanonicalCount payload
  · have unpadded : ¬ PaddedCount payload := by
      rintro ⟨least, -, zero, -⟩
      rcases canonical.2.2.1 with single | other
      · omega
      · exact other zero
    exact iff_of_true (gapWeight_of_canonical canonical).symm unpadded
  rw [gapWeight_of_not_canonical canonical]
  by_cases digits : payload.all isDigit = true
  · -- a count that is not canonical is padded, and its leading zero keeps it a word
    have padded : 2 ≤ payload.length ∧ payload.head? = some 0x30 := by
      have positive := List.length_pos_of_ne_nil outside.1
      by_contra unpadded
      refine canonical ⟨outside.1, outside.2, ?_, digits⟩
      by_cases single : payload.length = 1
      · exact .inl single
      · exact .inr fun zero => unpadded ⟨by omega, zero⟩
    have small : positional 0 payload < 2 ^ 64 := by
      cases payload with
      | nil => exact absurd rfl outside.1
      | cons first rest =>
          obtain rfl : first = 0x30 := Option.some.inj padded.2
          rw [List.all_cons, Bool.and_eq_true] at digits
          have bound := positional_lt 0 digits.2
          have short : rest.length ≤ 19 := Nat.le_of_succ_le_succ outside.2
          have power : 10 ^ rest.length ≤ 10 ^ 19 := Nat.pow_le_pow_right (by decide) short
          rw [positional_cons]
          show positional 0 rest < 2 ^ 64
          omega
    rw [readWord_eq, UInt64.toNat_zero, if_pos ⟨digits, small⟩, Option.filter_some]
    have whether : PaddedCount payload ↔ 1 < positional 0 payload :=
      ⟨fun all => all.2.2.2.2, fun more => ⟨padded.1, outside.2, padded.2, digits, more⟩⟩
    rw [whether, not_lt, ← UInt64.toNat_inj]
    by_cases zero : positional 0 payload = 0
    · rw [zero]
      exact iff_of_true rfl (by decide)
    · have positive : (0 : UInt64) < .ofNat (positional 0 payload) := by
        rw [UInt64.lt_iff_toNat_lt, UInt64.toNat_ofNat_of_lt' small]
        exact Nat.pos_of_ne_zero zero
      rw [if_pos (by simpa using positive), Option.getD_some, UInt64.toNat_ofNat_of_lt' small]
      show positional 0 payload = 1 ↔ _
      omega
  · rw [readWord_eq, if_neg fun all => digits all.1]
    exact iff_of_true rfl fun padded => digits padded.2.2.2.1

/-! ## The record the probe builds -/

theorem reversedDigits_length (turns : Nat) (remaining : UInt64) :
    (reversedDigits turns remaining).length ≤ turns := by
  induction turns generalizing remaining with
  | zero => exact Nat.le_refl 0
  | succ turns ih =>
      rw [reversedDigits]
      split
      · exact Nat.succ_le_succ (Nat.zero_le turns)
      · exact Nat.succ_le_succ (ih _)

/-- With turns enough for its digits the loop writes the numeral backwards. -/
theorem reversedDigits_reverse (turns : Nat) {remaining : UInt64}
    (enough : remaining.toNat < 10 ^ (turns + 1)) :
    (reversedDigits (turns + 1) remaining).reverse = decimal remaining.toNat := by
  have digit : 0x30 + (remaining % 10).toUInt8 = UInt8.ofNat (48 + remaining.toNat % 10) := by
    apply UInt8.toNat.inj
    rw [toNat_digit (Nat.mod_lt _ (by decide)), UInt8.toNat_add, UInt64.toNat_toUInt8,
      UInt64.toNat_mod]
    show (48 + remaining.toNat % 10 % 256) % 256 = _
    omega
  have quotient : (remaining / 10).toNat = remaining.toNat / 10 := UInt64.toNat_div _ _
  rw [reversedDigits]
  by_cases last : remaining.toNat / 10 = 0
  · have zero : (remaining / 10 == 0) = true := by
      rw [beq_iff_eq, ← UInt64.toNat_inj, quotient, last]
      rfl
    rw [zero, if_pos rfl, digit, decimal_of_lt (by omega), List.reverse_singleton,
      Nat.mod_eq_of_lt (by omega)]
  · have more : (remaining / 10 == 0) = false := by
      rw [beq_eq_false_iff_ne, ne_eq, ← UInt64.toNat_inj, quotient]
      exact last
    rw [more, if_neg Bool.false_ne_true, digit, List.reverse_cons, decimal_step last, ← quotient]
    congr 1
    cases turns with
    | zero => omega
    | succ turns =>
        apply reversedDigits_reverse turns
        rw [quotient, Nat.div_lt_iff_lt_mul (by decide), ← Nat.pow_succ]
        exact enough

theorem canonical_decimal {n : Nat} (short : (decimal n).length ≤ 20) :
    CanonicalCount (decimal n) := by
  refine ⟨decimal_ne_nil n, short, ?_, List.all_eq_true.2 (decimal_digits n)⟩
  by_cases zero : n = 0
  · subst zero
    exact .inl rfl
  · exact .inr (decimal_head zero)

/-- A numeral weighs its number, and zero weighs one. -/
theorem gapWeight_decimal {dropped : UInt64} (short : (decimal dropped.toNat).length ≤ 20) :
    gapWeight (decimal dropped.toNat) = max dropped 1 := by
  rw [gapWeight, positional_decimal]
  by_cases zero : dropped = 0
  · subst zero
    rfl
  · have positive : 0 < dropped.toNat :=
      Nat.pos_of_ne_zero fun none => zero (UInt64.toNat.inj none)
    have least : 1 ≤ dropped := UInt64.le_iff_toNat_le.2 positive
    rw [if_pos ⟨canonical_decimal short, positive, dropped.toNat_lt⟩, UInt64.ofNat_toNat,
      max_eq_left least]

theorem gap_event_payload (reference : NativeProbeEvent) (dropped : UInt64) :
    inlinePayload (makeNativeProbeGapEvent reference dropped) = decimal dropped.toNat ∧
      (decimal dropped.toNat).length ≤ 20 ∧
      (makeNativeProbeGapEvent reference dropped).header.payloadSize.toNat ≤ kInlinePayloadSize := by
  have enough : dropped.toNat < 10 ^ (19 + 1) := dropped.toNat_lt.trans (by decide)
  have digits : (reversedDigits 20 dropped).reverse = decimal dropped.toNat :=
    reversedDigits_reverse 19 enough
  have short : (decimal dropped.toNat).length ≤ 20 := by
    rw [← digits, List.length_reverse]
    exact reversedDigits_length 20 dropped
  have size : (makeNativeProbeGapEvent reference dropped).header.payloadSize.toNat =
      (decimal dropped.toNat).length := by
    show (reversedDigits 20 dropped).reverse.length.toUInt32.toNat = _
    rw [digits]
    exact UInt32.toNat_ofNat_of_lt' (show _ < 2 ^ 32 by omega)
  refine ⟨?_, short, ?_⟩
  · have fits : (decimal dropped.toNat).length ≤ kInlinePayloadSize := short.trans (by decide)
    rw [inlinePayload, size, Nat.min_eq_left fits]
    show ((Vector.ofFn fun index : Fin 128 =>
      (reversedDigits 20 dropped).reverse.getD index 0).toList).take _ = _
    rw [digits]
    apply List.ext_getElem
    · rw [List.length_take, Vector.length_toList]
      exact Nat.min_eq_left (by omega)
    · intro i inside written
      rw [List.getElem_take, Vector.getElem_toList, Vector.getElem_ofFn,
        List.getD_eq_getElem _ _ written]
  · rw [size]
    exact short.trans (by decide)

/-! ## The three readers -/

/-- All three readers weigh the gap record and its stored value as `weight`. -/
def Weighs (hexDecode : String → Option (List UInt8)) (event : NativeProbeEvent) (stored : Value)
    (weight : UInt64) : Prop :=
  nativeProbeDropWeight event = weight ∧ reportedQueueDrops event = weight ∧
    dropWeight hexDecode stored = weight

/-- The three readers agree on a gap record exactly when its payload is not a padded
count, and on the record of any drop count they read the count, or one for zero. -/
theorem gap_weights_agree {hexDecode : String → Option (List UInt8)}
    (decodes : ∀ bytes, hexDecode (hexText bytes) = some bytes) :
    (∀ (event : NativeProbeEvent) (stored : Value), Stores stored event →
      event.header.type = .gap → event.header.payloadSize.toNat ≤ kInlinePayloadSize →
      ((∃ weight, Weighs hexDecode event stored weight) ↔ ¬ PaddedCount (inlinePayload event))) ∧
    ∀ (reference : NativeProbeEvent) (dropped : UInt64) (stored : Value),
      Stores stored (makeNativeProbeGapEvent reference dropped) →
      Weighs hexDecode (makeNativeProbeGapEvent reference dropped) stored (max dropped 1) := by
  constructor
  · intro event stored stores gap size
    rw [← native_eq_iff gap size]
    constructor
    · rintro ⟨weight, native, reported, -⟩
      rw [native, ← reported, reportedQueueDrops_eq]
    · intro native
      exact ⟨_, native, reportedQueueDrops_eq event, dropWeight_eq decodes stores⟩
  · intro reference dropped stored stores
    obtain ⟨payload, short, size⟩ := gap_event_payload reference dropped
    have weight : gapWeight (inlinePayload (makeNativeProbeGapEvent reference dropped)) =
        max dropped 1 := by rw [payload, gapWeight_decimal short]
    have unpadded : ¬ PaddedCount (inlinePayload (makeNativeProbeGapEvent reference dropped)) := by
      rintro ⟨least, -, zero, -⟩
      rw [payload] at least zero
      rcases (canonical_decimal short).2.2.1 with single | other
      · omega
      · exact other zero
    rw [← weight]
    exact ⟨(native_eq_iff rfl size).2 unpadded, reportedQueueDrops_eq _,
      dropWeight_eq decodes stores⟩

/-! ## A decoder and a padded count -/

def hexValue (c : Char) : Option UInt8 :=
  if '0' ≤ c ∧ c ≤ '9' then some (.ofNat (c.toNat - 48))
  else if 'a' ≤ c ∧ c ≤ 'f' then some (.ofNat (c.toNat - 87))
  else if 'A' ≤ c ∧ c ≤ 'F' then some (.ofNat (c.toNat - 55))
  else none

/-- Pairs of hex digits of either case; an odd one out is refused. -/
def hexPairs : List Char → Option (List UInt8)
  | [] => some []
  | [_] => none
  | high :: low :: rest => do
      let high ← hexValue high
      let low ← hexValue low
      let bytes ← hexPairs rest
      return (high <<< 4 ||| low) :: bytes

theorem hexPairs_hexText (payload : List UInt8) :
    hexPairs (hexText payload).toList = some payload := by
  have table : ∀ n < 256, let byte := UInt8.ofNat n
      hexValue ("0123456789abcdef".toList.getD (byte >>> 4).toNat '0') = some (byte >>> 4) ∧
      hexValue ("0123456789abcdef".toList.getD (byte &&& 0x0f).toNat '0') = some (byte &&& 0x0f) ∧
      ((byte >>> 4) <<< 4 ||| (byte &&& 0x0f)) = byte := by decide +kernel
  rw [hexText, String.toList_ofList]
  induction payload with
  | nil => rfl
  | cons byte rest ih =>
      obtain ⟨high, low, joined⟩ := table byte.toNat byte.toNat_lt
      rw [UInt8.ofNat_toNat] at high low joined
      rw [List.flatMap_cons, List.cons_append, List.cons_append, List.nil_append, hexPairs, ih,
        high, low]
      exact congrArg (fun byte => some (byte :: rest)) joined

/-- Every reader agrees on the gap record of seven lost events. -/
theorem gap_weights_agree_seven :
    Weighs (fun text => hexPairs text.toList) (makeNativeProbeGapEvent {} 7)
      (.object [("payload", .string "37")]) 7 :=
  (gap_weights_agree fun payload => hexPairs_hexText payload).2 {} 7 _
    (congrArg Value.string (show "37" = hexText (inlinePayload (makeNativeProbeGapEvent {} 7)) by
      decide +kernel))

/-- A gap record that counts five events with a leading zero. -/
def paddedGap : EventRecord :=
  { header := { category := .webGl, type := .gap, payloadSize := 2 }
    inlinePayload := Vector.ofFn fun index => [0x30, 0x35].getD index 0 }

/-- A padded count is a valid record that the native queue and the broker weigh
differently. -/
theorem padded_count_disagrees :
    isValidEvent paddedGap = true ∧ nativeProbeDropWeight paddedGap = 5 ∧
      reportedQueueDrops paddedGap = 1 := by
  decide +kernel

end Reb.Probe
