/-
# Capture.StoredEvent -- one event as the broker stores it

The members of the JSON object `WriteEventJson` appends, and how the backend
reads them: identifiers as canonical decimal text (`validation::canonical`) and
the payload as hex.
-/
import Reb.Capture.Event
import Reb.Theory.Decimal

namespace Reb.Capture

set_option autoImplicit false

open Reb.Theory.Decimal

/-! ## Writing -/

/-- `kHex`, by the digit's value. -/
def hexDigit (value : UInt8) : UInt8 := if value < 10 then 48 + value else 87 + value

def hexText (payload : List UInt8) : List UInt8 :=
  payload.flatMap fun byte : UInt8 => [hexDigit (byte >>> 4), hexDigit (byte &&& 0x0f)]

/-- The members the readers look at.  Texts are kept as their bytes. -/
structure StoredEvent where
  protocolVersion : Nat
  sessionId : List UInt8
  sequenceNumber : List UInt8
  monotonicTimeNs : List UInt8
  processId : Nat
  threadId : Nat
  navigationId : List UInt8
  frameId : List UInt8
  artifactId : List UInt8
  parentEventId : List UInt8
  requestId : List UInt8
  flags : Nat
  payloadTruncated : Bool
  category : String
  type : String
  payloadSize : Nat
  payloadEncoding : String
  payload : List UInt8
  deriving DecidableEq, Repr

/-- `validation::canonical(value, bits, nonzero, ..)` on a text. -/
def canonical (text : List UInt8) (bits : Nat) (nonzero : Bool) : Option Nat :=
  if text = [] || (1 < text.length && text.head? == some 48) || !text.all isDigit then none
  else
    match fromDecimal text with
    | none => none
    | some n =>
        if 2 ^ 64 ≤ n then none
        else if (bits == 32 && 0xffffffff < n) || (nonzero && n == 0) then none
        else some n

def hexValue (digit : UInt8) : Option UInt8 :=
  if 48 ≤ digit && digit ≤ 57 then some (digit - 48)
  else if 65 ≤ digit && digit ≤ 70 then some (digit - 55)
  else if 97 ≤ digit && digit ≤ 102 then some (digit - 87)
  else none

/-- `hex::decode`: pairs of digits of either case; an odd length or another
character is an error. -/
def hexDecode : List UInt8 → Option (List UInt8)
  | [] => some []
  | [_] => none
  | high :: low :: rest =>
      match hexValue high, hexValue low, hexDecode rest with
      | some high, some low, some bytes => some ((high <<< 4 ||| low) :: bytes)
      | _, _, _ => none

/-- A number the writer stored is read back, unless it is a zero that must not be. -/
theorem canonical_decimal (n : UInt64) (nonzero : Bool) :
    canonical (decimal n.toNat) 64 nonzero = if nonzero && n == 0 then none else some n.toNat := by
  have small : n.toNat < 2 ^ 64 := n.toNat_lt
  have digits : (decimal n.toNat).all isDigit = true :=
    List.all_eq_true.2 (decimal_digits n.toNat)
  have lead : ¬ (1 < (decimal n.toNat).length ∧ (decimal n.toNat).head? = some 48) := by
    rintro ⟨long, zero⟩
    by_cases nil : n.toNat = 0
    · rw [nil] at long
      exact absurd long (by decide)
    · exact decimal_head nil zero
  have same : (n == 0) = (n.toNat == 0) := by
    rw [Bool.eq_iff_iff, beq_iff_eq, beq_iff_eq, ← UInt64.toNat_inj]
    rfl
  rw [canonical, if_neg (by simp [decimal_ne_nil, digits]; simpa using lead), fromDecimal_decimal]
  simp only [if_neg (Nat.not_le.2 small), same]
  simp

end Reb.Capture
