/-
# Probe.WasmBudget -- sample budgets of one thread

`NativeWasmBudgetKeySlot` keeps its count, publish bit, incarnation and epoch in
one 64-bit word, so that a release and a reuse cannot both update it.  The views
below are the source's; each is a quotient and a remainder of the word's number
(`toNat_epochOf` and its siblings), and the lemmas about the two words the code
writes, a packed stamp and a stamp plus or minus one, follow from those.

`RetainWasmBudgetKey` and `ReleaseWasmBudgetKey` as calls that do not overlap:
every compare-exchange sees the word just loaded and succeeds, and a weak one
that fails spuriously reads the same word again.  The probe loop, the re-check
after a publication and the 64 attempts are the source's.

A claim is what a retain returned; a run keeps the list of claims not yet
released, and a release takes one out of it.
-/
import Mathlib

namespace Reb.Probe

set_option autoImplicit false

inductive NativeWasmBudgetKeyKind where
  | kFunction | kSite
  deriving DecidableEq, Repr

/-- `static_cast<std::uint32_t>(kind)`. -/
def NativeWasmBudgetKeyKind.toUInt32 : NativeWasmBudgetKeyKind → UInt32
  | .kFunction => 0
  | .kSite => 1

structure NativeWasmBudgetKeySlot where
  stamp : UInt64 := 0
  kind : UInt32 := 0
  primary : UInt32 := 0
  secondary : UInt32 := 0
  deriving DecidableEq, Repr

/-- The three key arguments of `RetainWasmBudgetKey`. -/
structure BudgetKey where
  kind : NativeWasmBudgetKeyKind
  primary : UInt32
  secondary : UInt32
  deriving DecidableEq, Repr

def kNativeWasmBudgetPublishBit : UInt64 := 0x8000
def kNativeWasmBudgetCountMask : UInt64 := 0x7fff
def kNativeWasmBudgetIncarnationShift : UInt64 := 16
def kNativeWasmBudgetIncarnationMask : UInt64 := 0xffff
def kNativeWasmBudgetEpochShift : UInt64 := 32

def nativeWasmBudgetEpochOf (stamp : UInt64) : UInt64 := stamp >>> kNativeWasmBudgetEpochShift

def nativeWasmBudgetIncarnationOf (stamp : UInt64) : UInt32 :=
  ((stamp >>> kNativeWasmBudgetIncarnationShift) &&& kNativeWasmBudgetIncarnationMask).toUInt32

def nativeWasmBudgetCountOf (stamp : UInt64) : UInt32 :=
  (stamp &&& kNativeWasmBudgetCountMask).toUInt32

def nativeWasmBudgetStamp (epoch : UInt64) (incarnation count : UInt32) : UInt64 :=
  (epoch <<< kNativeWasmBudgetEpochShift) |||
    (incarnation.toUInt64 <<< kNativeWasmBudgetIncarnationShift) ||| count.toUInt64

/-- The publish bit, which hides a key until its fields are stored. -/
def publishBitSet (stamp : UInt64) : Bool := (stamp &&& kNativeWasmBudgetPublishBit) != 0

def nativeWasmBudgetStampVisible (stamp epoch : UInt64) : Bool :=
  nativeWasmBudgetEpochOf stamp == epoch && !publishBitSet stamp

/-- The comparison of the three key words; a function has no call site, so its
secondary word is not read. -/
def keyFieldsMatch (slot : NativeWasmBudgetKeySlot) (key : BudgetKey) : Bool :=
  slot.kind == key.kind.toUInt32 && slot.primary == key.primary &&
    (key.kind == .kFunction || slot.secondary == key.secondary)

def nativeWasmBudgetKeyMatches (slot : NativeWasmBudgetKeySlot) (epoch : UInt64)
    (key : BudgetKey) : Bool :=
  nativeWasmBudgetStampVisible slot.stamp epoch && keyFieldsMatch slot key

/-! ## The views as numbers -/

theorem toNat_epochOf (stamp : UInt64) :
    (nativeWasmBudgetEpochOf stamp).toNat = stamp.toNat / 2 ^ 32 := by
  rw [nativeWasmBudgetEpochOf, UInt64.toNat_shiftRight, Nat.shiftRight_eq_div_pow]
  rfl

theorem toNat_incarnationOf (stamp : UInt64) :
    (nativeWasmBudgetIncarnationOf stamp).toNat = stamp.toNat / 2 ^ 16 % 2 ^ 16 := by
  have masked : ((stamp >>> kNativeWasmBudgetIncarnationShift) &&&
      kNativeWasmBudgetIncarnationMask).toNat = stamp.toNat / 2 ^ 16 % 2 ^ 16 := by
    rw [UInt64.toNat_and, UInt64.toNat_shiftRight, Nat.shiftRight_eq_div_pow]
    exact Nat.and_two_pow_sub_one_eq_mod _ 16
  rw [nativeWasmBudgetIncarnationOf, UInt64.toNat_toUInt32, masked]
  omega

theorem toNat_countOf (stamp : UInt64) :
    (nativeWasmBudgetCountOf stamp).toNat = stamp.toNat % 2 ^ 15 := by
  have masked : (stamp &&& kNativeWasmBudgetCountMask).toNat = stamp.toNat % 2 ^ 15 := by
    rw [UInt64.toNat_and]
    exact Nat.and_two_pow_sub_one_eq_mod _ 15
  rw [nativeWasmBudgetCountOf, UInt64.toNat_toUInt32, masked]
  omega

theorem publishBitSet_iff (stamp : UInt64) :
    publishBitSet stamp = true ↔ stamp.toNat / 2 ^ 15 % 2 = 1 := by
  have bit : (stamp &&& kNativeWasmBudgetPublishBit).toNat =
      (stamp.toNat.testBit 15).toNat * 2 ^ 15 := by
    rw [UInt64.toNat_and]
    exact Nat.and_two_pow _ 15
  rw [publishBitSet, bne_iff_ne, ne_eq, ← UInt64.toNat_inj, bit, UInt64.toNat_zero,
    Nat.testBit_eq_decide_div_mod_eq]
  simp

theorem toNat_stamp {epoch : UInt64} {incarnation count : UInt32} (epochLt : epoch.toNat < 2 ^ 32)
    (incarnationLt : incarnation.toNat < 2 ^ 16) (countLt : count.toNat < 2 ^ 16) :
    (nativeWasmBudgetStamp epoch incarnation count).toNat =
      epoch.toNat * 2 ^ 32 + incarnation.toNat * 2 ^ 16 + count.toNat := by
  have high : (epoch <<< kNativeWasmBudgetEpochShift).toNat = epoch.toNat <<< 32 := by
    rw [UInt64.toNat_shiftLeft]
    exact Nat.mod_eq_of_lt (by rw [Nat.shiftLeft_eq]; show epoch.toNat * 2 ^ 32 < 2 ^ 64; omega)
  have middle : (incarnation.toUInt64 <<< kNativeWasmBudgetIncarnationShift).toNat =
      incarnation.toNat <<< 16 := by
    rw [UInt64.toNat_shiftLeft, UInt32.toNat_toUInt64]
    exact Nat.mod_eq_of_lt (by
      rw [Nat.shiftLeft_eq]; show incarnation.toNat * 2 ^ 16 < 2 ^ 64; omega)
  have low : incarnation.toNat <<< 16 ||| count.toNat = incarnation.toNat <<< 16 + count.toNat :=
    (Nat.shiftLeft_add_eq_or_of_lt (by omega) _).symm
  rw [nativeWasmBudgetStamp, UInt64.toNat_or, UInt64.toNat_or, UInt32.toNat_toUInt64, high, middle,
    Nat.or_assoc, low, ← Nat.shiftLeft_add_eq_or_of_lt (by rw [Nat.shiftLeft_eq]; omega),
    Nat.shiftLeft_eq, Nat.shiftLeft_eq, Nat.add_assoc]

/-! ## The words the code writes -/

/-- Adding one to a count below the mask changes the count only. -/
theorem views_add_one {stamp : UInt64} (room : (nativeWasmBudgetCountOf stamp).toNat < 0x7fff) :
    nativeWasmBudgetEpochOf (stamp + 1) = nativeWasmBudgetEpochOf stamp ∧
      nativeWasmBudgetIncarnationOf (stamp + 1) = nativeWasmBudgetIncarnationOf stamp ∧
      publishBitSet (stamp + 1) = publishBitSet stamp ∧
      (nativeWasmBudgetCountOf (stamp + 1)).toNat = (nativeWasmBudgetCountOf stamp).toNat + 1 := by
  have bound := stamp.toNat_lt
  rw [toNat_countOf] at room
  have next : (stamp + 1).toNat = stamp.toNat + 1 := by
    rw [UInt64.toNat_add, UInt64.toNat_one, Nat.mod_eq_of_lt (by omega)]
  refine ⟨?_, ?_, ?_, ?_⟩
  · rw [← UInt64.toNat_inj, toNat_epochOf, toNat_epochOf, next]; omega
  · rw [← UInt32.toNat_inj, toNat_incarnationOf, toNat_incarnationOf, next]; omega
  · rw [Bool.eq_iff_iff, publishBitSet_iff, publishBitSet_iff, next]; omega
  · rw [toNat_countOf, toNat_countOf, next]; omega

/-- Taking one from a nonzero count changes the count only. -/
theorem views_sub_one {stamp : UInt64} (positive : nativeWasmBudgetCountOf stamp ≠ 0) :
    nativeWasmBudgetEpochOf (stamp - 1) = nativeWasmBudgetEpochOf stamp ∧
      nativeWasmBudgetIncarnationOf (stamp - 1) = nativeWasmBudgetIncarnationOf stamp ∧
      publishBitSet (stamp - 1) = publishBitSet stamp ∧
      (nativeWasmBudgetCountOf (stamp - 1)).toNat + 1 =
        (nativeWasmBudgetCountOf stamp).toNat := by
  have nonzero : stamp.toNat % 2 ^ 15 ≠ 0 := by
    rw [← toNat_countOf]
    exact fun zero => positive (UInt32.toNat_inj.1 zero)
  have previous : (stamp - 1).toNat = stamp.toNat - 1 := by
    rw [UInt64.toNat_sub_of_le _ _ (by rw [UInt64.le_iff_toNat_le, UInt64.toNat_one]; omega),
      UInt64.toNat_one]
  refine ⟨?_, ?_, ?_, ?_⟩
  · rw [← UInt64.toNat_inj, toNat_epochOf, toNat_epochOf, previous]; omega
  · rw [← UInt32.toNat_inj, toNat_incarnationOf, toNat_incarnationOf, previous]; omega
  · rw [Bool.eq_iff_iff, publishBitSet_iff, publishBitSet_iff, previous]; omega
  · rw [toNat_countOf, toNat_countOf, previous]; omega

/-- A packed stamp reads back as what was packed. -/
theorem views_stamp {epoch : UInt64} {incarnation count : UInt32}
    (epochLt : epoch.toNat < 2 ^ 32) (incarnationLt : incarnation.toNat < 2 ^ 16)
    (countLt : count.toNat < 2 ^ 15) :
    nativeWasmBudgetEpochOf (nativeWasmBudgetStamp epoch incarnation count) = epoch ∧
      nativeWasmBudgetIncarnationOf (nativeWasmBudgetStamp epoch incarnation count) = incarnation ∧
      publishBitSet (nativeWasmBudgetStamp epoch incarnation count) = false ∧
      nativeWasmBudgetCountOf (nativeWasmBudgetStamp epoch incarnation count) = count := by
  have packed := toNat_stamp epochLt incarnationLt (countLt.trans (by decide))
  refine ⟨?_, ?_, ?_, ?_⟩
  · rw [← UInt64.toNat_inj, toNat_epochOf, packed]; omega
  · rw [← UInt32.toNat_inj, toNat_incarnationOf, packed]; omega
  · rw [Bool.eq_false_iff, ne_eq, publishBitSet_iff, packed]; omega
  · rw [← UInt32.toNat_inj, toNat_countOf, packed]; omega

/-- The word of a slot whose key is being stored. -/
def publishingStamp (epoch : UInt64) (incarnation : UInt32) : UInt64 :=
  nativeWasmBudgetStamp epoch incarnation 0 ||| kNativeWasmBudgetPublishBit

theorem views_publishing {epoch : UInt64} {incarnation : UInt32} (epochLt : epoch.toNat < 2 ^ 32)
    (incarnationLt : incarnation.toNat < 2 ^ 16) :
    nativeWasmBudgetEpochOf (publishingStamp epoch incarnation) = epoch ∧
      nativeWasmBudgetIncarnationOf (publishingStamp epoch incarnation) = incarnation ∧
      publishBitSet (publishingStamp epoch incarnation) = true ∧
      nativeWasmBudgetCountOf (publishingStamp epoch incarnation) = 0 := by
  have packed : (publishingStamp epoch incarnation).toNat =
      epoch.toNat * 2 ^ 32 + incarnation.toNat * 2 ^ 16 + 2 ^ 15 := by
    have shifted : epoch.toNat * 2 ^ 32 + incarnation.toNat * 2 ^ 16 =
        (epoch.toNat * 2 ^ 16 + incarnation.toNat) <<< 16 := by rw [Nat.shiftLeft_eq]; omega
    rw [publishingStamp, UInt64.toNat_or, toNat_stamp epochLt incarnationLt (by decide),
      UInt32.toNat_zero, Nat.add_zero, shifted]
    exact (Nat.shiftLeft_add_eq_or_of_lt (by decide) _).symm
  refine ⟨?_, ?_, ?_, ?_⟩
  · rw [← UInt64.toNat_inj, toNat_epochOf, packed]; omega
  · rw [← UInt32.toNat_inj, toNat_incarnationOf, packed]; omega
  · rw [publishBitSet_iff, packed]; omega
  · rw [← UInt32.toNat_inj, toNat_countOf, packed, UInt32.toNat_zero]; omega

theorem stampVisible_iff {stamp epoch : UInt64} :
    nativeWasmBudgetStampVisible stamp epoch = true ↔
      nativeWasmBudgetEpochOf stamp = epoch ∧ publishBitSet stamp = false := by
  simp [nativeWasmBudgetStampVisible]

end Reb.Probe

namespace Reb.Probe

/-! # Retain and release -/

/-! ## The two calls -/

/-- `std::span<NativeWasmBudgetKeySlot>` of `n` slots. -/
abbrev BudgetSlots (n : Nat) : Type := Fin n → NativeWasmBudgetKeySlot

/-- `NativeWasmBudgetRetainResult`; slot and incarnation are read only when
retained. -/
inductive NativeWasmBudgetRetain (n : Nat) where
  | kRetained (slot : Fin n) (incarnation : UInt32)
  | kCapped
  deriving DecidableEq, Repr

/-- How a pass over the slots ends: with a result, with `retry` set, or with the
loop run out. -/
inductive ProbeOutcome (n : Nat) where
  | done (result : NativeWasmBudgetRetain n)
  | retry
  | exhausted
  deriving DecidableEq, Repr

def releaseWasmBudgetKey (slot : NativeWasmBudgetKeySlot) (epoch : UInt64) (incarnation : UInt32) :
    NativeWasmBudgetKeySlot :=
  if nativeWasmBudgetStampVisible slot.stamp epoch &&
      nativeWasmBudgetIncarnationOf slot.stamp == incarnation &&
      nativeWasmBudgetCountOf slot.stamp != 0 then
    { slot with stamp := slot.stamp - 1 }
  else slot

section Retain

variable {n : Nat}

/-- The slot a key's probe sequence begins with. -/
def probeStart (n : Nat) (key : BudgetKey) : Nat :=
  (key.primary.toUInt64 * 0x9e3779b1 + key.secondary.toUInt64 +
    key.kind.toUInt32.toUInt64).toNat % n

/-- The slot at one position of a key's probe sequence. -/
def probeAt (nonempty : 0 < n) (key : BudgetKey) (probe : Nat) : Fin n :=
  ⟨(probeStart n key + probe) % n, Nat.mod_lt _ nonempty⟩

/-- Count one more sample on a slot that holds the key, unless it is capped. -/
def claimSlot (slots : BudgetSlots n) (index : Fin n) (epoch : UInt64) (key : BudgetKey)
    (limit : UInt32) : BudgetSlots n × ProbeOutcome n :=
  let stamp := (slots index).stamp
  if nativeWasmBudgetStampVisible stamp epoch &&
      nativeWasmBudgetKeyMatches (slots index) epoch key then
    if nativeWasmBudgetCountOf stamp ≥ limit then (slots, .done .kCapped)
    else
      (Function.update slots index { slots index with stamp := stamp + 1 },
        .done (.kRetained index (nativeWasmBudgetIncarnationOf stamp)))
  else (slots, .retry)

/-- The slot as the publication leaves it, with the first sample counted. -/
def publishedSlot (epoch : UInt64) (incarnation : UInt32) (key : BudgetKey) :
    NativeWasmBudgetKeySlot :=
  { stamp := nativeWasmBudgetStamp epoch incarnation 1
    kind := key.kind.toUInt32
    primary := key.primary
    secondary := key.secondary }

/-- After a publication: give the slot back when an earlier position of the probe
sequence is being published or already holds the key. -/
def checkEarlier (nonempty : 0 < n) (index : Fin n) (epoch : UInt64) (incarnation : UInt32)
    (key : BudgetKey) (limit : UInt32) :
    List Nat → BudgetSlots n → BudgetSlots n × ProbeOutcome n
  | [], slots => (slots, .done (.kRetained index incarnation))
  | earlier :: rest, slots =>
      let prior := probeAt nonempty key earlier
      let given := Function.update slots index
        (releaseWasmBudgetKey (slots index) epoch incarnation)
      if publishBitSet (slots prior).stamp &&
          nativeWasmBudgetEpochOf (slots prior).stamp == epoch then (given, .retry)
      else if !nativeWasmBudgetKeyMatches (slots prior) epoch key then
        checkEarlier nonempty index epoch incarnation key limit rest slots
      else claimSlot given prior epoch key limit

/-- The incarnation a reused slot continues from. -/
def previousIncarnation (stamp epoch : UInt64) : UInt32 :=
  if nativeWasmBudgetEpochOf stamp == epoch then nativeWasmBudgetIncarnationOf stamp else 0

/-- A slot another key may not take: its samples of this epoch are outstanding. -/
def slotLive (stamp epoch : UInt64) : Bool :=
  nativeWasmBudgetEpochOf stamp == epoch && nativeWasmBudgetCountOf stamp != 0 && stamp != 0

/-- One pass of the probe loop over the given positions. -/
def probeSlots (nonempty : 0 < n) (epoch : UInt64) (key : BudgetKey) (limit : UInt32) :
    List Nat → BudgetSlots n → BudgetSlots n × ProbeOutcome n
  | [], slots => (slots, .exhausted)
  | probe :: rest, slots =>
      let index := probeAt nonempty key probe
      let stamp := (slots index).stamp
      if nativeWasmBudgetKeyMatches (slots index) epoch key then
        claimSlot slots index epoch key limit
      else if publishBitSet stamp then (slots, .retry)
      else if slotLive stamp epoch then probeSlots nonempty epoch key limit rest slots
      else if (previousIncarnation stamp epoch).toUInt64 == kNativeWasmBudgetIncarnationMask then
        probeSlots nonempty epoch key limit rest slots
      else
        let incarnation := previousIncarnation stamp epoch + 1
        checkEarlier nonempty index epoch incarnation key limit (List.range probe)
          (Function.update slots index (publishedSlot epoch incarnation key))

/-- The attempt loop. -/
def attemptRetain (nonempty : 0 < n) (epoch : UInt64) (key : BudgetKey) (limit : UInt32) :
    Nat → BudgetSlots n → BudgetSlots n × NativeWasmBudgetRetain n
  | 0, slots => (slots, .kCapped)
  | attempts + 1, slots =>
      match probeSlots nonempty epoch key limit (List.range n) slots with
      | (slots, .done result) => (slots, result)
      | (slots, .retry) => attemptRetain nonempty epoch key limit attempts slots
      | (slots, .exhausted) => (slots, .kCapped)

/-- The arguments `RetainWasmBudgetKey` goes on with: an even epoch that fits its
32 bits, and a limit the count can reach. -/
def retainArgumentsValid (epoch : UInt64) (limit : UInt32) : Bool :=
  !(limit == 0 || limit.toUInt64 > kNativeWasmBudgetCountMask || epoch < 2 || (epoch &&& 1) != 0 ||
    epoch ≥ 1 <<< kNativeWasmBudgetEpochShift)

/-- What `retainArgumentsValid` lets through. -/
theorem retain_arguments {epoch : UInt64} {limit : UInt32}
    (valid : retainArgumentsValid epoch limit = true) :
    0 < limit.toNat ∧ limit.toNat ≤ 0x7fff ∧ epoch.toNat < 2 ^ 32 := by
  simp only [retainArgumentsValid, Bool.not_eq_true', Bool.or_eq_false_iff, beq_eq_false_iff_ne,
    decide_eq_false_iff_not, gt_iff_lt, ge_iff_le, ne_eq] at valid
  obtain ⟨⟨⟨⟨nonzero, small⟩, -⟩, -⟩, fits⟩ := valid
  refine ⟨?_, ?_, ?_⟩
  · exact Nat.pos_of_ne_zero fun zero => nonzero (UInt32.toNat_inj.1 zero)
  · rw [UInt64.lt_iff_toNat_lt, UInt32.toNat_toUInt64] at small
    exact not_lt.1 small
  · rw [UInt64.le_iff_toNat_le] at fits
    exact not_le.1 fits

def retainWasmBudgetKey (slots : BudgetSlots n) (epoch : UInt64) (key : BudgetKey)
    (limit : UInt32) : BudgetSlots n × NativeWasmBudgetRetain n :=
  if nonempty : 0 < n then
    if retainArgumentsValid epoch limit then attemptRetain nonempty epoch key limit 64 slots
    else (slots, .kCapped)
  else (slots, .kCapped)

end Retain

/-! ## Runs -/

/-- What a retain returned, and for which key. -/
structure Claim (n : Nat) where
  slot : Fin n
  incarnation : UInt32
  key : BudgetKey
  deriving DecidableEq, Repr

inductive BudgetCall (n : Nat) where
  | retain (key : BudgetKey)
  | release (claim : Claim n)
  deriving DecidableEq, Repr

structure BudgetState (n : Nat) where
  slots : BudgetSlots n := fun _ => {}
  outstanding : List (Claim n) := []

namespace BudgetState

variable {n : Nat}

/-- One call; each key has one limit, and a release needs an outstanding claim. -/
def call (epoch : UInt64) (limit : BudgetKey → UInt32) (state : BudgetState n) :
    BudgetCall n → Option (BudgetState n)
  | .retain key =>
      let (slots, result) := retainWasmBudgetKey state.slots epoch key (limit key)
      match result with
      | .kRetained slot incarnation => some ⟨slots, ⟨slot, incarnation, key⟩ :: state.outstanding⟩
      | .kCapped => some ⟨slots, state.outstanding⟩
  | .release claim =>
      if claim ∈ state.outstanding then
        some
          { slots := Function.update state.slots claim.slot
              (releaseWasmBudgetKey (state.slots claim.slot) epoch claim.incarnation)
            outstanding := state.outstanding.erase claim }
      else none

def calls (epoch : UInt64) (limit : BudgetKey → UInt32) (state : BudgetState n) :
    List (BudgetCall n) → Option (BudgetState n)
  | [] => some state
  | first :: rest => (state.call epoch limit first).bind fun next => calls epoch limit next rest

/-- The number of outstanding claims on a key. -/
def outstandingOf (state : BudgetState n) (key : BudgetKey) : Nat :=
  state.outstanding.countP (·.key = key)

end BudgetState

end Reb.Probe
