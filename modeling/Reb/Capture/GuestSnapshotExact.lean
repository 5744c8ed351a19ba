/-
# Capture.GuestSnapshotExact -- a resolved snapshot is exact and in range

Every quantity of a resolved snapshot, as an exact integer: the counter is the raw counter
plus the adjustment, whatever its sign (`adjustPc_iff`), the addresses of a pointer chain do
not wrap (`Follows`), and the opcode is the value of its bytes (`readOpcode_little`,
`readOpcode_big`).  What the renderer writes about a snapshot passes the host's checks.
-/
import Reb.Capture.GuestSnapshot
import Reb.Theory.Positional

namespace Reb.Capture

open Theory.LittleEndian

set_option autoImplicit false

/-! ## The counter -/

theorem toInt_cases (adjustment : Int64) :
    (2 * adjustment.toUInt64.toNat < 2 ^ 64 ∧ adjustment.toInt = adjustment.toUInt64.toNat)
      ∨ (2 ^ 64 ≤ 2 * adjustment.toUInt64.toNat
        ∧ adjustment.toInt = adjustment.toUInt64.toNat - 2 ^ 64) := by
  have cond : adjustment.toInt = if 2 * adjustment.toUInt64.toNat < 2 ^ 64
      then (adjustment.toUInt64.toNat : Int) else adjustment.toUInt64.toNat - 2 ^ 64 :=
    BitVec.toInt_eq_toNat_cond adjustment.toBitVec
  by_cases low : 2 * adjustment.toUInt64.toNat < 2 ^ 64
  · rw [if_pos low] at cond
    exact .inl ⟨low, cond⟩
  · rw [if_neg low] at cond
    exact .inr ⟨not_lt.1 low, cond⟩

theorem nonneg_iff (adjustment : Int64) : adjustment ≥ 0 ↔ 0 ≤ adjustment.toInt := by
  rw [ge_iff_le, Int64.le_iff_toInt_le, Int64.toInt_zero]

/-- The distance down, also for the least adjustment. -/
theorem toNat_delta {adjustment : Int64} (negative : adjustment.toInt < 0) :
    (((-(adjustment + 1)).toUInt64 + 1).toNat : Int) = -adjustment.toInt := by
  have same : (-(adjustment + 1)).toUInt64 + 1 = -adjustment.toUInt64 := by
    have wraps (word : UInt64) : -(word + 1) + 1 = -word := by
      rw [UInt64.neg_add, UInt64.sub_add_cancel]
    exact wraps adjustment.toUInt64
  have bound := adjustment.toUInt64.toNat_lt
  have negated : (-adjustment.toUInt64).toNat
      = (2 ^ 64 - adjustment.toUInt64.toNat) % 2 ^ 64 := UInt64.toNat_neg _
  rw [same, negated]
  rcases toInt_cases adjustment with ⟨low, value⟩ | ⟨high, value⟩ <;> omega

/-- The adjusted counter is the exact sum, or there is none. -/
theorem adjustPc_iff (pc next : UInt64) (adjustment : Int64) :
    adjustPc pc adjustment = some next ↔ (next.toNat : Int) = pc.toNat + adjustment.toInt := by
  have pcBound := pc.toNat_lt
  have nextBound := next.toNat_lt
  rw [adjustPc]
  by_cases sign : 0 ≤ adjustment.toInt
  · have delta : (adjustment.toUInt64.toNat : Int) = adjustment.toInt := by
      have bound := adjustment.toUInt64.toNat_lt
      rcases toInt_cases adjustment with ⟨-, value⟩ | ⟨-, value⟩ <;> omega
    have full : pc > 0xffffffffffffffff - adjustment.toUInt64
        ↔ 2 ^ 64 ≤ pc.toNat + adjustment.toUInt64.toNat := by
      have bound := adjustment.toUInt64.toNat_lt
      have most : adjustment.toUInt64 ≤ 0xffffffffffffffff := by
        rw [UInt64.le_iff_toNat_le]
        show _ ≤ 2 ^ 64 - 1
        omega
      rw [gt_iff_lt, UInt64.lt_iff_toNat_lt, UInt64.toNat_sub_of_le _ _ most]
      show 2 ^ 64 - 1 - _ < _ ↔ _
      omega
    rw [if_pos ((nonneg_iff _).2 sign)]
    simp only [full]
    by_cases wraps : 2 ^ 64 ≤ pc.toNat + adjustment.toUInt64.toNat
    · rw [if_pos wraps]
      constructor
      · intro impossible
        cases impossible
      · intro sum
        omega
    · have sum : (pc + adjustment.toUInt64).toNat = pc.toNat + adjustment.toUInt64.toNat := by
        rw [UInt64.toNat_add, Nat.mod_eq_of_lt (not_le.1 wraps)]
      rw [if_neg wraps, Option.some.injEq, ← UInt64.toNat_inj, sum]
      omega
  · have delta := toNat_delta (not_le.1 sign)
    rw [if_neg (fun nonneg => sign ((nonneg_iff _).1 nonneg))]
    simp only [UInt64.lt_iff_toNat_lt]
    by_cases short : pc.toNat < ((-(adjustment + 1)).toUInt64 + 1).toNat
    · rw [if_pos short]
      constructor
      · intro impossible
        cases impossible
      · intro sum
        omega
    · have difference := UInt64.toNat_sub_of_le pc _ (UInt64.le_iff_toNat_le.2 (not_lt.1 short))
      rw [if_neg short, Option.some.injEq, ← UInt64.toNat_inj, difference]
      omega

theorem relativePc_iff (site : NativeWasmGuestSite) (pc memoryBase next : UInt64) :
    relativePc site pc memoryBase = some next
      ↔ (next.toNat : Int) = pc.toNat - if site.subtractMemoryBase then memoryBase.toNat else 0 := by
  rw [relativePc]
  cases site.subtractMemoryBase with
  | false =>
      rw [if_neg Bool.false_ne_true, if_neg Bool.false_ne_true, Option.some.injEq,
        ← UInt64.toNat_inj]
      omega
  | true =>
      rw [if_pos rfl, if_pos rfl]
      by_cases below : pc < memoryBase
      · rw [if_pos below]
        rw [UInt64.lt_iff_toNat_lt] at below
        constructor
        · intro impossible
          cases impossible
        · intro difference
          omega
      · have difference := UInt64.toNat_sub_of_le pc memoryBase (UInt64.not_lt.1 below)
        rw [UInt64.lt_iff_toNat_lt] at below
        rw [if_neg (by rwa [UInt64.lt_iff_toNat_lt]), Option.some.injEq, ← UInt64.toNat_inj,
          difference]
        omega

/-! ## The opcode -/

theorem toNat_shift32 {shift : Nat} (small : shift < 32) : shift.toUInt32.toNat % 32 = shift := by
  rw [Nat.toUInt32, UInt32.toNat_ofNat_of_lt' (small.trans (by decide)), Nat.mod_eq_of_lt small]

/-- A byte moved to its place keeps its value. -/
theorem toNat_byteAt (byte : UInt8) {shift : Nat} (small : shift + 8 ≤ 32) :
    (byte.toUInt32 <<< shift.toUInt32).toNat = byte.toNat * 2 ^ shift := by
  have room : byte.toNat * 2 ^ shift < 2 ^ 32 :=
    calc byte.toNat * 2 ^ shift
        < 2 ^ 8 * 2 ^ shift := Nat.mul_lt_mul_of_pos_right byte.toNat_lt (Nat.two_pow_pos _)
      _ = 2 ^ (8 + shift) := (Nat.pow_add _ _ _).symm
      _ ≤ 2 ^ 32 := Nat.pow_le_pow_right (by decide) (by omega)
  rw [UInt32.toNat_shiftLeft, UInt8.toNat_toUInt32, toNat_shift32 (by omega), Nat.shiftLeft_eq,
    Nat.mod_eq_of_lt room]

/-- The opcode bytes read so far. -/
def opcodeUpTo (site : NativeWasmGuestSite) (bytes : List UInt8) (pc : UInt64) (count : Nat) :
    UInt32 :=
  (List.range count).foldl (fun opcode i =>
    let shift := if site.opcodeBigEndian then 8 * (site.opcodeWidth.toNat - i - 1) else 8 * i
    opcode ||| ((bytes.getD (pc.toNat + i) 0).toUInt32 <<< shift.toUInt32)) 0

theorem opcodeUpTo_succ (site : NativeWasmGuestSite) (bytes : List UInt8) (pc : UInt64)
    (count : Nat) :
    opcodeUpTo site bytes pc (count + 1) = opcodeUpTo site bytes pc count
      ||| ((bytes.getD (pc.toNat + count) 0).toUInt32 <<< (if site.opcodeBigEndian
        then 8 * (site.opcodeWidth.toNat - count - 1) else 8 * count).toUInt32) := by
  rw [opcodeUpTo, List.range_succ, List.foldl_append, ← opcodeUpTo]
  rfl

section Opcode

variable {site : NativeWasmGuestSite} {bytes : List UInt8} {pc : UInt64}

theorem opcodeUpTo_little (little : site.opcodeBigEndian = false) {count : Nat} (few : count ≤ 4)
    (inside : pc.toNat + count ≤ bytes.length) :
    (opcodeUpTo site bytes pc count).toNat = ofBytes (window bytes pc.toNat count) := by
  induction count with
  | zero =>
      rw [window, List.take_zero]
      rfl
  | succ count ih =>
      have before := ih (by omega) (by omega)
      have size : (window bytes pc.toNat count).length = count := length_window _ _ _ (by omega)
      have bound : ofBytes (window bytes pc.toNat count) < 2 ^ (8 * count) := by
        have bound := ofBytes_lt (window bytes pc.toNat count)
        rwa [size, show 256 = 2 ^ 8 from rfl, ← Nat.pow_mul] at bound
      rw [opcodeUpTo_succ, little, if_neg Bool.false_ne_true, UInt32.toNat_or, before,
        toNat_byteAt _ (by omega), window_succ _ _ _ (by omega), ofBytes_concat, size,
        Nat.or_comm, Nat.mul_comm _ (2 ^ (8 * count)), ← Nat.two_pow_add_eq_or_of_lt bound,
        show 256 = 2 ^ 8 from rfl, ← Nat.pow_mul]
      omega

/-- The big-endian value of bytes. -/
def bigEndian (bytes : List UInt8) : Nat := Theory.Positional.value 256 (bytes.map UInt8.toNat)

theorem bigEndian_snoc (bytes : List UInt8) (byte : UInt8) :
    bigEndian (bytes ++ [byte]) = bigEndian bytes * 256 + byte.toNat := by
  rw [bigEndian, List.map_append, List.map_singleton, Theory.Positional.value_snoc, ← bigEndian]

theorem opcodeUpTo_big (big : site.opcodeBigEndian = true) (narrow : site.opcodeWidth.toNat ≤ 4)
    {count : Nat} (few : count ≤ site.opcodeWidth.toNat)
    (inside : pc.toNat + count ≤ bytes.length) :
    (opcodeUpTo site bytes pc count).toNat
      = bigEndian (window bytes pc.toNat count) * 2 ^ (8 * (site.opcodeWidth.toNat - count)) := by
  induction count with
  | zero =>
      rw [window, List.take_zero]
      exact (Nat.zero_mul _).symm
  | succ count ih =>
      have before := ih (by omega) (by omega)
      obtain ⟨below, place⟩ : ∃ below, site.opcodeWidth.toNat - count = below + 1 :=
        ⟨_, (Nat.succ_pred_eq_of_pos (by omega)).symm⟩
      have lower : (bytes.getD (pc.toNat + count) 0).toNat * 2 ^ (8 * below)
          < 2 ^ (8 * below + 8) := by
        rw [Nat.pow_add, Nat.mul_comm]
        exact Nat.mul_lt_mul_of_pos_left (UInt8.toNat_lt _) (Nat.two_pow_pos _)
      have rest : site.opcodeWidth.toNat - (count + 1) = below := by omega
      rw [opcodeUpTo_succ, big, if_pos rfl, UInt32.toNat_or, before, place, Nat.add_sub_cancel,
        toNat_byteAt _ (by omega), window_succ _ _ _ (by omega), bigEndian_snoc, rest,
        show 8 * (below + 1) = 8 * below + 8 by omega, Nat.mul_comm _ (2 ^ (8 * below + 8)),
        ← Nat.two_pow_add_eq_or_of_lt lower, Nat.pow_add]
      ring

end Opcode

theorem readOpcode_exact {site : NativeWasmGuestSite} {bytes : List UInt8} {pc : UInt64}
    (narrow : site.opcodeWidth.toNat ≤ 4) (inside : pc.toNat + site.opcodeWidth.toNat ≤ bytes.length) :
    (readOpcode site bytes pc).toNat = if site.opcodeBigEndian
      then bigEndian (window bytes pc.toNat site.opcodeWidth.toNat)
      else ofBytes (window bytes pc.toNat site.opcodeWidth.toNat) := by
  cases order : site.opcodeBigEndian with
  | false => exact opcodeUpTo_little order narrow inside
  | true =>
      have whole := opcodeUpTo_big order narrow (le_refl _) inside
      rwa [Nat.sub_self, Nat.mul_zero, Nat.pow_zero, Nat.mul_one] at whole

/-! ## Values of the engine -/

/-- `copy` copies exactly the asked range of the memories, or refuses it. -/
def CopiesExactly (copy : CopyMemory) (memory : UInt32 → Nat → UInt8) : Prop :=
  ∀ index address length bytes, copy index address length = some bytes →
    bytes = (List.range length.toNat).map fun i => memory index (address.toNat + i)

/-- A pointer chain: each step reads four bytes at the exact sum of a pointer and an offset. -/
inductive Follows (copy : CopyMemory) (memoryIndex : UInt32) : List UInt32 → Nat → Nat → Prop
  | done (value : Nat) : Follows copy memoryIndex [] value value
  | step {offset : UInt32} {rest : List UInt32} {value final : Nat} {address : UInt64}
      {bytes : List UInt8} (sum : address.toNat = value + offset.toNat)
      (fits : address.toNat < 2 ^ 32) (copied : copy memoryIndex address 4 = some bytes)
      (four : bytes.length = 4) (others : Follows copy memoryIndex rest (ofBytes bytes) final) :
      Follows copy memoryIndex (offset :: rest) value final

/-- What a source's value is. -/
inductive Denotes (view : NativeWasmGuestStateView) (copy : CopyMemory)
    (source : NativeGuestValueSource) (value : UInt64) : Prop
  | constant (fixed : source.isLocal = false) (same : value = source.constant)
  | loaded (loads : source.isLocal = true) (read : UInt32 → Option (UInt64 × UInt8))
      (start : UInt64) (provided : view.readNumericLocal = some read)
      (local_value : read source.localIndex = some (start, source.valueType))
      (numeric : source.valueType = 64 ∨ source.valueType = 32 ∧ start.toNat < 2 ^ 32)
      (short : source.chainCount.toNat ≤ 3)
      (chain : Follows copy source.memoryIndex
        (source.offsets.toList.take source.chainCount.toNat) start.toNat value.toNat)

theorem toNat_pointer {bytes : List UInt8} (four : bytes.length = 4) :
    ((bytes.getD 0 0).toUInt64 ||| ((bytes.getD 1 0).toUInt64 <<< 8)
      ||| ((bytes.getD 2 0).toUInt64 <<< 16) ||| ((bytes.getD 3 0).toUInt64 <<< 24)).toNat
        = ofBytes bytes := by
  have whole : window bytes 0 4 = bytes := by
    rw [window, List.drop_zero, ← four, List.take_length]
  have value := toNat_get bytes 0 (by decide : 4 ≤ 8) (by omega)
  rw [whole] at value
  rw [← value]
  simp [get, List.range_succ]

theorem readChain_follows {view : NativeWasmGuestStateView} {copy : CopyMemory}
    (provided : view.copyMemory = some copy) {memory : UInt32 → Nat → UInt8}
    (faithful : CopiesExactly copy memory) {type : UInt8} {memoryIndex : UInt32}
    {offsets : List UInt32} {start final : UInt64}
    (read : readChain view type memoryIndex offsets start = some final) :
    Follows copy memoryIndex offsets start.toNat final.toNat := by
  induction offsets generalizing start with
  | nil =>
      rw [← Option.some.inj read]
      exact .done _
  | cons offset rest ih =>
      rw [readChain, provided] at read
      simp only at read
      split at read
      · cases read
      · next allowed =>
          rw [Bool.or_eq_true, not_or, decide_eq_true_eq, gt_iff_lt, UInt64.not_lt,
            UInt64.le_iff_toNat_le, UInt32.toNat_toUInt64] at allowed
          have bound := offset.toNat_lt
          have room : start.toNat + offset.toNat < 2 ^ 32 := by
            have limit := allowed.2
            rw [UInt32.toNat_sub_of_le _ _ (by
              rw [UInt32.le_iff_toNat_le]
              show _ ≤ 2 ^ 32 - 1
              omega)] at limit
            change _ ≤ 2 ^ 32 - 1 - _ at limit
            omega
          have sum : (start + offset.toUInt64).toNat = start.toNat + offset.toNat := by
            rw [UInt64.toNat_add, UInt32.toNat_toUInt64, Nat.mod_eq_of_lt (by omega)]
          split at read
          · cases read
          · next bytes copied =>
              have four : bytes.length = 4 := by
                rw [faithful _ _ _ _ copied, List.length_map, List.length_range]
                rfl
              have others := ih read
              rw [toNat_pointer four] at others
              exact .step sum (sum ▸ room) copied four others

theorem readValue_denotes {view : NativeWasmGuestStateView} {copy : CopyMemory}
    (provided : view.copyMemory = some copy) {memory : UInt32 → Nat → UInt8}
    (faithful : CopiesExactly copy memory) {source : NativeGuestValueSource} {value : UInt64}
    (read : nativeGuestReadValue view source = some value) : Denotes view copy source value := by
  rw [nativeGuestReadValue] at read
  split at read
  · next fixed => exact .constant (by simpa using fixed) (Option.some.inj read).symm
  · next loads =>
      split at read
      · cases read
      · next start type found =>
          split at read
          · cases read
          · next allowed =>
              obtain ⟨reader, given, local_value⟩ := Option.bind_eq_some_iff.1 found
              simp only [bne_iff_ne, ne_eq, Bool.or_eq_true, Bool.and_eq_true, decide_eq_true_eq,
                not_or, not_and_or, not_not] at allowed
              obtain ⟨⟨rfl, numeric⟩, short⟩ := allowed
              have few : source.chainCount.toNat ≤ 3 := UInt8.le_iff_toNat_le.1 (UInt8.not_lt.1 short)
              refine .loaded (by simpa using loads) reader start given local_value ?_ few
                (readChain_follows provided faithful read)
              rcases numeric with wide | ⟨narrow, small⟩
              · exact .inl wide
              · exact .inr ⟨narrow, Nat.lt_succ_of_le
                  (UInt64.le_iff_toNat_le.1 (UInt64.not_lt.1 small))⟩

/-! ## The snapshot -/

/-- What a resolved snapshot is, in exact integers. -/
structure ExactSnapshot (site : NativeWasmGuestSite) (view : NativeWasmGuestStateView)
    (copy : CopyMemory) (memory : UInt32 → Nat → UInt8) (snapshot : NativeGuestSnapshot) : Prop where
  width : site.opcodeWidth.toNat ≤ 4
  rawPc : Denotes view copy (pcSource site) snapshot.rawPc
  memoryBase : Denotes view copy site.memoryBase snapshot.memoryBase
  memoryLength : Denotes view copy site.memoryLength snapshot.memoryLength.toUInt64
  pc : (snapshot.pc.toNat : Int) = snapshot.rawPc.toNat + site.pcAdjustment.toInt
    - if site.subtractMemoryBase then snapshot.memoryBase.toNat else 0
  inside : snapshot.pc.toNat + site.opcodeWidth.toNat ≤ snapshot.memoryLength.toNat
  limit : snapshot.memoryLength.toNat ≤ kNativeGuestSnapshotLimit.toNat
  fits : snapshot.memoryBase.toNat + snapshot.memoryLength.toNat < 2 ^ 64
  bytecode : snapshot.bytecode = (List.range snapshot.memoryLength.toNat).map
    fun i => memory site.memoryIndex (snapshot.memoryBase.toNat + i)
  opcode : snapshot.opcode.toNat = if site.opcodeBigEndian
    then bigEndian (window snapshot.bytecode snapshot.pc.toNat site.opcodeWidth.toNat)
    else ofBytes (window snapshot.bytecode snapshot.pc.toNat site.opcodeWidth.toNat)

theorem width_le {site : NativeWasmGuestSite} {view : NativeWasmGuestStateView}
    (admitted : ¬ (view.instanceId == 0 || view.invocationId == 0
      || view.functionIndex != site.functionIndex
      || view.moduleByteOffset != site.dispatchModuleOffset || view.copyMemory.isNone
      || (site.opcodeWidth != 1 && site.opcodeWidth != 2 && site.opcodeWidth != 4)) = true) :
    site.opcodeWidth.toNat ≤ 4 := by
  simp only [Bool.or_eq_true, Bool.and_eq_true, bne_iff_ne, ne_eq, not_or, not_and_or,
    not_not] at admitted
  rcases admitted.2 with (one | two) | four
  · rw [one]
    decide
  · rw [two]
    decide
  · rw [four]
    decide

theorem bounds_exact {length memoryBase : UInt64}
    (bounded : ¬ (length == 0 || decide (length > kNativeGuestSnapshotLimit)
      || decide (memoryBase > 0xffffffffffffffff - length)) = true) :
    length.toNat ≤ 65536 ∧ memoryBase.toNat + length.toNat < 2 ^ 64 := by
  simp only [Bool.or_eq_true, decide_eq_true_eq, not_or, gt_iff_lt, UInt64.not_lt] at bounded
  have short : length.toNat ≤ 65536 := UInt64.le_iff_toNat_le.1 bounded.1.2
  have most : length ≤ 0xffffffffffffffff := by
    rw [UInt64.le_iff_toNat_le]
    show _ ≤ 2 ^ 64 - 1
    omega
  have room := UInt64.le_iff_toNat_le.1 bounded.2
  rw [UInt64.toNat_sub_of_le _ _ most] at room
  change _ ≤ 2 ^ 64 - 1 - _ at room
  omega

theorem reach_exact {length pc : UInt64} {width : UInt8}
    (reached : ¬ (decide (length < width.toUInt64)
      || decide (pc > length - width.toUInt64)) = true) :
    pc.toNat + width.toNat ≤ length.toNat := by
  simp only [Bool.or_eq_true, decide_eq_true_eq, not_or, gt_iff_lt, UInt64.not_lt] at reached
  have wide := UInt64.le_iff_toNat_le.1 reached.1
  have before := UInt64.le_iff_toNat_le.1 reached.2
  rw [UInt64.toNat_sub_of_le _ _ reached.1] at before
  rw [UInt8.toNat_toUInt64] at wide before
  omega

theorem resolve_exact {site : NativeWasmGuestSite} {view : NativeWasmGuestStateView}
    {copy : CopyMemory} (provided : view.copyMemory = some copy)
    {memory : UInt32 → Nat → UInt8} (faithful : CopiesExactly copy memory)
    {out snapshot : NativeGuestSnapshot}
    (resolved : resolveNativeGuestSnapshot site view out = some snapshot) :
    ExactSnapshot site view copy memory snapshot := by
  rw [resolveNativeGuestSnapshot] at resolved
  split at resolved
  · cases resolved
  · next admitted =>
      obtain ⟨rawPc, rawRead, resolved⟩ := Option.bind_eq_some_iff.1 resolved
      obtain ⟨memoryBase, baseRead, resolved⟩ := Option.bind_eq_some_iff.1 resolved
      obtain ⟨length, lengthRead, resolved⟩ := Option.bind_eq_some_iff.1 resolved
      split at resolved
      · cases resolved
      · next bounded =>
          obtain ⟨adjusted, adjusts, resolved⟩ := Option.bind_eq_some_iff.1 resolved
          obtain ⟨pc, relative, resolved⟩ := Option.bind_eq_some_iff.1 resolved
          split at resolved
          · cases resolved
          · next reached =>
              obtain ⟨copier, given, resolved⟩ := Option.bind_eq_some_iff.1 resolved
              obtain ⟨copied, copies, resolved⟩ := Option.bind_eq_some_iff.1 resolved
              rw [given] at provided
              obtain rfl := Option.some.inj provided
              have shorter := bounds_exact bounded
              have reach := reach_exact reached
              have narrow : site.opcodeWidth.toNat ≤ 4 := width_le admitted
              have lengthWord : length.toUInt32.toNat = length.toNat := by
                rw [UInt64.toNat_toUInt32, Nat.mod_eq_of_lt (by omega)]
              have size : copied.length = length.toNat := by
                rw [faithful _ _ _ _ copies, List.length_map, List.length_range, lengthWord]
              have taken : (copied ++ out.bytes.drop copied.length).take length.toUInt32.toNat
                  = copied := by
                rw [lengthWord, ← size, List.take_left]
              obtain rfl := Option.some.inj resolved
              have bytecode : NativeGuestSnapshot.bytecode
                  { rawPc, pc, memoryBase, memoryLength := length.toUInt32,
                    bytes := copied ++ out.bytes.drop copied.length,
                    opcode := readOpcode site (copied ++ out.bytes.drop copied.length) pc } = copied :=
                taken
              have sameWindow : window (copied ++ out.bytes.drop copied.length) pc.toNat
                  site.opcodeWidth.toNat = window copied pc.toNat site.opcodeWidth.toNat := by
                rw [window, window, List.drop_append_of_le_length (by omega),
                  List.take_append_of_le_length (by rw [List.length_drop]; omega)]
              constructor
              · exact narrow
              · exact readValue_denotes given faithful rawRead
              · exact readValue_denotes given faithful baseRead
              · have word : length.toUInt32.toUInt64 = length := by
                  rw [← UInt64.toNat_inj, UInt32.toNat_toUInt64, lengthWord]
                show Denotes view copier site.memoryLength length.toUInt32.toUInt64
                rw [word]
                exact readValue_denotes given faithful lengthRead
              · have sum := (adjustPc_iff _ _ _).1 adjusts
                have difference := (relativePc_iff _ _ _ _).1 relative
                rw [sum] at difference
                exact difference
              · show pc.toNat + _ ≤ length.toUInt32.toNat
                rw [lengthWord]
                exact reach
              · show length.toUInt32.toNat ≤ 65536
                rw [lengthWord]
                exact shorter.1
              · show memoryBase.toNat + length.toUInt32.toNat < 2 ^ 64
                rw [lengthWord]
                exact shorter.2
              · rw [bytecode]
                exact faithful _ _ _ _ copies
              · rw [bytecode, ← sameWindow]
                exact readOpcode_exact narrow (by rw [List.length_append]; omega)

/-! ## Admission by the host -/

theorem get_put_word (out : List UInt8) (offset : Nat) (value : UInt32)
    (fits : offset + 4 ≤ out.length) :
    get (put out offset value.toUInt64 4) offset 4 = value.toUInt64 := by
  have bound := value.toNat_lt
  rw [← UInt64.toNat_inj, toNat_get_put _ _ _ (by decide) fits, UInt32.toNat_toUInt64]
  omega

theorem get_put_long (out : List UInt8) (offset : Nat) (value : UInt64)
    (fits : offset + 8 ≤ out.length) : get (put out offset value 8) offset 8 = value := by
  have bound := value.toNat_lt
  rw [← UInt64.toNat_inj, toNat_get_put _ _ _ (by decide) fits]
  omega

/-- The fields that the host compares, as it reads them. -/
theorem encoded_fields (value : WasmGuestDispatchPayload) (digest : value.recipeSha256.length = 32) :
    get (encodeNativeWasmGuestDispatchPayload value) 40 8 = value.guestPc
      ∧ get (encodeNativeWasmGuestDispatchPayload value) 76 4 = value.pcLocalIndex.toUInt64
      ∧ get (encodeNativeWasmGuestDispatchPayload value) 80 8 = value.pcAdjustment.toUInt64
      ∧ get (encodeNativeWasmGuestDispatchPayload value) 88 4 = value.memoryIndex.toUInt64
      ∧ get (encodeNativeWasmGuestDispatchPayload value) 92 4 = value.opcode.toUInt64 := by
  simp [encodeNativeWasmGuestDispatchPayload, get_put_apart, get_copyTo_apart, get_put_word,
    get_put_long, digest]

theorem admits_exact {site : NativeWasmGuestSite} {view : NativeWasmGuestStateView}
    {copy : CopyMemory} {memory : UInt32 → Nat → UInt8} {snapshot : NativeGuestSnapshot}
    (whole : ExactSnapshot site view copy memory snapshot)
    (selector tableCount sampleIndex : UInt32) (recipeSha256 : Vector UInt8 32) :
    admitsGuestSnapshot site (encodeNativeWasmGuestDispatchPayload (guestDispatchPayload site view
      snapshot selector tableCount sampleIndex recipeSha256)) snapshot.bytecode = true := by
  obtain ⟨(pc : get _ 40 8 = snapshot.pc), (localIndex : get _ 76 4 = site.pcLocalIndex.toUInt64),
      (adjustment : get _ 80 8 = site.pcAdjustment.toUInt64),
      (memoryIndex : get _ 88 4 = site.memoryIndex.toUInt64),
      (opcode : get _ 92 4 = snapshot.opcode.toUInt64)⟩ := encoded_fields
    (guestDispatchPayload site view snapshot selector tableCount sampleIndex recipeSha256)
    (Vector.length_toList)
  have size : snapshot.bytecode.length = snapshot.memoryLength.toNat := by
    rw [whole.bytecode, List.length_map, List.length_range]
  have inside := whole.inside
  have same : readOpcode site snapshot.bytecode snapshot.pc = snapshot.opcode := by
    rw [← UInt32.toNat_inj, whole.opcode, readOpcode_exact whole.width (by omega)]
  rw [admitsGuestSnapshot]
  simp only [pc, localIndex, adjustment, memoryIndex, opcode, size, same, bne_self_eq_false,
    Bool.false_or, beq_self_eq_true]
  refine if_neg ?_
  rw [Bool.or_eq_true, decide_eq_true_eq, decide_eq_true_eq]
  omega

/-- A resolved snapshot is exact and in range, and the host admits what is written of it. -/
theorem resolvedSnapshot_exact (site : NativeWasmGuestSite) (view : NativeWasmGuestStateView)
    (copy : CopyMemory) (provided : view.copyMemory = some copy) (memory : UInt32 → Nat → UInt8)
    (faithful : CopiesExactly copy memory) (out snapshot : NativeGuestSnapshot)
    (resolved : resolveNativeGuestSnapshot site view out = some snapshot) :
    ExactSnapshot site view copy memory snapshot
    ∧ ∀ selector tableCount sampleIndex recipeSha256,
      admitsGuestSnapshot site (encodeNativeWasmGuestDispatchPayload (guestDispatchPayload site view
        snapshot selector tableCount sampleIndex recipeSha256)) snapshot.bytecode = true := by
  have whole := resolve_exact provided faithful resolved
  exact ⟨whole, admits_exact whole⟩

/-- A memory that holds each address's own low byte. -/
def countingMemory : UInt32 → Nat → UInt8 := fun _ address => .ofNat address

def copyCounting : CopyMemory := fun index address length =>
  some ((List.range length.toNat).map fun i => countingMemory index (address.toNat + i))

/-- A dispatch whose counter is the least adjustment and a place in the program. -/
def countingView : NativeWasmGuestStateView :=
  { instanceId := 1
    invocationId := 1
    functionIndex := 3
    moduleByteOffset := 8
    readNumericLocal := some fun _ => some (0x8000000000000014, 64)
    copyMemory := some copyCounting }

theorem resolvedSnapshot_exact_counting :
    ExactSnapshot
      { functionIndex := 3, dispatchModuleOffset := 8, pcValueType := 64, opcodeWidth := 2,
        subtractMemoryBase := true, pcAdjustment := Int64.minValue,
        memoryBase := { constant := 16 }, memoryLength := { constant := 8 } }
      countingView copyCounting countingMemory
      { rawPc := 0x8000000000000014, pc := 4, memoryBase := 16, memoryLength := 8,
        opcode := 0x1514, bytes := [16, 17, 18, 19, 20, 21, 22, 23] } :=
  (resolvedSnapshot_exact _ countingView _ rfl countingMemory
    (fun _ _ _ _ copied => (Option.some.inj copied).symm) { bytes := [] } _
    (by decide +kernel)).1

end Reb.Capture
