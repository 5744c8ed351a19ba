/-
# Probe.WasmBudgetWire -- the sample-budget policy on the wire

`EncodeNativeWasmSampleBudgetPolicy` writes the fields of a policy one behind the other
(`encode_eq`), and `DecodeNativeWasmSampleBudgetPolicy` reads every byte of its input but the
one it wants zero (`layout_fields`).  A policy has one layout (`layout_inj`), so the two are
inverse on what the check accepts.
-/
import Reb.Capture.PayloadBytes
import Reb.Probe.WasmBudgetPolicy

namespace Reb.Probe

open Reb.Capture (bytesOf bytesOf_get bytesOf_eq_toBytes getU32 toUInt64_getU32)
open Reb.Theory.LittleEndian

set_option autoImplicit false

abbrev kNativeWasmSampleBudgetEncodedBytes : Nat :=
  12 + kNativeWasmModuleAllowlistLimit * 32 + kNativeWasmFunctionFilterLimit * 4 * 2

/-! ## The encoder -/

/-- The bytes that `put32` writes. -/
def bytes32 (value : UInt32) : List UInt8 :=
  (List.range 4).map fun index => ((value >>> .ofNat (8 * index)) &&& 255).toUInt8

def put32 (out : List UInt8) (offset : Nat) (value : UInt32) : List UInt8 :=
  write out offset (bytes32 value)

/-- The buffer of the encoder and the offset its loops share. -/
structure Cursor where
  out : List UInt8
  offset : Nat

/-- Write and advance. -/
def Cursor.copy (cursor : Cursor) (bytes : List UInt8) : Cursor where
  out := write cursor.out cursor.offset bytes
  offset := cursor.offset + bytes.length

def encodeNativeWasmSampleBudgetPolicy (policy : NativeWasmSampleBudgetPolicy) : List UInt8 :=
  let out := List.replicate kNativeWasmSampleBudgetEncodedBytes 0
  let out := put32 out 0 policy.samplesPerFunction
  let out := put32 out 4 policy.samplesPerIndirectSite
  let out := out.set 8 policy.moduleAllowCount
  let out := out.set 9 policy.functionAllowCount
  let out := out.set 10 policy.functionDenyCount
  let cursor : Cursor := ⟨out, 12⟩
  let cursor := (List.finRange kNativeWasmModuleAllowlistLimit).foldl
    (fun cursor index => cursor.copy (List.ofFn (policy.moduleAllow index))) cursor
  let cursor := (List.finRange kNativeWasmFunctionFilterLimit).foldl
    (fun cursor index => cursor.copy (bytes32 (policy.functionAllow index))) cursor
  let cursor := (List.finRange kNativeWasmFunctionFilterLimit).foldl
    (fun cursor index => cursor.copy (bytes32 (policy.functionDeny index))) cursor
  cursor.out

/-! ## The decoder -/

def get32 (bytes : List UInt8) (offset : Nat) : UInt32 :=
  (List.range 4).foldl (fun value index =>
    value ||| ((bytes.getD (offset + index) 0).toUInt32 <<< .ofNat (8 * index))) 0

/-- The fields as they lie: the digests from the twelfth byte on, then the two lists. -/
def fields (bytes : List UInt8) : NativeWasmSampleBudgetPolicy where
  samplesPerFunction := get32 bytes 0
  samplesPerIndirectSite := get32 bytes 4
  moduleAllowCount := bytes.getD 8 0
  functionAllowCount := bytes.getD 9 0
  functionDenyCount := bytes.getD 10 0
  moduleAllow := fun index byte => bytes.getD (12 + 32 * index.val + byte.val) 0
  functionAllow := fun index =>
    get32 bytes (12 + 32 * kNativeWasmModuleAllowlistLimit + 4 * index.val)
  functionDeny := fun index =>
    get32 bytes (12 + 32 * kNativeWasmModuleAllowlistLimit + 4 * kNativeWasmFunctionFilterLimit
      + 4 * index.val)

/-- What the decoder returns, with the policy it leaves behind. -/
def decodeNativeWasmSampleBudgetPolicy (bytes : List UInt8) : Bool × NativeWasmSampleBudgetPolicy :=
  if bytes.isEmpty then (true, {})
  else if bytes.length != kNativeWasmSampleBudgetEncodedBytes || bytes.getD 11 0 != 0 then (false, {})
  else
    let policy := fields bytes
    if !isValidNativeWasmSampleBudgetPolicy policy then (false, {}) else (true, policy)

/-! ## Words -/

theorem bytes32_eq (value : UInt32) : bytes32 value = toBytes value.toNat 4 := by
  refine List.map_congr_left fun index inside => ?_
  have small : 8 * index < 32 := by
    have := List.mem_range.1 inside
    omega
  have count : (UInt32.ofNat (8 * index)).toNat = 8 * index :=
    UInt32.toNat_ofNat_of_lt' (by show 8 * index < 4294967296; omega)
  apply UInt8.toNat_inj.1
  rw [UInt32.toNat_toUInt8, UInt32.toNat_and, UInt32.toNat_shiftRight, count,
    Nat.mod_eq_of_lt small, Nat.shiftRight_eq_div_pow, UInt8.toNat_ofNat', Nat.pow_mul,
    show (255 : UInt32).toNat = 2 ^ 8 - 1 from rfl, Nat.and_two_pow_sub_one_eq_mod,
    show (2 : Nat) ^ 8 = 256 from rfl, Nat.mod_mod]

@[simp] theorem length_bytes32 (value : UInt32) : (bytes32 value).length = 4 := by
  rw [bytes32, List.length_map, List.length_range]

theorem bytes32_inj {value other : UInt32} (same : bytes32 value = bytes32 other) :
    value = other := by
  rw [bytes32_eq, bytes32_eq] at same
  have spelled := congrArg ofBytes same
  have one := value.toNat_lt
  have two := other.toNat_lt
  rw [ofBytes_toBytes, ofBytes_toBytes] at spelled
  apply UInt32.toNat_inj.1
  omega

theorem get32_eq (bytes : List UInt8) (offset : Nat) : get32 bytes offset = getU32 bytes offset := by
  simp [get32, getU32, Reb.Capture.get, List.range_succ]

/-- What was read is written back. -/
theorem bytes32_get32 {bytes : List UInt8} {offset : Nat} (fits : offset + 4 ≤ bytes.length) :
    bytes32 (get32 bytes offset) = window bytes offset 4 := by
  have wide := toUInt64_getU32 bytes offset fits
  rw [get32_eq, bytes32_eq, ← bytesOf_get bytes offset (by decide) fits, ← wide,
    bytesOf_eq_toBytes _ (by decide), UInt32.toNat_toUInt64]

/-! ## The layout -/

/-- The fields of a policy one behind the other. -/
def layout (policy : NativeWasmSampleBudgetPolicy) : List UInt8 :=
  bytes32 policy.samplesPerFunction ++ (bytes32 policy.samplesPerIndirectSite
    ++ ([policy.moduleAllowCount, policy.functionAllowCount, policy.functionDenyCount, 0]
    ++ ((List.ofFn fun index => List.ofFn (policy.moduleAllow index)).flatten
    ++ ((List.ofFn fun index => bytes32 (policy.functionAllow index)).flatten
    ++ (List.ofFn fun index => bytes32 (policy.functionDeny index)).flatten))))

theorem length_flatten_ofFn {n width : Nat} {row : Fin n → List UInt8}
    (rows : ∀ i, (row i).length = width) : (List.ofFn row).flatten.length = n * width := by
  rw [List.length_flatten, List.map_ofFn, List.sum_ofFn]
  simp [rows]

theorem length_layout (policy : NativeWasmSampleBudgetPolicy) :
    (layout policy).length = kNativeWasmSampleBudgetEncodedBytes := by
  simp only [layout, List.length_append, length_bytes32, List.length_cons, List.length_nil]
  rw [length_flatten_ofFn fun i => List.length_ofFn, length_flatten_ofFn fun i => length_bytes32 _,
    length_flatten_ofFn fun i => length_bytes32 _]
  rfl

theorem flatten_ofFn_inj {n width : Nat} {row other : Fin n → List UInt8}
    (rows : ∀ i, (row i).length = width) (others : ∀ i, (other i).length = width)
    (same : (List.ofFn row).flatten = (List.ofFn other).flatten) : row = other := by
  apply List.ofFn_injective
  rw [List.eq_iff_flatten_eq]
  refine ⟨same, ?_⟩
  rw [List.map_ofFn, List.map_ofFn]
  exact congrArg List.ofFn (funext fun i => (rows i).trans (others i).symm)

/-- A policy has one layout. -/
theorem layout_inj {policy other : NativeWasmSampleBudgetPolicy} (same : layout policy = layout other) :
    policy = other := by
  have words {n : Nat} (f g : Fin n → UInt32)
      (same : (List.ofFn fun i => bytes32 (f i)).flatten = (List.ofFn fun i => bytes32 (g i)).flatten) :
      f = g := by
    have rows := flatten_ofFn_inj (fun i => length_bytes32 _) (fun i => length_bytes32 _) same
    exact funext fun i => bytes32_inj (congrFun rows i)
  obtain ⟨perFunction, same⟩ := List.append_inj same (by simp)
  obtain ⟨perSite, same⟩ := List.append_inj same (by simp)
  obtain ⟨counts, same⟩ := List.append_inj same (by simp)
  obtain ⟨modules, same⟩ := List.append_inj same (by
    rw [length_flatten_ofFn fun i => List.length_ofFn, length_flatten_ofFn fun i => List.length_ofFn])
  obtain ⟨allow, deny⟩ := List.append_inj same (by
    rw [length_flatten_ofFn fun i => length_bytes32 _, length_flatten_ofFn fun i => length_bytes32 _])
  have digests := flatten_ofFn_inj (fun i => List.length_ofFn) (fun i => List.length_ofFn) modules
  simp only [List.cons.injEq, and_true] at counts
  cases policy
  cases other
  simp only [NativeWasmSampleBudgetPolicy.mk.injEq]
  exact ⟨bytes32_inj perFunction, bytes32_inj perSite, counts.1, counts.2.1, counts.2.2,
    funext fun i => List.ofFn_injective (congrFun digests i), words _ _ allow, words _ _ deny⟩

/-! ### What the encoder writes -/

/-- A part written where the zeros begin. -/
theorem write_zeros {front part : List UInt8} {offset room : Nat} (here : front.length = offset)
    (fits : part.length ≤ room) :
    write (front ++ List.replicate room 0) offset part
      = front ++ part ++ List.replicate (room - part.length) 0 := by
  induction part generalizing front offset room with
  | nil => simp [write]
  | cons byte part ih =>
      obtain ⟨room, rfl⟩ : ∃ less, room = less + 1 := ⟨room - 1, by simp at fits; omega⟩
      have stored : (front ++ List.replicate (room + 1) 0).set offset byte
          = front ++ [byte] ++ List.replicate room 0 := by
        rw [List.set_append_right _ _ here.le, here, Nat.sub_self, List.replicate_succ,
          List.set_cons_zero, List.append_assoc, List.singleton_append]
      rw [write, stored, ih (by rw [List.length_append, here]; rfl) (by simp at fits; omega),
        List.append_assoc front, List.singleton_append, List.length_cons, Nat.add_sub_add_right]

theorem foldl_copy {n : Nat} (row : Fin n → List UInt8) {front : List UInt8} {offset room : Nat}
    (here : front.length = offset) (fits : (List.ofFn row).flatten.length ≤ room) :
    (List.finRange n).foldl (fun cursor index => cursor.copy (row index))
        (⟨front ++ List.replicate room 0, offset⟩ : Cursor)
      = ⟨front ++ (List.ofFn row).flatten
          ++ List.replicate (room - (List.ofFn row).flatten.length) 0,
        offset + (List.ofFn row).flatten.length⟩ := by
  have run (parts : List (List UInt8)) (front : List UInt8) (room : Nat)
      (fits : parts.flatten.length ≤ room) :
      parts.foldl Cursor.copy ⟨front ++ List.replicate room 0, front.length⟩
        = ⟨front ++ parts.flatten ++ List.replicate (room - parts.flatten.length) 0,
          front.length + parts.flatten.length⟩ := by
    induction parts generalizing front room with
    | nil => simp
    | cons part parts ih =>
        rw [List.flatten_cons, List.length_append] at fits
        rw [List.foldl_cons, Cursor.copy, write_zeros rfl (by omega), ← List.length_append,
          ih (front ++ part) _ (by omega)]
        simp only [List.flatten_cons, List.length_append, List.append_assoc, Nat.add_assoc,
          Nat.sub_sub]
  rw [← here, ← run _ _ _ fits, List.ofFn_eq_map, List.foldl_map]

theorem put32_zeros {front : List UInt8} {offset room : Nat} (here : front.length = offset)
    (fits : 4 ≤ room) (value : UInt32) :
    put32 (front ++ List.replicate room 0) offset value
      = front ++ bytes32 value ++ List.replicate (room - 4) 0 := by
  rw [put32, write_zeros here (by rwa [length_bytes32]), length_bytes32]

theorem set_zeros {front : List UInt8} {offset room : Nat} (here : front.length = offset)
    (fits : 1 ≤ room) (byte : UInt8) :
    (front ++ List.replicate room 0).set offset byte
      = front ++ [byte] ++ List.replicate (room - 1) 0 :=
  @write_zeros front [byte] offset room here fits

/-- The encoder writes the layout. -/
theorem encode_eq (policy : NativeWasmSampleBudgetPolicy) :
    encodeNativeWasmSampleBudgetPolicy policy = layout policy := by
  have modules := length_flatten_ofFn fun i => List.length_ofFn (f := policy.moduleAllow i)
  have allow := length_flatten_ofFn fun i => length_bytes32 (policy.functionAllow i)
  have deny := length_flatten_ofFn fun i => length_bytes32 (policy.functionDeny i)
  have blank : List.replicate kNativeWasmSampleBudgetEncodedBytes (0 : UInt8)
      = [] ++ List.replicate 524 0 := rfl
  have unused (front : List UInt8) :
      front ++ List.replicate 513 0 = front ++ [0] ++ List.replicate 512 0 := by
    rw [List.append_assoc]
    rfl
  have long : (bytes32 policy.samplesPerFunction ++ bytes32 policy.samplesPerIndirectSite
      ++ [policy.moduleAllowCount] ++ [policy.functionAllowCount] ++ [policy.functionDenyCount]
      ++ [0]).length = 12 := by simp
  have header : (((put32 (put32 (List.replicate kNativeWasmSampleBudgetEncodedBytes 0) 0
      policy.samplesPerFunction) 4 policy.samplesPerIndirectSite).set 8 policy.moduleAllowCount).set 9
        policy.functionAllowCount).set 10 policy.functionDenyCount
          = bytes32 policy.samplesPerFunction ++ bytes32 policy.samplesPerIndirectSite
            ++ [policy.moduleAllowCount] ++ [policy.functionAllowCount] ++ [policy.functionDenyCount]
            ++ [0] ++ List.replicate 512 0 := by
    rw [blank, @put32_zeros _ 0, @put32_zeros _ 4, @set_zeros _ 8, @set_zeros _ 9, @set_zeros _ 10,
      unused, List.nil_append]
    all_goals simp
  rw [encodeNativeWasmSampleBudgetPolicy, header, foldl_copy, foldl_copy, foldl_copy, modules, allow, deny]
  · have none : 512 - kNativeWasmModuleAllowlistLimit * 32 - kNativeWasmFunctionFilterLimit * 4
        - kNativeWasmFunctionFilterLimit * 4 = 0 := rfl
    rw [none, List.replicate_zero, List.append_nil, layout]
    simp only [List.append_assoc, List.cons_append, List.nil_append]
  · rw [List.length_append, List.length_append, modules, allow, long]
  · rw [modules, allow, deny]
    decide
  · rw [List.length_append, modules, long]
  · rw [modules, allow]
    decide
  · exact long
  · rw [modules]
    decide

/-! ### What the decoder reads -/

theorem window_append {bytes : List UInt8} (start width more : Nat) :
    window bytes start width ++ window bytes (start + width) more
      = window bytes start (width + more) := by
  rw [window, window, window, List.take_add, List.drop_drop]

theorem flatten_windows (bytes : List UInt8) (start width n : Nat) :
    (List.ofFn fun i : Fin n => window bytes (start + width * i.val) width).flatten
      = window bytes start (width * n) := by
  induction n with
  | zero => simp [window]
  | succ n ih =>
      rw [List.ofFn_succ', List.concat_eq_append, List.flatten_append, List.flatten_singleton]
      simp only [Fin.val_castSucc, Fin.val_last]
      rw [ih, window_append, Nat.mul_succ]

theorem ofFn_getD {bytes : List UInt8} {start n : Nat} (fits : start + n ≤ bytes.length) :
    (List.ofFn fun i : Fin n => bytes.getD (start + i.val) 0) = window bytes start n := by
  apply List.ext_getElem
  · rw [List.length_ofFn, length_window _ _ _ fits]
  · intro i here there
    rw [List.length_ofFn] at here
    have inside : start + i < bytes.length := by omega
    simp [window, inside]

/-- Every byte but the twelfth is in a field. -/
theorem layout_fields {bytes : List UInt8} (length : bytes.length = kNativeWasmSampleBudgetEncodedBytes)
    (zero : bytes.getD 11 0 = 0) : layout (fields bytes) = bytes := by
  have length : bytes.length = 524 := length
  have counts : [bytes.getD 8 0, bytes.getD 9 0, bytes.getD 10 0, bytes.getD 11 0]
      = window bytes 8 4 := by
    rw [← ofFn_getD (by omega)]
    rfl
  have digests : (List.ofFn fun index => List.ofFn ((fields bytes).moduleAllow index)).flatten
      = window bytes 12 256 := by
    rw [← flatten_windows bytes 12 32 8]
    congr 2
    funext index
    have small : index.val < 8 := index.isLt
    exact ofFn_getD (by omega)
  have words (start : Nat) (fits : start + 128 ≤ 524) :
      (List.ofFn fun index : Fin 32 => bytes32 (get32 bytes (start + 4 * index.val))).flatten
        = window bytes start 128 := by
    rw [← flatten_windows bytes start 4 32]
    congr 2
    funext index
    exact bytes32_get32 (by omega)
  have whole : window bytes 0 524 = bytes := by
    rw [window, List.drop_zero, ← length, List.take_length]
  have all : layout (fields bytes) = window bytes 0 4 ++ (window bytes 4 4 ++ (window bytes 8 4
      ++ (window bytes 12 256 ++ (window bytes 268 128 ++ window bytes 396 128)))) := by
    rw [← counts, zero, ← digests, ← words 268 (by decide), ← words 396 (by decide),
      ← bytes32_get32 (by omega), ← bytes32_get32 (by omega)]
    rfl
  rw [all, window_append 268 128 128, window_append 12 256 256, window_append 8 4 512,
    window_append 4 4 516, window_append 0 4 520, whole]

/-! ## The two together -/

/-- The decoder accepts a message by its length, its zero byte and the check of its fields. -/
theorem decode_true_iff {bytes : List UInt8} (some : bytes ≠ [])
    (policy : NativeWasmSampleBudgetPolicy) :
    decodeNativeWasmSampleBudgetPolicy bytes = (true, policy)
      ↔ bytes.length = kNativeWasmSampleBudgetEncodedBytes ∧ bytes.getD 11 0 = 0
        ∧ isValidNativeWasmSampleBudgetPolicy (fields bytes) = true ∧ policy = fields bytes := by
  have full : bytes.isEmpty = false := by simpa using some
  rw [decodeNativeWasmSampleBudgetPolicy, full, if_neg (by decide)]
  by_cases length : bytes.length = kNativeWasmSampleBudgetEncodedBytes
  · by_cases zero : bytes.getD 11 0 = 0
    · rw [length, zero, if_neg (by simp)]
      by_cases valid : isValidNativeWasmSampleBudgetPolicy (fields bytes) = true
      · simp [valid, eq_comm]
      · simp [valid]
    · rw [if_pos ((Bool.or_eq_true _ _).mpr (.inr (bne_iff_ne.2 zero)))]
      constructor
      · intro refused
        cases refused
      · rintro ⟨-, is, -⟩
        exact absurd is zero
  · rw [if_pos (by simp [length])]
    simp [length]

theorem layout_zero (policy : NativeWasmSampleBudgetPolicy) : (layout policy).getD 11 0 = 0 := rfl

theorem fields_layout (policy : NativeWasmSampleBudgetPolicy) : fields (layout policy) = policy :=
  layout_inj (layout_fields (length_layout policy) (layout_zero policy))

/-- The wire format is canonical: accepted policies come back, accepted bytes come back, and
a refusal leaves the default policy. -/
theorem wire_canonical :
    (∀ policy, isValidNativeWasmSampleBudgetPolicy policy = true →
      decodeNativeWasmSampleBudgetPolicy (encodeNativeWasmSampleBudgetPolicy policy)
        = (true, policy))
    ∧ (∀ bytes policy, bytes ≠ [] → decodeNativeWasmSampleBudgetPolicy bytes = (true, policy) →
        encodeNativeWasmSampleBudgetPolicy policy = bytes)
    ∧ ∀ bytes policy, decodeNativeWasmSampleBudgetPolicy bytes = (false, policy) → policy = {} := by
  refine ⟨fun policy valid => ?_, fun bytes policy some accepted => ?_, fun bytes policy refused => ?_⟩
  · have length := length_layout policy
    have some : layout policy ≠ [] := by
      intro none
      rw [none] at length
      cases length
    rw [encode_eq, decode_true_iff some, fields_layout]
    exact ⟨length, layout_zero policy, valid, rfl⟩
  · obtain ⟨length, zero, -, rfl⟩ := (decode_true_iff some policy).1 accepted
    rw [encode_eq, layout_fields length zero]
  · rw [decodeNativeWasmSampleBudgetPolicy] at refused
    split at refused
    · cases refused
    · split at refused
      · cases refused
        rfl
      · dsimp only at refused
        split at refused
        · cases refused
          rfl
        · cases refused

/-- A policy with two caps and a denied function, there and back. -/
theorem wire_canonical_caps :
    let policy : NativeWasmSampleBudgetPolicy :=
      { samplesPerFunction := 3, samplesPerIndirectSite := 16, functionDenyCount := 1
        functionDeny := fun index => if index = 0 then 7 else 0 }
    decodeNativeWasmSampleBudgetPolicy (encodeNativeWasmSampleBudgetPolicy policy) = (true, policy)
      ∧ (decodeNativeWasmSampleBudgetPolicy [0]).2 = {} :=
  ⟨wire_canonical.1 _ (by decide +kernel), wire_canonical.2.2 [0] _ rfl⟩

end Reb.Probe
