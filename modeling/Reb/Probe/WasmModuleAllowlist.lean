/-
# Probe.WasmModuleAllowlist -- the module allowlist, accepted or refused

An accepted allowlist writes the digests of its entries in order and zeros behind them
(`parseModuleAllowlist_iff`), so the policy it leaves is valid when its other settings are.
No call touches those (`clearModules_parse`).  A refused one clears its count and keeps the
bytes it had written: what it leaves is valid exactly when they are all zero
(`refused_valid_iff`).
-/
import Reb.Probe.WasmBudgetPolicyExact

namespace Reb.Probe

open Theory.Decimal

set_option autoImplicit false

/-! ## One line -/

/-- The byte that two characters of a line spell. -/
def pairByte (line : List UInt8) (index : Fin 32) : Option UInt8 := do
  let high ← nativeWasmHexValue (line.getD (index.val * 2) 0)
  let low ← nativeWasmHexValue (line.getD (index.val * 2 + 1) 0)
  pure ((high <<< 4) ||| low)

/-- The line holds the 64 digits of a digest. -/
def Spells (line : List UInt8) (digest : ModuleDigest) : Prop :=
  line.length = 64 ∧ ∀ index, pairByte line index = some (digest index)

theorem nativeWasmHexValue_lt {character value : UInt8}
    (digit : nativeWasmHexValue character = some value) : value < 16 := by
  have all : ∀ code : Fin 256, (nativeWasmHexValue (.ofNat code.val)).all (· < 16) = true := by
    decide +kernel
  have small := all ⟨character.toNat, character.toNat_lt⟩
  rw [UInt8.ofNat_toNat, digit] at small
  exact of_decide_eq_true small

/-- A byte is sixteen times its first digit and its second one. -/
theorem toNat_pairByte {line : List UInt8} {index : Fin 32} {byte : UInt8}
    (spelled : pairByte line index = some byte) :
    ∃ high low, nativeWasmHexValue (line.getD (index.val * 2) 0) = some high
      ∧ nativeWasmHexValue (line.getD (index.val * 2 + 1) 0) = some low
      ∧ byte.toNat = high.toNat * 16 + low.toNat := by
  obtain ⟨high, first, rest⟩ := Option.bind_eq_some_iff.1 spelled
  obtain ⟨low, second, same⟩ := Option.bind_eq_some_iff.1 rest
  refine ⟨high, low, first, second, ?_⟩
  have highSmall : high.toNat < 16 := UInt8.lt_iff_toNat_lt.1 (nativeWasmHexValue_lt first)
  have lowSmall : low.toNat < 2 ^ 4 := UInt8.lt_iff_toNat_lt.1 (nativeWasmHexValue_lt second)
  have shifted : high.toNat <<< 4 < 2 ^ 8 := by
    rw [Nat.shiftLeft_eq]
    omega
  rw [← Option.some.inj same, UInt8.toNat_or, UInt8.toNat_shiftLeft]
  show high.toNat <<< 4 % 2 ^ 8 ||| low.toNat = _
  rw [Nat.mod_eq_of_lt shifted, ← Nat.shiftLeft_add_eq_or_of_lt lowSmall, Nat.shiftLeft_eq]

theorem writeDigest_cons (line : List UInt8) (index : Fin 32) (rest : List (Fin 32))
    (digest : ModuleDigest) :
    writeDigest line (index :: rest) digest = (pairByte line index).elim (.error digest)
      fun byte => writeDigest line rest (Function.update digest index byte) := by
  rw [writeDigest, pairByte]
  cases nativeWasmHexValue (line.getD (index.val * 2) 0) with
  | none => rfl
  | some high => cases nativeWasmHexValue (line.getD (index.val * 2 + 1) 0) <;> rfl

theorem writeDigest_iff (line : List UInt8) (indices : List (Fin 32)) (digest final : ModuleDigest) :
    writeDigest line indices digest = .ok final
      ↔ (∀ index ∈ indices, pairByte line index = some (final index))
        ∧ ∀ index ∉ indices, final index = digest index := by
  induction indices generalizing digest with
  | nil =>
      rw [writeDigest, Except.ok.injEq]
      constructor
      · rintro rfl
        exact ⟨by simp, fun _ _ => rfl⟩
      · rintro ⟨-, kept⟩
        funext index
        exact (kept index List.not_mem_nil).symm
  | cons index rest ih =>
      rw [writeDigest_cons, List.forall_mem_cons]
      cases spelled : pairByte line index with
      | none =>
          constructor
          · intro impossible
            cases impossible
          · rintro ⟨⟨impossible, -⟩, -⟩
            cases impossible
      | some byte =>
          rw [Option.elim_some, ih, Option.some.injEq]
          constructor
          · rintro ⟨written, kept⟩
            refine ⟨⟨?_, written⟩, fun other outside => ?_⟩
            · by_cases again : index ∈ rest
              · rw [← Option.some.injEq, ← spelled, written index again]
              · rw [kept index again, Function.update_self]
            · rw [List.mem_cons, not_or] at outside
              rw [kept other outside.2, Function.update_of_ne outside.1]
          · rintro ⟨⟨here, written⟩, kept⟩
            refine ⟨written, fun other outside => ?_⟩
            by_cases same : other = index
            · rw [same, Function.update_self, here]
            · rw [Function.update_of_ne same]
              exact kept other (by simp [same, outside])

/-- What was there before does not matter. -/
theorem writeDigest_all (line : List UInt8) (digest final : ModuleDigest) :
    writeDigest line (List.finRange 32) digest = .ok final
      ↔ ∀ index, pairByte line index = some (final index) := by
  simp [writeDigest_iff]

theorem spelled_unique {line : List UInt8} {digest other : ModuleDigest}
    (one : ∀ index, pairByte line index = some (digest index))
    (another : ∀ index, pairByte line index = some (other index)) : digest = other := by
  funext index
  exact Option.some.inj ((one index).symm.trans (another index))

theorem spells_rightUnique : Relator.RightUnique Spells := fun _ _ _ one another =>
  spelled_unique one.2 another.2

/-! ## Every line -/

/-- The digests an allowlist may hold. -/
structure AdmittedModules (digests : List ModuleDigest) : Prop where
  distinct : digests.Nodup
  few : digests.length ≤ kNativeWasmModuleAllowlistLimit

/-- The policy with these digests, then zeros, for its allowlist. -/
def NativeWasmSampleBudgetPolicy.withModules (policy : NativeWasmSampleBudgetPolicy)
    (digests : List ModuleDigest) : NativeWasmSampleBudgetPolicy :=
  { policy with
    moduleAllowCount := .ofNat digests.length
    moduleAllow := fun index => digests.getD index.val fun _ => 0 }

/-- The lines that are neither blank nor comments, trimmed. -/
def entries (lines : List (List UInt8)) : List (List UInt8) :=
  (lines.map trimLine).filter fun line => !isIgnored line

theorem admittedModules_snoc {digests : List ModuleDigest} {digest : ModuleDigest} :
    AdmittedModules (digests ++ [digest]) ↔ AdmittedModules digests ∧ digest ∉ digests
      ∧ digests.length < kNativeWasmModuleAllowlistLimit := by
  constructor
  · rintro ⟨distinct, few⟩
    rw [List.nodup_append] at distinct
    rw [List.length_append, List.length_singleton] at few
    exact ⟨⟨distinct.1, by omega⟩,
      fun inside => distinct.2.2 digest inside digest (List.mem_singleton_self _) rfl, few⟩
  · rintro ⟨⟨distinct, -⟩, fresh, few⟩
    constructor
    · exact List.nodup_append.2 ⟨distinct, List.nodup_singleton _, by
        rintro other inside _ here rfl
        exact fresh (List.mem_singleton.1 here ▸ inside)⟩
    · rw [List.length_append, List.length_singleton]
      exact few

theorem AdmittedModules.front {digests others : List ModuleDigest}
    (all : AdmittedModules (digests ++ others)) : AdmittedModules digests where
  distinct := (List.nodup_append.1 all.distinct).1
  few := by
    have few := all.few
    rw [List.length_append] at few
    omega

section Lines

variable (policy : NativeWasmSampleBudgetPolicy) {digests : List ModuleDigest}

theorem count_withModules (admitted : AdmittedModules digests) :
    (policy.withModules digests).moduleAllowCount.toNat = digests.length := by
  have few : digests.length ≤ 8 := admitted.few
  exact UInt8.toNat_ofNat_of_lt' (show digests.length < 256 by omega)

theorem update_withModules (digest : ModuleDigest)
    (index : Fin kNativeWasmModuleAllowlistLimit) (next : index.val = digests.length) :
    { (policy.withModules digests).writeModule index digest with
        moduleAllowCount := (policy.withModules digests).moduleAllowCount + 1 }
      = policy.withModules (digests ++ [digest]) := by
  have counted : (UInt8.ofNat digests.length) + 1 = .ofNat (digests ++ [digest]).length := by
    rw [List.length_append, List.length_singleton, UInt8.ofNat_add]
    rfl
  have written : Function.update (fun index : Fin kNativeWasmModuleAllowlistLimit =>
      digests.getD index.val fun _ => 0) index digest
        = fun index => (digests ++ [digest]).getD index.val fun _ => 0 := by
    funext other
    by_cases here : other = index
    · rw [here, Function.update_self, next, List.getD_append_right _ _ _ _ (le_refl _),
        Nat.sub_self]
      rfl
    · rw [Function.update_of_ne here]
      have apart : other.val ≠ digests.length := fun same => here (Fin.ext (same.trans next.symm))
      rcases lt_or_gt_of_ne apart with before | after
      · rw [List.getD_append _ _ _ _ before]
      · rw [List.getD_eq_default _ _ after.le, List.getD_eq_default]
        rw [List.length_append, List.length_singleton]
        exact after
  rw [NativeWasmSampleBudgetPolicy.writeModule, NativeWasmSampleBudgetPolicy.withModules]
  simp only [counted, written]
  rfl

/-- The digests before the one being written are those already admitted. -/
theorem exists_earlier (few : digests.length < kNativeWasmModuleAllowlistLimit)
    (index : Fin kNativeWasmModuleAllowlistLimit) (here : index.val = digests.length)
    {digest written : ModuleDigest} :
    (∃ earlier, earlier < index
      ∧ ((policy.withModules digests).writeModule index written).moduleAllow earlier = digest)
      ↔ digest ∈ digests := by
  have other {earlier : Fin kNativeWasmModuleAllowlistLimit} (before : earlier < index) :
      ((policy.withModules digests).writeModule index written).moduleAllow earlier
        = digests.getD earlier.val fun _ => 0 :=
      by
      exact Function.update_of_ne (ne_of_lt before) written (policy.withModules digests).moduleAllow
  rw [List.mem_iff_getElem]
  constructor
  · rintro ⟨place, before, same⟩
    have inside : place.val < digests.length := here ▸ before
    refine ⟨place.val, inside, ?_⟩
    rw [← same, other before, List.getD_eq_getElem _ _ inside]
  · rintro ⟨place, inside, same⟩
    have before : (⟨place, inside.trans few⟩ : Fin kNativeWasmModuleAllowlistLimit) < index :=
      show place < index.val from here.symm ▸ inside
    refine ⟨_, before, ?_⟩
    rw [other before, ← same, List.getD_eq_getElem _ _ inside]

theorem consume_ignored {whole : List UInt8} (ignored : isIgnored (trimLine whole) = true) :
    consumeLine policy whole = .ok policy := by
  rw [consumeLine]
  exact if_pos ignored

/-- A line that is not ignored is one digest more, or refused. -/
theorem consume_entry (admitted : AdmittedModules digests) {whole : List UInt8}
    (kept : isIgnored (trimLine whole) = false) (next : NativeWasmSampleBudgetPolicy) :
    consumeLine (policy.withModules digests) whole = .ok next
      ↔ ∃ digest, Spells (trimLine whole) digest ∧ AdmittedModules (digests ++ [digest])
        ∧ next = policy.withModules (digests ++ [digest]) := by
  have counted := count_withModules policy admitted
  rw [consumeLine]
  simp only [kept, Bool.false_eq_true, if_false, admittedModules_snoc, admitted, true_and]
  split
  · next refused =>
      rw [counted] at refused
      constructor
      · intro impossible
        cases impossible
      · rintro ⟨digest, ⟨long, -⟩, ⟨-, few⟩, -⟩
        rcases refused with short | full
        · exact absurd long short
        · exact absurd few (not_lt.2 full)
  · next fits =>
      obtain ⟨long, few⟩ := not_or.1 fits
      rw [not_not] at long
      rw [counted, ge_iff_le, not_le] at few
      split
      · next left refused =>
          constructor
          · intro impossible
            cases impossible
          · rintro ⟨digest, ⟨-, spelled⟩, -⟩
            rw [(writeDigest_all _ _ digest).2 spelled] at refused
            cases refused
      · next digest written =>
          have spelled := (writeDigest_all _ _ digest).1 written
          simp only [exists_earlier policy few ⟨_, not_le.1 (not_or.1 fits).2⟩ counted]
          by_cases old : digest ∈ digests
          · rw [if_pos old]
            constructor
            · intro impossible
              cases impossible
            · rintro ⟨other, ⟨-, both⟩, ⟨fresh, -⟩, -⟩
              exact absurd (spelled_unique both spelled ▸ old) fresh
          · rw [if_neg old, Except.ok.injEq, update_withModules policy digest _ counted]
            constructor
            · rintro rfl
              exact ⟨digest, ⟨long, spelled⟩, ⟨old, few⟩, rfl⟩
            · rintro ⟨other, ⟨-, both⟩, -, rfl⟩
              rw [spelled_unique both spelled]

theorem entries_cons (whole : List UInt8) (rest : List (List UInt8)) :
    entries (whole :: rest) = if isIgnored (trimLine whole) = true then entries rest
      else trimLine whole :: entries rest := by
  rw [entries, List.map_cons, List.filter_cons]
  cases isIgnored (trimLine whole) <;> rfl

theorem consume_lines (admitted : AdmittedModules digests) (lines : List (List UInt8))
    (final : NativeWasmSampleBudgetPolicy) :
    lines.foldlM consumeLine (policy.withModules digests) = .ok final
      ↔ ∃ more, List.Forall₂ Spells (entries lines) more ∧ AdmittedModules (digests ++ more)
        ∧ final = policy.withModules (digests ++ more) := by
  induction lines generalizing digests with
  | nil =>
      constructor
      · intro same
        refine ⟨[], .nil, ?_, ?_⟩
        · rwa [List.append_nil]
        · rw [List.append_nil]
          exact (Except.ok.inj same).symm
      · rintro ⟨_, pieces, -, rfl⟩
        cases pieces
        rw [List.append_nil]
        rfl
  | cons whole rest ih =>
      rw [List.foldlM_cons, Theory.Fallible.bind_eq_ok, entries_cons]
      cases ignored : isIgnored (trimLine whole) with
      | true =>
          simp only [consume_ignored _ ignored, if_true, ← ih admitted]
          constructor
          · rintro ⟨_, same, run⟩
            rwa [Except.ok.inj same]
          · intro run
            exact ⟨_, rfl, run⟩
      | false =>
          simp only [consume_entry policy admitted ignored, Bool.false_eq_true, if_false,
            List.forall₂_cons_left_iff]
          constructor
          · rintro ⟨_, ⟨digest, spelled, more, rfl⟩, run⟩
            obtain ⟨others, pieces, both, same⟩ := (ih more).1 run
            rw [List.append_assoc, List.singleton_append] at both same
            exact ⟨digest :: others, ⟨digest, others, spelled, pieces, rfl⟩, both, same⟩
          · rintro ⟨_, ⟨digest, others, spelled, pieces, rfl⟩, both, same⟩
            rw [← List.singleton_append, ← List.append_assoc] at both same
            exact ⟨_, ⟨digest, spelled, both.front, rfl⟩, (ih both.front).2 ⟨others, pieces, both, same⟩⟩

end Lines

/-! ## The whole allowlist -/

/-- An allowlist is accepted exactly when its entries spell admitted digests, and these are
written in order. -/
theorem parseModuleAllowlist_iff (text : List UInt8) (policy final : NativeWasmSampleBudgetPolicy) :
    parseNativeWasmModuleAllowlist text policy = .ok final
      ↔ ∃ digests, List.Forall₂ Spells (entries (text.splitOn newline)) digests
        ∧ digests ≠ [] ∧ AdmittedModules digests ∧ final = policy.withModules digests := by
  have none_yet : AdmittedModules [] := ⟨List.nodup_nil, Nat.zero_le _⟩
  have cleared : policy.clearModules = policy.withModules [] := rfl
  have run := consume_lines policy none_yet (text.splitOn newline)
  rw [← cleared] at run
  simp only [List.nil_append] at run
  rw [parseNativeWasmModuleAllowlist]
  cases read : (text.splitOn newline).foldlM consumeLine policy.clearModules with
  | error left =>
      constructor
      · intro impossible
        cases impossible
      · rintro ⟨digests, pieces, -, admitted, -⟩
        have accepted := (run _).2 ⟨digests, pieces, admitted, rfl⟩
        rw [read] at accepted
        cases accepted
  | ok after =>
      obtain ⟨digests, pieces, admitted, rfl⟩ := (run after).1 read
      have counted := count_withModules policy admitted
      have zero : (policy.withModules digests).moduleAllowCount = 0 ↔ digests = [] := by
        rw [← UInt8.toNat_inj, counted]
        exact List.length_eq_zero_iff
      simp only [beq_iff_eq, zero]
      have unique (others : List ModuleDigest)
          (spelled : List.Forall₂ Spells (entries (text.splitOn newline)) others) :
          others = digests :=
        spells_rightUnique.forall₂ spelled pieces
      by_cases empty : digests = []
      · rw [if_pos empty]
        constructor
        · intro impossible
          cases impossible
        · rintro ⟨others, spelled, nonempty, -⟩
          exact absurd (unique others spelled ▸ empty) nonempty
      · rw [if_neg empty, Except.ok.injEq]
        constructor
        · rintro rfl
          exact ⟨digests, pieces, empty, admitted, rfl⟩
        · rintro ⟨others, spelled, -, -, rfl⟩
          rw [unique others spelled]

/-! ## Validity -/

/-- The conditions of a valid policy on its allowlist. -/
structure ModulesValid (policy : NativeWasmSampleBudgetPolicy) : Prop where
  few : policy.moduleAllowCount.toNat ≤ kNativeWasmModuleAllowlistLimit
  zeros : ∀ index, policy.moduleAllowCount.toNat ≤ index.val →
    ∀ byte, policy.moduleAllow index byte = 0
  distinct : ∀ index, index.val < policy.moduleAllowCount.toNat →
    ∀ earlier, earlier < index → policy.moduleAllow index ≠ policy.moduleAllow earlier

/-- A policy is valid when it is valid without its allowlist and its allowlist is. -/
theorem valid_iff (policy : NativeWasmSampleBudgetPolicy) :
    isValidNativeWasmSampleBudgetPolicy policy = true
      ↔ isValidNativeWasmSampleBudgetPolicy policy.clearModules = true ∧ ModulesValid policy := by
  have parts : ModulesValid policy ↔ policy.moduleAllowCount.toNat ≤ kNativeWasmModuleAllowlistLimit
      ∧ (∀ index, policy.moduleAllowCount.toNat ≤ index.val →
        ∀ byte, policy.moduleAllow index byte = 0)
      ∧ ∀ index, index.val < policy.moduleAllowCount.toNat →
        ∀ earlier, earlier < index → policy.moduleAllow index ≠ policy.moduleAllow earlier :=
    ⟨fun valid => ⟨valid.few, valid.zeros, valid.distinct⟩, fun valid => ⟨valid.1, valid.2.1, valid.2.2⟩⟩
  simp [parts, isValidNativeWasmSampleBudgetPolicy, NativeWasmSampleBudgetPolicy.clearModules]
  tauto

theorem modulesValid_withModules (policy : NativeWasmSampleBudgetPolicy)
    {digests : List ModuleDigest} (admitted : AdmittedModules digests) :
    ModulesValid (policy.withModules digests) := by
  have counted := count_withModules policy admitted
  constructor
  · rw [counted]
    exact admitted.few
  · intro index beyond byte
    rw [counted] at beyond
    show digests.getD index.val (fun _ => 0) byte = 0
    rw [List.getD_eq_default _ _ beyond]
  · intro index inside earlier before same
    rw [counted] at inside
    have sooner : earlier.val < digests.length := lt_trans before inside
    change digests.getD index.val _ = digests.getD earlier.val _ at same
    rw [List.getD_eq_getElem _ _ inside, List.getD_eq_getElem _ _ sooner] at same
    exact (ne_of_lt before) (Fin.ext ((admitted.distinct.getElem_inj_iff.1 same).symm))

/-! ## What a call leaves behind -/

/-- The policy after a call, whether it succeeded or not. -/
def leftBehind {α : Type} : Except α α → α
  | .ok after => after
  | .error after => after

theorem clearModules_consume (policy : NativeWasmSampleBudgetPolicy) (whole : List UInt8) :
    (leftBehind (consumeLine policy whole)).clearModules = policy.clearModules := by
  rw [consumeLine]
  dsimp only
  split
  · rfl
  · split
    · rfl
    · split
      · rfl
      · split <;> rfl

theorem clearModules_lines (policy : NativeWasmSampleBudgetPolicy) (lines : List (List UInt8)) :
    (leftBehind (lines.foldlM consumeLine policy)).clearModules = policy.clearModules := by
  induction lines generalizing policy with
  | nil => rfl
  | cons whole rest ih =>
      have step := clearModules_consume policy whole
      rw [List.foldlM_cons]
      cases read : consumeLine policy whole with
      | error left =>
          rw [read] at step
          exact step
      | ok after =>
          rw [read] at step
          exact (ih after).trans step

/-- No call touches what is not the allowlist. -/
theorem clearModules_parse (text : List UInt8) (policy : NativeWasmSampleBudgetPolicy) :
    (leftBehind (parseNativeWasmModuleAllowlist text policy)).clearModules
      = policy.clearModules := by
  have run := clearModules_lines policy.clearModules (text.splitOn newline)
  rw [parseNativeWasmModuleAllowlist]
  cases read : (text.splitOn newline).foldlM consumeLine policy.clearModules with
  | error left =>
      rw [read] at run
      exact run
  | ok after =>
      rw [read] at run
      show (leftBehind (if after.moduleAllowCount == 0 then .error after
        else .ok after)).clearModules = _
      split <;> exact run

theorem count_refused {text : List UInt8} {policy left : NativeWasmSampleBudgetPolicy}
    (refused : parseNativeWasmModuleAllowlist text policy = .error left) :
    left.moduleAllowCount = 0 := by
  rw [parseNativeWasmModuleAllowlist] at refused
  split at refused
  · rw [← Except.error.inj refused]
  · split at refused
    · next zero => rw [← Except.error.inj refused, eq_of_beq zero]
    · cases refused

/-- After a refusal the policy is valid only when no byte of a digest was left behind. -/
theorem refused_valid_iff {text : List UInt8} {policy left : NativeWasmSampleBudgetPolicy}
    (valid : isValidNativeWasmSampleBudgetPolicy policy.clearModules = true)
    (refused : parseNativeWasmModuleAllowlist text policy = .error left) :
    isValidNativeWasmSampleBudgetPolicy left = true
      ↔ ∀ index byte, left.moduleAllow index byte = 0 := by
  have kept := clearModules_parse text policy
  have zero := count_refused refused
  rw [refused] at kept
  rw [valid_iff]
  constructor
  · rintro ⟨-, modules⟩ index
    exact modules.zeros index (zero ▸ Nat.zero_le _)
  · intro zeros
    refine ⟨(congrArg isValidNativeWasmSampleBudgetPolicy kept).trans valid,
      zero ▸ Nat.zero_le _, fun index _ => zeros index, fun index inside => ?_⟩
    rw [zero] at inside
    exact absurd inside (Nat.not_lt_zero _)

/-! ## The parsers together -/

/-- Each parser accepts exactly its grammar, an accepted allowlist leaves the policy valid,
no call touches the other settings, and no accumulation wraps. -/
theorem budgetParsers_exact :
    (∀ text out written count,
      (∃ final, parseNativeWasmFunctionList text out = .ok final
        ∧ final.out = written ∧ final.count = count)
      ↔ kNativeWasmFunctionFilterLimit ≤ out.length
        ∧ ∃ numbers, List.Forall₂ (fun piece number => fromDecimal piece = some number)
            (text.splitOn comma) numbers
          ∧ 1 ≤ numbers.length ∧ numbers.length ≤ kNativeWasmFunctionFilterLimit
          ∧ numbers.Nodup ∧ (∀ number ∈ numbers, number < kNativeWasmFunctionIndexLimit.toNat)
          ∧ written = numbers.map UInt32.ofNat ++ out.drop numbers.length
          ∧ count.toNat = numbers.length)
    ∧ (∀ text policy final, parseNativeWasmModuleAllowlist text policy = .ok final
      ↔ ∃ digests, List.Forall₂ Spells (entries (text.splitOn newline)) digests
        ∧ 1 ≤ digests.length ∧ digests.length ≤ kNativeWasmModuleAllowlistLimit
        ∧ digests.Nodup ∧ final = policy.withModules digests)
    ∧ (∀ text value, parseNativeWasmBudgetResetGeneration text = some value
      ↔ ∃ digits ending, text = digits ++ ending ∧ ending ∈ lineEnds ∧ digits.length ≤ 20
        ∧ fromDecimal digits = some value.toNat)
    ∧ (∀ text policy final, isValidNativeWasmSampleBudgetPolicy policy.clearModules = true →
      parseNativeWasmModuleAllowlist text policy = .ok final →
      isValidNativeWasmSampleBudgetPolicy final = true)
    ∧ (∀ text policy left, parseNativeWasmModuleAllowlist text policy = .error left →
      left.moduleAllowCount = 0 ∧ left.clearModules = policy.clearModules)
    ∧ (∀ value character next, isDigit character = true →
      functionDigit value character = some next →
      next.toNat = value.toNat * 10 + (character.toNat - 48))
    ∧ (∀ value character next, generationDigit value character = some next →
      next.toNat = value.toNat * 10 + (character.toNat - 48))
    ∧ ∀ line index byte, pairByte line index = some byte →
      ∃ high low, nativeWasmHexValue (line.getD (index.val * 2) 0) = some high
        ∧ nativeWasmHexValue (line.getD (index.val * 2 + 1) 0) = some low
        ∧ byte.toNat = high.toNat * 16 + low.toNat := by
  refine ⟨fun text out written count => ?_, fun text policy final => ?_, parseGeneration_iff,
    fun text policy final valid accepted => ?_, fun text policy left refused => ?_,
    fun value character next digit read => ((functionDigit_exact value digit next).1 read).1,
    fun value character next read => generationDigit_exact read,
    fun line index byte spelled => toNat_pairByte spelled⟩
  · simp only [parseFunctionList_iff]
    constructor
    · rintro ⟨_, ⟨room, numbers, pieces, admitted, rfl⟩, rfl, rfl⟩
      have some_piece := List.length_pos_iff.2 (List.splitOn_ne_nil comma text)
      rw [pieces.length_eq] at some_piece
      exact ⟨room, numbers, pieces, some_piece, admitted.few, admitted.distinct, admitted.small,
        rfl, count_reading out [] admitted⟩
    · rintro ⟨room, numbers, pieces, -, few, distinct, small, rfl, counted⟩
      have admitted : Admitted numbers := ⟨distinct, small, few⟩
      refine ⟨_, ⟨room, numbers, pieces, admitted, rfl⟩, rfl, ?_⟩
      exact UInt8.toNat_inj.1 ((count_reading out [] admitted).trans counted.symm)
  · rw [parseModuleAllowlist_iff]
    constructor
    · rintro ⟨digests, pieces, nonempty, admitted, same⟩
      exact ⟨digests, pieces, List.length_pos_iff.2 nonempty, admitted.few, admitted.distinct, same⟩
    · rintro ⟨digests, pieces, nonempty, few, distinct, same⟩
      exact ⟨digests, pieces, List.length_pos_iff.1 nonempty, ⟨distinct, few⟩, same⟩
  · obtain ⟨digests, -, -, admitted, rfl⟩ := (parseModuleAllowlist_iff _ _ _).1 accepted
    exact (valid_iff _).2 ⟨valid, modulesValid_withModules policy admitted⟩
  · have kept := clearModules_parse text policy
    rw [refused] at kept
    exact ⟨count_refused refused, kept⟩

/-- One entry of a digest leaves a valid policy. -/
theorem budgetParsers_exact_sample :
    isValidNativeWasmSampleBudgetPolicy
      (({} : NativeWasmSampleBudgetPolicy).withModules [fun _ => 0xab]) = true :=
  budgetParsers_exact.2.2.2.1 (ascii "# note" ++ [newline] ++ ascii
      "abababababababababababababababababababababababababababababababab") {} _ (by decide +kernel)
    ((budgetParsers_exact.2.1 _ _ _).2 ⟨[fun _ => 0xab],
      (.cons ⟨by decide +kernel, by decide +kernel⟩ .nil :
        List.Forall₂ Spells [ascii
          "abababababababababababababababababababababababababababababababab"] _),
      by decide, by decide, List.nodup_singleton _, rfl⟩)

/-- A generation may be followed by a line end, two spellings of one digest are one digest,
and what a refused allowlist had written stays. -/
theorem budgetParsers_as_stated :
    (parseNativeWasmBudgetResetGeneration (ascii "1" ++ [newline]) = some 1
      ∧ fromDecimal (ascii "1" ++ [newline]) = none)
    ∧ (List.replicate 64 (0x61 : UInt8) ≠ List.replicate 64 0x41
      ∧ (parseNativeWasmModuleAllowlist
          (List.replicate 64 0x61 ++ newline :: List.replicate 64 0x41) {}).toBool = false)
    ∧ isValidNativeWasmSampleBudgetPolicy {} = true
      ∧ isValidNativeWasmSampleBudgetPolicy (leftBehind (parseNativeWasmModuleAllowlist
          (List.replicate 64 0x61 ++ newline :: ascii "x") {})) = false := by
  decide +kernel

end Reb.Probe
