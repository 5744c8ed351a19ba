/-
# Console.DocumentStartArmed -- every armed set reaches the renderer whole

`Arm` gives consecutive ids and counts the source bytes, so every set that the registry holds,
in every run of its calls, is one that the decoder takes (`armed_whole`).  The encoder by
itself accepts more: two scripts of one id are encoded and then refused.
-/
import Reb.Console.DocumentStartWire

namespace Reb.Console.ScriptSet

open Theory Theory.Decimal

set_option autoImplicit false

/-! ## Arming -/

/-- What holds of the set after each entry: it is whole, its ids are consecutive. -/
structure Arming.Kept (first : UInt64) (state : Arming) : Prop where
  whole : Whole state.next
  total : state.total = (state.next.map (·.sourceBytes.toNat)).sum
  ids : state.next.map (·.scriptId)
    = (List.range state.next.length).map fun index => first + .ofNat index
  nextId : state.nextScriptId = first + .ofNat state.next.length

/-- Accepted texts are one valid script more, within the limit. -/
theorem armTexts_ok {state next : Arming} {flags : UInt16} {origin source : List UInt8}
    {pathPrefix : Option (List UInt8)}
    (accepted : armTexts state flags origin source pathPrefix = .ok next) :
    ∃ script : NativeConsoleDocumentStartScript,
      isValidNativeConsoleDocumentStartScript script = true
      ∧ script.scriptId = state.nextScriptId
      ∧ state.total + script.sourceBytes.toNat ≤ kNativeConsoleDocumentStartTotalSourceLimit
      ∧ next = { next := state.next ++ [script]
                 total := state.total + script.sourceBytes.toNat
                 nextScriptId := state.nextScriptId + 1 } := by
  rw [armTexts] at accepted
  split at accepted
  · cases accepted
  · next fits =>
      dsimp only at accepted
      split at accepted
      · cases accepted
      · next valid =>
          split at accepted
          · cases accepted
          · next within =>
              have short : source.length ≤ kNativeConsoleDocumentStartSourceLimit := by
                rw [Bool.or_eq_true, not_or, decide_eq_true_eq] at fits
                exact not_lt.1 fits.2
              have size : (armedScript state.nextScriptId flags origin source
                  pathPrefix).sourceBytes.toNat = source.length :=
                UInt32.toNat_ofNat_of_lt' (short.trans_lt (by decide))
              refine ⟨_, by simpa using valid, rfl, ?_, ?_⟩
              · rw [size]
                exact not_lt.1 within
              · rw [size]
                exact (Except.ok.inj accepted).symm

theorem armEntry_ok {state next : Arming} {entry : Option ArmRecord}
    (accepted : armEntry state entry = .ok next) :
    ∃ flags origin source pathPrefix, armTexts state flags origin source pathPrefix = .ok next := by
  rw [armEntry.eq_def] at accepted
  split at accepted
  · cases accepted
  · split at accepted
    · split at accepted
      · cases accepted
      · split at accepted
        · cases accepted
        · exact ⟨_, _, _, _, accepted⟩
    · cases accepted

theorem take_padded {size : Nat} {text : List UInt8} (fits : text.length ≤ size) :
    (padded size text).toList.take text.length = text := by
  rw [padded, Vector.toList_ofFn]
  apply List.ext_getElem
  · rw [List.length_take, List.length_ofFn, Nat.min_eq_left fits]
  · intro index _ inside
    rw [List.getElem_take, List.getElem_ofFn, List.getD_eq_getElem _ _ inside]

theorem drop_padded (size : Nat) (text : List UInt8) :
    ((padded size text).toList.drop text.length).any (· != 0) = false := by
  rw [padded, Vector.toList_ofFn, List.any_eq_false]
  intro byte inside
  obtain ⟨index, before, rfl⟩ := List.mem_iff_getElem.1 inside
  rw [List.getElem_drop, List.getElem_ofFn, List.getD_eq_default _ _ (Nat.le_add_right _ _)]
  exact Bool.noConfusion

/-- The script of texts within their limits is valid when they are. -/
theorem valid_armedScript {scriptId : UInt64} (nonzero : scriptId ≠ 0) {flags : UInt16}
    (kind : flags = kNativeConsoleDocumentStartTopFrame
      ∨ flags = kNativeConsoleDocumentStartChildFrame)
    {origin source : List UInt8} {pathPrefix : Option (List UInt8)} (named : origin ≠ [])
    (originFits : origin.length ≤ kNativeConsoleDocumentStartOriginLimit)
    (pathFits : (pathPrefix.getD []).length ≤ kNativeConsoleDocumentStartPathLimit)
    (some_source : source ≠ []) (sourceFits : source.length ≤ kNativeConsoleDocumentStartSourceLimit)
    (canonical : Origin.Browser.isValidNativeConsoleDocumentStartOrigin origin = true)
    (literal : isValidNativeConsoleDocumentStartPath (pathPrefix.getD []) = true)
    (text : utf8 source = true) :
    isValidNativeConsoleDocumentStartScript
      (armedScript scriptId flags origin source pathPrefix) = true := by
  have originSize : (UInt16.ofNat origin.length).toNat = origin.length :=
    UInt16.toNat_ofNat_of_lt' (originFits.trans_lt (by decide))
  have pathSize : (UInt16.ofNat (pathPrefix.getD []).length).toNat = (pathPrefix.getD []).length :=
    UInt16.toNat_ofNat_of_lt' (pathFits.trans_lt (by decide))
  have sourceSize : (UInt32.ofNat source.length).toNat = source.length :=
    UInt32.toNat_ofNat_of_lt' (sourceFits.trans_lt (by decide))
  have originSome : UInt16.ofNat origin.length ≠ 0 := by
    intro zero
    rw [zero] at originSize
    exact named (List.length_eq_zero_iff.1 originSize.symm)
  have sourceSome : UInt32.ofNat source.length ≠ 0 := by
    intro zero
    rw [zero] at sourceSize
    exact some_source (List.length_eq_zero_iff.1 sourceSize.symm)
  have frame : (flags != kNativeConsoleDocumentStartTopFrame
      && flags != kNativeConsoleDocumentStartChildFrame) = false := by
    rcases kind with rfl | rfl <;> rfl
  have rule : isValidNativeConsoleDocumentStartRule
      (armedScript scriptId flags origin source pathPrefix).rule = true := by
    simp only [isValidNativeConsoleDocumentStartRule, armedScript,
      NativeConsoleDocumentStartRule.originText, NativeConsoleDocumentStartRule.pathText,
      originSize, pathSize, take_padded originFits, take_padded pathFits, drop_padded, frame,
      canonical, literal]
    simp [originSome, originFits, pathFits]
  simp only [isValidNativeConsoleDocumentStartScript, rule,
    NativeConsoleDocumentStartScript.sourceText]
  simp only [armedScript, sourceSize, take_padded sourceFits, drop_padded, text]
  simp [nonzero, sourceSome, sourceFits]

/-- Ids given one after the other differ while there are few of them. -/
theorem fresh_id {first : UInt64} {count : Nat} (few : count < 2 ^ 64) :
    first + .ofNat count ∉ (List.range count).map fun index => first + UInt64.ofNat index := by
  intro inside
  obtain ⟨index, before, same⟩ := List.mem_map.1 inside
  rw [List.mem_range] at before
  have words : UInt64.ofNat index = .ofNat count := by
    have moved := congrArg (· - first) same
    rwa [add_sub_cancel_left, add_sub_cancel_left] at moved
  have numbers := congrArg UInt64.toNat words
  rw [UInt64.toNat_ofNat_of_lt' (before.trans few), UInt64.toNat_ofNat_of_lt' few] at numbers
  omega

theorem Arming.Kept.step {first : UInt64} {state next : Arming} (kept : state.Kept first)
    (few : state.next.length < 2 ^ 64) {entry : Option ArmRecord}
    (accepted : armEntry state entry = .ok next) :
    next.Kept first ∧ next.next.length = state.next.length + 1 := by
  obtain ⟨_, _, _, _, texts⟩ := armEntry_ok accepted
  obtain ⟨script, valid, id, within, rfl⟩ := armTexts_ok texts
  have counted : (state.next ++ [script]).length = state.next.length + 1 := by
    rw [List.length_append, List.length_singleton]
  refine ⟨⟨?_, ?_, ?_, ?_⟩, counted⟩
  · refine whole_snoc.2 ⟨kept.whole, valid, ?_, ?_⟩
    · rw [id, kept.nextId, kept.ids]
      exact fresh_id few
    · rw [← kept.total]
      exact within
  · show state.total + _ = _
    rw [kept.total, List.map_append, List.sum_append, List.map_singleton, List.sum_singleton]
  · show (state.next ++ [script]).map _ = _
    rw [counted, List.range_succ, List.map_append, List.map_append, kept.ids, List.map_singleton,
      List.map_singleton, id, kept.nextId]
  · show state.nextScriptId + 1 = _
    rw [counted, kept.nextId, UInt64.ofNat_add, add_assoc]
    rfl

theorem Arming.Kept.run {first : UInt64} {state final : Arming} (kept : state.Kept first)
    (entries : List (Option ArmRecord)) (few : state.next.length + entries.length < 2 ^ 64)
    (accepted : entries.foldlM armEntry state = .ok final) :
    final.Kept first ∧ final.next.length = state.next.length + entries.length := by
  induction entries generalizing state with
  | nil =>
      obtain rfl := Except.ok.inj accepted
      exact ⟨kept, rfl⟩
  | cons entry rest ih =>
      rw [List.length_cons] at few
      rw [List.foldlM_cons, Fallible.bind_eq_ok] at accepted
      obtain ⟨next, step, others⟩ := accepted
      obtain ⟨after, counted⟩ := kept.step (by omega) step
      obtain ⟨last, size⟩ := ih after (by omega) others
      refine ⟨last, ?_⟩
      rw [size, counted, List.length_cons]
      omega

/-! ## Runs of the registry -/

/-- A call of the registry that changes its set. -/
inductive Call where
  | arm (permitted : Bool) (scripts : List (Option ArmRecord))
  | clear (outputEmpty : Bool)

def NativeConsoleDocumentStartRegistry.step (registry : NativeConsoleDocumentStartRegistry) :
    Call → NativeConsoleDocumentStartRegistry
  | .arm permitted scripts => (registry.arm permitted scripts).1
  | .clear outputEmpty => registry.clear outputEmpty

def NativeConsoleDocumentStartRegistry.run (calls : List Call) :
    NativeConsoleDocumentStartRegistry :=
  calls.foldl step {}

/-- The set of a registry is one that the decoder takes, or there is none. -/
structure Deliverable (registry : NativeConsoleDocumentStartRegistry) : Prop where
  whole : Whole registry.scripts
  few : registry.scripts.length ≤ kNativeConsoleDocumentStartScriptLimit

theorem Deliverable.step {registry : NativeConsoleDocumentStartRegistry}
    (kept : Deliverable registry) (call : Call) : Deliverable (registry.step call) := by
  cases call with
  | arm permitted scripts =>
      show Deliverable (registry.arm permitted scripts).1
      rw [NativeConsoleDocumentStartRegistry.arm]
      split
      · exact kept
      · split
        · exact kept
        · next fits =>
            rw [Bool.or_eq_true, not_or, decide_eq_true_eq, gt_iff_lt, not_lt] at fits
            have small : scripts.length ≤ 4 := fits.2
            split
            · exact ⟨kept.whole, kept.few⟩
            · next state accepted =>
                have start : Arming.Kept registry.nextScriptId
                    { nextScriptId := registry.nextScriptId } :=
                  ⟨whole_nil, rfl, rfl, (add_zero _).symm⟩
                obtain ⟨last, size⟩ := start.run scripts
                  (show 0 + scripts.length < 2 ^ 64 by omega) accepted
                exact ⟨last.whole, show state.next.length ≤ 4 by
                  rw [size]
                  exact (Nat.zero_add _).trans_le small⟩
  | clear outputEmpty =>
      show Deliverable (registry.clear outputEmpty)
      rw [NativeConsoleDocumentStartRegistry.clear]
      split
      · exact kept
      · exact ⟨whole_nil, Nat.zero_le _⟩

theorem deliverable_run (calls : List Call) :
    Deliverable (NativeConsoleDocumentStartRegistry.run calls) := by
  have start : Deliverable {} := ⟨whole_nil, Nat.zero_le _⟩
  rw [NativeConsoleDocumentStartRegistry.run]
  generalize ({} : NativeConsoleDocumentStartRegistry) = registry at start
  induction calls generalizing registry with
  | nil => exact start
  | cons call rest ih => exact ih _ (start.step call)

/-! ## What arrives -/

/-- The renderer reads every set that the registry encodes. -/
theorem armed_whole (calls : List Call) (storage : List NativeConsoleDocumentStartScript)
    (room : kNativeConsoleDocumentStartScriptLimit ≤ storage.length)
    (armed : (NativeConsoleDocumentStartRegistry.run calls).scripts ≠ []) :
    decodeNativeConsoleDocumentStartScripts
        (NativeConsoleDocumentStartRegistry.run calls).encoded storage
      = ((NativeConsoleDocumentStartRegistry.run calls).scripts.length,
        (NativeConsoleDocumentStartRegistry.run calls).scripts
          ++ storage.drop (NativeConsoleDocumentStartRegistry.run calls).scripts.length) := by
  have kept := deliverable_run calls
  generalize NativeConsoleDocumentStartRegistry.run calls = registry at armed kept ⊢
  have accepted := (encode_iff registry.scripts
    (List.replicate (kNativeConsoleDocumentStartScriptLimit * scriptLayout.width) 0)).2
      ⟨armed, kept.few, by
        rw [List.length_replicate]
        exact Nat.mul_le_mul_right _ kept.few, kept.whole.valid⟩
  rw [NativeConsoleDocumentStartRegistry.encoded, (encode_bytes accepted).2]
  exact decode_eq _ _ kept.few armed (kept.few.trans room) kept.whole

/-- A set that the encoder takes is decoded whole exactly when its ids are distinct and its
sources within the limit; otherwise nothing is. -/
theorem decode_encoded {scripts : List NativeConsoleDocumentStartScript} {out : List UInt8}
    (accepted : (encodeNativeConsoleDocumentStartScripts scripts out).1 ≠ 0)
    (storage : List NativeConsoleDocumentStartScript) (room : scripts.length ≤ storage.length) :
    decodeNativeConsoleDocumentStartScripts
        ((encodeNativeConsoleDocumentStartScripts scripts out).2.take
          (encodeNativeConsoleDocumentStartScripts scripts out).1) storage
      = (scripts.length, scripts ++ storage.drop scripts.length)
      ↔ (scripts.map (·.scriptId)).Nodup
        ∧ (scripts.map (·.sourceBytes.toNat)).sum ≤ kNativeConsoleDocumentStartTotalSourceLimit := by
  obtain ⟨nonempty, few, -, valid⟩ := (encode_iff scripts out).1 accepted
  rw [(encode_bytes accepted).2]
  constructor
  · intro reads
    have taken := (decode_iff scripts storage nonempty).1 (by
      rw [reads]
      exact (List.length_pos_iff.2 nonempty).ne')
    exact ⟨taken.2.2.distinct, taken.2.2.total⟩
  · rintro ⟨distinct, total⟩
    exact decode_eq _ _ few nonempty room ⟨valid, distinct, total⟩

theorem decode_refused {scripts : List NativeConsoleDocumentStartScript} {out : List UInt8}
    (accepted : (encodeNativeConsoleDocumentStartScripts scripts out).1 ≠ 0)
    (storage : List NativeConsoleDocumentStartScript)
    (broken : ¬ ((scripts.map (·.scriptId)).Nodup
      ∧ (scripts.map (·.sourceBytes.toNat)).sum ≤ kNativeConsoleDocumentStartTotalSourceLimit)) :
    (decodeNativeConsoleDocumentStartScripts
        ((encodeNativeConsoleDocumentStartScripts scripts out).2.take
          (encodeNativeConsoleDocumentStartScripts scripts out).1) storage).1 = 0 := by
  obtain ⟨nonempty, -⟩ := (encode_iff scripts out).1 accepted
  rw [(encode_bytes accepted).2]
  by_contra taken
  have whole := ((decode_iff scripts storage nonempty).1 taken).2.2
  exact broken ⟨whole.distinct, whole.total⟩

/-- What the decoder takes is a whole set, and is encoded back to the same bytes. -/
theorem encode_decoded {bytes : List UInt8} {storage : List NativeConsoleDocumentStartScript}
    (accepted : (decodeNativeConsoleDocumentStartScripts bytes storage).1 ≠ 0)
    {out : List UInt8} (room : bytes.length ≤ out.length) :
    ∃ scripts, decodeNativeConsoleDocumentStartScripts bytes storage
        = (scripts.length, scripts ++ storage.drop scripts.length)
      ∧ Whole scripts
      ∧ (encodeNativeConsoleDocumentStartScripts scripts out).1 = bytes.length
      ∧ (encodeNativeConsoleDocumentStartScripts scripts out).2.take bytes.length = bytes := by
  obtain ⟨scripts, nonempty, rfl⟩ := decode_bytes accepted
  obtain ⟨few, fits, whole⟩ := (decode_iff scripts storage nonempty).1 accepted
  have size := scriptLayout.length_flatMap_write scripts
  have taken := (encode_iff scripts out).2 ⟨nonempty, few, size ▸ room, whole.valid⟩
  obtain ⟨written, bytes⟩ := encode_bytes taken
  refine ⟨scripts, decode_eq _ _ few nonempty fits whole, whole, written.trans size.symm, ?_⟩
  rw [size, ← written, bytes]

/-- Script sets on the wire: the sets that the encoder takes are decoded whole or not at all,
those of the registry are decoded whole, and what is decoded is encoded back. -/
theorem scriptWire_exact :
    (∀ scripts out storage,
      (encodeNativeConsoleDocumentStartScripts scripts out).1 ≠ 0 →
      scripts.length ≤ storage.length →
      let bytes := (encodeNativeConsoleDocumentStartScripts scripts out).2.take
        (encodeNativeConsoleDocumentStartScripts scripts out).1
      if (scripts.map (·.scriptId)).Nodup ∧ (scripts.map (·.sourceBytes.toNat)).sum
          ≤ kNativeConsoleDocumentStartTotalSourceLimit then
        decodeNativeConsoleDocumentStartScripts bytes storage
          = (scripts.length, scripts ++ storage.drop scripts.length)
      else (decodeNativeConsoleDocumentStartScripts bytes storage).1 = 0)
    ∧ (∀ calls storage, kNativeConsoleDocumentStartScriptLimit ≤ storage.length →
      let registry := NativeConsoleDocumentStartRegistry.run calls
      registry.scripts ≠ [] →
      decodeNativeConsoleDocumentStartScripts registry.encoded storage
        = (registry.scripts.length, registry.scripts ++ storage.drop registry.scripts.length))
    ∧ ∀ bytes storage out, (decodeNativeConsoleDocumentStartScripts bytes storage).1 ≠ 0 →
      bytes.length ≤ out.length →
      ∃ scripts, decodeNativeConsoleDocumentStartScripts bytes storage
          = (scripts.length, scripts ++ storage.drop scripts.length)
        ∧ (∀ script ∈ scripts, isValidNativeConsoleDocumentStartScript script = true)
        ∧ (scripts.map (·.scriptId)).Nodup
        ∧ (scripts.map (·.sourceBytes.toNat)).sum ≤ kNativeConsoleDocumentStartTotalSourceLimit
        ∧ (encodeNativeConsoleDocumentStartScripts scripts out).1 = bytes.length
        ∧ (encodeNativeConsoleDocumentStartScripts scripts out).2.take bytes.length = bytes := by
  refine ⟨fun scripts out storage accepted room => ?_, fun calls storage room armed =>
    armed_whole calls storage room armed, fun bytes storage out accepted room => ?_⟩
  · dsimp only
    split
    · next whole => exact (decode_encoded accepted storage room).2 whole
    · next broken => exact decode_refused accepted storage broken
  · obtain ⟨scripts, reads, whole, size, same⟩ := encode_decoded accepted room
    exact ⟨scripts, reads, whole.valid, whole.distinct, whole.total, size, same⟩

/-! ## Two scripts of one id -/

def sampleScript : NativeConsoleDocumentStartScript :=
  armedScript 1 kNativeConsoleDocumentStartTopFrame (ascii "http://a") (ascii "x") none

theorem valid_sampleScript : isValidNativeConsoleDocumentStartScript sampleScript = true :=
  valid_armedScript (by decide) (.inl rfl) (by decide) (by decide) (by decide) (by decide)
    (by decide) (by decide +kernel) rfl (by decide +kernel)

def sampleBuffer : List UInt8 := List.replicate (2 * scriptLayout.width) 0

theorem encode_sample {scripts : List NativeConsoleDocumentStartScript}
    (samples : ∀ script ∈ scripts, script = sampleScript) (nonempty : scripts ≠ [])
    (few : scripts.length ≤ 2) :
    (encodeNativeConsoleDocumentStartScripts scripts sampleBuffer).1 ≠ 0 := by
  refine (encode_iff _ _).2 ⟨nonempty, few.trans (by decide), ?_, ?_⟩
  · rw [sampleBuffer, List.length_replicate]
    exact Nat.mul_le_mul_right _ few
  · intro script inside
    rw [samples script inside]
    exact valid_sampleScript

/-- One script arrives. -/
theorem scriptWire_exact_sample :
    decodeNativeConsoleDocumentStartScripts
        ((encodeNativeConsoleDocumentStartScripts [sampleScript] sampleBuffer).2.take
          (encodeNativeConsoleDocumentStartScripts [sampleScript] sampleBuffer).1) [{}, {}]
      = (1, [sampleScript, {}]) := by
  have arrives := scriptWire_exact.1 [sampleScript] sampleBuffer [{}, {}]
    (encode_sample (by simp) (by simp) (by decide)) (by decide)
  dsimp only at arrives
  rw [if_pos ⟨List.nodup_singleton _, by decide⟩] at arrives
  exact arrives

/-- The encoder takes two scripts of one id, and the decoder refuses them. -/
theorem scriptWire_as_stated :
    (encodeNativeConsoleDocumentStartScripts [sampleScript, sampleScript] sampleBuffer).1 ≠ 0
    ∧ (decodeNativeConsoleDocumentStartScripts
        ((encodeNativeConsoleDocumentStartScripts [sampleScript, sampleScript] sampleBuffer).2.take
          (encodeNativeConsoleDocumentStartScripts [sampleScript, sampleScript] sampleBuffer).1)
        [{}, {}]).1 = 0 := by
  have samples : ∀ script ∈ [sampleScript, sampleScript], script = sampleScript := by simp
  have accepted := encode_sample samples (by simp) (le_refl 2)
  refine ⟨accepted, decode_refused accepted _ fun whole => ?_⟩
  exact (List.nodup_cons.1 whole.1).1 (List.mem_singleton_self _)

end Reb.Console.ScriptSet
