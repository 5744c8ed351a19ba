/-
# Console.DocumentStartWire -- what the wire keeps of a script set

The encoder checks each script, the decoder also that the ids are distinct and the sources
together within the limit (`Whole`).  The encoder writes the records of what it accepts (`encode_bytes`); the decoder
accepts the records of a whole set, and reads that set (`decode_iff`, `decode_eq`).
-/
import Reb.Console.DocumentStartScripts
import Reb.Theory.Fallible

namespace Reb.Console.ScriptSet

open Theory Theory.Decimal

set_option autoImplicit false

/-- What the decoder asks of a set besides its size. -/
structure Whole (scripts : List NativeConsoleDocumentStartScript) : Prop where
  valid : ∀ script ∈ scripts, isValidNativeConsoleDocumentStartScript script = true
  distinct : (scripts.map (·.scriptId)).Nodup
  total : (scripts.map (·.sourceBytes.toNat)).sum ≤ kNativeConsoleDocumentStartTotalSourceLimit

theorem Whole.front {scripts others : List NativeConsoleDocumentStartScript}
    (whole : Whole (scripts ++ others)) : Whole scripts where
  valid script inside := whole.valid script (List.mem_append_left _ inside)
  distinct := by
    have distinct := whole.distinct
    rw [List.map_append] at distinct
    exact (List.nodup_append.1 distinct).1
  total := by
    have total := whole.total
    rw [List.map_append, List.sum_append] at total
    omega

theorem whole_snoc {scripts : List NativeConsoleDocumentStartScript}
    {script : NativeConsoleDocumentStartScript} :
    Whole (scripts ++ [script]) ↔ Whole scripts
      ∧ isValidNativeConsoleDocumentStartScript script = true
      ∧ script.scriptId ∉ scripts.map (·.scriptId)
      ∧ (scripts.map (·.sourceBytes.toNat)).sum + script.sourceBytes.toNat
        ≤ kNativeConsoleDocumentStartTotalSourceLimit := by
  constructor
  · intro whole
    have distinct := whole.distinct
    have total := whole.total
    rw [List.map_append, List.nodup_append] at distinct
    rw [List.map_append, List.sum_append, List.map_singleton, List.sum_singleton] at total
    exact ⟨whole.front, whole.valid script (by simp),
      fun inside => distinct.2.2 _ inside _ (List.mem_singleton_self _) rfl, total⟩
  · rintro ⟨whole, valid, fresh, total⟩
    constructor
    · intro other inside
      rcases List.mem_append.1 inside with before | here
      · exact whole.valid other before
      · rwa [List.mem_singleton.1 here]
    · rw [List.map_append, List.nodup_append]
      refine ⟨whole.distinct, List.nodup_singleton _, ?_⟩
      rintro other inside _ here rfl
      obtain rfl : other = script.scriptId := List.mem_singleton.1 here
      exact fresh inside
    · rw [List.map_append, List.sum_append, List.map_singleton, List.sum_singleton]
      exact total

/-! ## The encoder -/

theorem take_write (buffer part : List UInt8) (offset : Nat)
    (fits : offset + part.length ≤ buffer.length) :
    (LittleEndian.write buffer offset part).take (offset + part.length)
      = buffer.take offset ++ part := by
  have before := LittleEndian.window_write_apart part buffer offset 0 offset fits (.inl (by omega))
  have here := LittleEndian.window_write part buffer offset fits
  rw [LittleEndian.window, LittleEndian.window, List.drop_zero, List.drop_zero] at before
  rw [List.take_add, before]
  exact congrArg (buffer.take offset ++ ·) here

theorem encodeScript_iff (state next : Nat × List UInt8)
    (script : NativeConsoleDocumentStartScript) :
    encodeScript state script = .ok next
      ↔ isValidNativeConsoleDocumentStartScript script = true
        ∧ next = (state.1 + scriptLayout.width,
          LittleEndian.write state.2 state.1 (scriptLayout.write script)) := by
  rw [encodeScript]
  cases isValidNativeConsoleDocumentStartScript script with
  | false => simp
  | true =>
      rw [Bool.not_true, if_neg Bool.false_ne_true, Except.ok.injEq]
      constructor
      · rintro rfl
        exact ⟨rfl, rfl⟩
      · rintro ⟨-, rfl⟩
        rfl

theorem encode_rest (scripts : List NativeConsoleDocumentStartScript) {offset : Nat}
    {out : List UInt8} (room : offset + scripts.length * scriptLayout.width ≤ out.length)
    (state : Nat × List UInt8) (run : scripts.foldlM encodeScript (offset, out) = .ok state) :
    state.1 = offset + scripts.length * scriptLayout.width
      ∧ state.2.take state.1 = out.take offset ++ scripts.flatMap scriptLayout.write := by
  induction scripts generalizing offset out with
  | nil =>
      obtain rfl := Except.ok.inj run
      exact ⟨by simp, by simp⟩
  | cons script rest ih =>
      rw [List.foldlM_cons, Fallible.bind_eq_ok] at run
      obtain ⟨next, step, run⟩ := run
      obtain ⟨-, rfl⟩ := (encodeScript_iff _ _ _).1 step
      have size := scriptLayout.length_write script
      rw [List.length_cons, Nat.succ_mul] at room
      have written := take_write out (scriptLayout.write script) offset (by omega)
      have length := LittleEndian.length_write (scriptLayout.write script) out offset
      dsimp only at run
      obtain ⟨finish, bytes⟩ := ih (by omega) run
      constructor
      · rw [finish, List.length_cons, Nat.succ_mul]
        omega
      · rw [bytes, List.flatMap_cons, ← List.append_assoc, ← written, size]

theorem encode_valid (scripts : List NativeConsoleDocumentStartScript) (state : Nat × List UInt8) :
    (∃ after, scripts.foldlM encodeScript state = .ok after)
      ↔ ∀ script ∈ scripts, isValidNativeConsoleDocumentStartScript script = true := by
  induction scripts generalizing state with
  | nil => exact ⟨fun _ _ inside => absurd inside List.not_mem_nil, fun _ => ⟨state, rfl⟩⟩
  | cons script rest ih =>
      rw [List.forall_mem_cons]
      simp only [List.foldlM_cons, Fallible.bind_eq_ok, encodeScript_iff]
      constructor
      · rintro ⟨after, next, ⟨valid, -⟩, run⟩
        exact ⟨valid, (ih next).1 ⟨after, run⟩⟩
      · rintro ⟨valid, others⟩
        obtain ⟨after, run⟩ := (ih _).2 others
        exact ⟨after, _, ⟨valid, rfl⟩, run⟩

/-- When the encoder accepts a set. -/
theorem encode_iff (scripts : List NativeConsoleDocumentStartScript) (out : List UInt8) :
    (encodeNativeConsoleDocumentStartScripts scripts out).1 ≠ 0
      ↔ scripts ≠ [] ∧ scripts.length ≤ kNativeConsoleDocumentStartScriptLimit
        ∧ scripts.length * scriptLayout.width ≤ out.length
        ∧ ∀ script ∈ scripts, isValidNativeConsoleDocumentStartScript script = true := by
  have accepts := encode_valid scripts (0, out)
  rw [encodeNativeConsoleDocumentStartScripts]
  by_cases fits : scripts.length ≤ kNativeConsoleDocumentStartScriptLimit
      ∧ scripts.length * scriptLayout.width ≤ out.length
  · rw [if_neg (by simpa using fits)]
    simp only [fits, true_and]
    cases run : scripts.foldlM encodeScript (0, out) with
    | error left =>
        constructor
        · exact fun nonzero => absurd rfl nonzero
        · rintro ⟨-, valid⟩
          obtain ⟨after, accepted⟩ := accepts.2 valid
          rw [run] at accepted
          cases accepted
    | ok state =>
        have finish := (encode_rest scripts (by omega) state run).1
        rw [Nat.zero_add, width_scriptLayout] at finish
        have valid := accepts.1 ⟨state, run⟩
        rw [← List.length_pos_iff]
        show state.1 ≠ 0 ↔ _
        constructor
        · intro nonzero
          exact ⟨by omega, valid⟩
        · rintro ⟨nonempty, -⟩
          omega
  · have refused : (decide (scripts.length > kNativeConsoleDocumentStartScriptLimit)
        || decide (out.length < scripts.length * scriptLayout.width)) = true := by
      rw [Bool.or_eq_true, decide_eq_true_eq, decide_eq_true_eq]
      omega
    rw [if_pos refused]
    constructor
    · exact fun nonzero => absurd rfl nonzero
    · rintro ⟨-, few, room, -⟩
      exact absurd ⟨few, room⟩ fits

/-- What the encoder accepts it writes, record after record. -/
theorem encode_bytes {scripts : List NativeConsoleDocumentStartScript} {out : List UInt8}
    (accepted : (encodeNativeConsoleDocumentStartScripts scripts out).1 ≠ 0) :
    (encodeNativeConsoleDocumentStartScripts scripts out).1
        = scripts.length * scriptLayout.width
      ∧ (encodeNativeConsoleDocumentStartScripts scripts out).2.take
          (encodeNativeConsoleDocumentStartScripts scripts out).1
        = scripts.flatMap scriptLayout.write := by
  obtain ⟨-, few, room, valid⟩ := (encode_iff scripts out).1 accepted
  obtain ⟨state, run⟩ := (encode_valid scripts (0, out)).2 valid
  obtain ⟨finish, bytes⟩ := encode_rest scripts (by omega) state run
  have result : encodeNativeConsoleDocumentStartScripts scripts out = state := by
    rw [encodeNativeConsoleDocumentStartScripts, if_neg (by simpa using ⟨few, room⟩), run]
  rw [result]
  exact ⟨by omega, by simpa using bytes⟩

/-! ## The decoder -/

/-- The decoder after some scripts. -/
def decoded (out scripts : List NativeConsoleDocumentStartScript) : Decoding :=
  { index := scripts.length
    total := (scripts.map (·.sourceBytes.toNat)).sum
    out := scripts ++ out.drop scripts.length }

section Decoder

variable {out scripts : List NativeConsoleDocumentStartScript}

theorem decodeScript_iff (room : scripts.length < out.length) (whole : Whole scripts)
    (script : NativeConsoleDocumentStartScript) (next : Decoding) :
    decodeScript (decoded out scripts) script = .ok next
      ↔ Whole (scripts ++ [script]) ∧ next = decoded out (scripts ++ [script]) := by
  have stored : (scripts ++ out.drop scripts.length).set scripts.length script
      = (scripts ++ [script]) ++ out.drop (scripts ++ [script]).length := by
    rw [List.set_append_right _ _ (le_refl _), Nat.sub_self, List.drop_eq_getElem_cons room,
      List.set_cons_zero, List.length_append, List.length_singleton, List.append_assoc]
    rfl
  have state : ({ index := scripts.length + 1
                  total := (scripts.map (·.sourceBytes.toNat)).sum + script.sourceBytes.toNat
                  out := (scripts ++ out.drop scripts.length).set scripts.length script } :
      Decoding) = decoded out (scripts ++ [script]) := by
    rw [stored, decoded, List.length_append, List.length_singleton, List.map_append,
      List.sum_append, List.map_singleton, List.sum_singleton]
  have known : ((decoded out scripts).out.take (decoded out scripts).index).any
      (fun previous => previous.scriptId == script.scriptId) = true
        ↔ script.scriptId ∈ scripts.map (·.scriptId) := by
    rw [decoded, List.take_left, List.any_eq_true, List.mem_map]
    simp only [beq_iff_eq]
  rw [whole_snoc, decodeScript]
  by_cases valid : isValidNativeConsoleDocumentStartScript script = true
  · by_cases fresh : script.scriptId ∈ scripts.map (·.scriptId)
    · rw [valid, Bool.not_true, if_neg Bool.false_ne_true, if_pos (known.2 fresh)]
      constructor
      · intro impossible
        cases impossible
      · rintro ⟨⟨-, -, absent, -⟩, -⟩
        exact absurd fresh absent
    · rw [valid, Bool.not_true, if_neg Bool.false_ne_true,
        if_neg (fun found => fresh (known.1 found))]
      by_cases total : (scripts.map (·.sourceBytes.toNat)).sum + script.sourceBytes.toNat
          ≤ kNativeConsoleDocumentStartTotalSourceLimit
      · dsimp only [decoded]
        rw [if_neg (not_lt.2 total), Except.ok.injEq]
        constructor
        · rintro rfl
          exact ⟨⟨whole, rfl, fresh, total⟩, state⟩
        · rintro ⟨-, rfl⟩
          exact state
      · dsimp only [decoded]
        rw [if_pos (not_le.1 total)]
        constructor
        · intro impossible
          cases impossible
        · rintro ⟨⟨-, -, -, within⟩, -⟩
          exact absurd within total
  · rw [Bool.not_eq_true] at valid
    rw [valid, Bool.not_false, if_pos rfl]
    constructor
    · intro impossible
      cases impossible
    · rintro ⟨⟨-, impossible, -⟩, -⟩
      cases impossible

theorem decode_rest (whole : Whole scripts) (more : List NativeConsoleDocumentStartScript)
    (room : scripts.length + more.length ≤ out.length) (final : Decoding) :
    more.foldlM decodeScript (decoded out scripts) = .ok final
      ↔ Whole (scripts ++ more) ∧ final = decoded out (scripts ++ more) := by
  induction more generalizing scripts with
  | nil =>
      rw [List.append_nil]
      constructor
      · intro same
        exact ⟨whole, (Except.ok.inj same).symm⟩
      · rintro ⟨-, rfl⟩
        rfl
  | cons script rest ih =>
      rw [List.length_cons] at room
      rw [List.foldlM_cons, Fallible.bind_eq_ok, ← List.singleton_append, ← List.append_assoc]
      have space : scripts.length < out.length := by omega
      simp only [decodeScript_iff space whole]
      have longer : (scripts ++ [script]).length + rest.length ≤ out.length := by
        rw [List.length_append, List.length_singleton]
        omega
      constructor
      · rintro ⟨_, ⟨more, rfl⟩, run⟩
        exact (ih more longer).1 run
      · rintro ⟨all, rfl⟩
        exact ⟨_, ⟨all.front, rfl⟩, (ih all.front longer).2 ⟨all, rfl⟩⟩

theorem whole_nil : Whole [] where
  valid _ inside := absurd inside List.not_mem_nil
  distinct := List.nodup_nil
  total := Nat.zero_le _

theorem decoded_nil (out : List NativeConsoleDocumentStartScript) :
    decoded out [] = { out } := rfl

/-- What the decoder makes of the bytes of a set. -/
theorem decode_flatMap (scripts out : List NativeConsoleDocumentStartScript)
    (nonempty : scripts ≠ []) :
    decodeNativeConsoleDocumentStartScripts (scripts.flatMap scriptLayout.write) out
      = if scripts.length > kNativeConsoleDocumentStartScriptLimit
          || scripts.length > out.length then (0, out)
        else
          match scripts.foldlM decodeScript (decoded out []) with
          | .error out => (0, out)
          | .ok state => (scripts.length, state.out) := by
  have positive : 0 < scripts.length := List.length_pos_iff.2 nonempty
  have size := scriptLayout.length_flatMap_write scripts
  have width := width_scriptLayout
  have whole : ((scripts.flatMap scriptLayout.write).isEmpty
      || (scripts.flatMap scriptLayout.write).length % scriptLayout.width != 0) = false := by
    rw [Bool.or_eq_false_iff, size, Nat.mul_mod_left]
    refine ⟨?_, rfl⟩
    rw [List.isEmpty_eq_false_iff, ← List.length_pos_iff, size, width]
    omega
  rw [decodeNativeConsoleDocumentStartScripts, whole, if_neg Bool.false_ne_true]
  dsimp only
  rewrite [size, Nat.mul_div_cancel _ (by omega), scriptLayout.records_flatMap (by omega),
    decoded_nil]
  rfl

/-- The decoder takes the bytes of a set exactly when the set is whole and there is room. -/
theorem decode_iff (scripts out : List NativeConsoleDocumentStartScript) (nonempty : scripts ≠ []) :
    (decodeNativeConsoleDocumentStartScripts (scripts.flatMap scriptLayout.write) out).1 ≠ 0
      ↔ scripts.length ≤ kNativeConsoleDocumentStartScriptLimit ∧ scripts.length ≤ out.length
        ∧ Whole scripts := by
  rw [decode_flatMap scripts out nonempty]
  by_cases fits : scripts.length ≤ kNativeConsoleDocumentStartScriptLimit
      ∧ scripts.length ≤ out.length
  · have rest := decode_rest whole_nil scripts
      (show [].length + scripts.length ≤ out.length by simpa using fits.2)
    rw [if_neg (by simpa using fits)]
    simp only [fits, true_and]
    cases run : scripts.foldlM decodeScript (decoded out []) with
    | error left =>
        constructor
        · exact fun nonzero => absurd rfl nonzero
        · intro whole
          have accepted := (rest _).2 ⟨whole, rfl⟩
          rw [run] at accepted
          cases accepted
    | ok state =>
        have positive : scripts.length ≠ 0 := (List.length_pos_iff.2 nonempty).ne'
        exact ⟨fun _ => ((rest state).1 run).1, fun _ => positive⟩
  · have refused : (decide (scripts.length > kNativeConsoleDocumentStartScriptLimit)
        || decide (scripts.length > out.length)) = true := by
      rw [Bool.or_eq_true, decide_eq_true_eq, decide_eq_true_eq]
      omega
    rw [if_pos refused]
    constructor
    · exact fun nonzero => absurd rfl nonzero
    · rintro ⟨few, room, -⟩
      exact absurd ⟨few, room⟩ fits

theorem decode_eq (scripts out : List NativeConsoleDocumentStartScript)
    (few : scripts.length ≤ kNativeConsoleDocumentStartScriptLimit)
    (nonempty : scripts ≠ []) (room : scripts.length ≤ out.length) (whole : Whole scripts) :
    decodeNativeConsoleDocumentStartScripts (scripts.flatMap scriptLayout.write) out
      = (scripts.length, scripts ++ out.drop scripts.length) := by
  rw [decode_flatMap scripts out nonempty, if_neg (by simpa using ⟨few, room⟩)]
  rw [(decode_rest whole_nil scripts (by simpa using room) _).2 ⟨whole, rfl⟩]
  rfl

/-- Bytes that the decoder takes are those of a set. -/
theorem decode_bytes {bytes : List UInt8} {out : List NativeConsoleDocumentStartScript}
    (accepted : (decodeNativeConsoleDocumentStartScripts bytes out).1 ≠ 0) :
    ∃ scripts, scripts ≠ [] ∧ bytes = scripts.flatMap scriptLayout.write := by
  by_cases refused : (bytes.isEmpty || bytes.length % scriptLayout.width != 0) = true
  · rw [decodeNativeConsoleDocumentStartScripts, if_pos refused] at accepted
    exact absurd rfl accepted
  · rw [Bool.or_eq_true, List.isEmpty_iff, bne_iff_ne, not_or, not_not] at refused
    obtain ⟨nonempty, whole⟩ := refused
    obtain ⟨scripts, rfl⟩ := scriptLayout.exists_records (Nat.dvd_of_mod_eq_zero whole)
    refine ⟨scripts, ?_, rfl⟩
    rintro rfl
    exact nonempty rfl

end Decoder

end Reb.Console.ScriptSet
