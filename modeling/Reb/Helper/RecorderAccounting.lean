/-
# Helper.RecorderAccounting -- what a generation's counters and records say

Between two enablings a recorder is told apart from its journal: which calls were
attempts, which of them were recorded, and whether anything has closed it.  `Explains`
is that relation; one call keeps it (`Explains.use`), so a generation does.
-/
import Reb.Helper.UncheckedSteps

namespace Reb.Helper.Unchecked

set_option autoImplicit false

/-! ## Calls and their journal -/

/-- A call within a generation. -/
inductive Use where
  | disable
  | invalidateDocument
  | record (documentId generation now : UInt64) (step : VmStep)

inductive Call where
  | enable (scope : VmScope) (now : UInt64)
  | use (use : Use)

/-- A call within a generation and what it answered. -/
inductive Entry where
  | disable
  | invalidateDocument
  | record (documentId generation now : UInt64) (step : VmStep) (result : VmRecordResult)

namespace Recorder

def use (recorder : Recorder) : Use → Entry × Recorder
  | .disable => (.disable, recorder.disable)
  | .invalidateDocument => (.invalidateDocument, recorder.invalidateDocument)
  | .record documentId generation now step =>
      (.record documentId generation now step (recorder.record documentId generation now step).1,
        (recorder.record documentId generation now step).2)

def uses (recorder : Recorder) : List Use → List Entry × Recorder
  | [] => ([], recorder)
  | use :: rest =>
      ((recorder.use use).1 :: ((recorder.use use).2.uses rest).1,
        ((recorder.use use).2.uses rest).2)

def call (recorder : Recorder) : Call → Recorder
  | .enable scope now => (recorder.enable scope now).2
  | .use use => (recorder.use use).2

def run (recorder : Recorder) (calls : List Call) : Recorder := calls.foldl call recorder

theorem run_append (recorder : Recorder) (calls more : List Call) :
    recorder.run (calls ++ more) = (recorder.run calls).run more :=
  List.foldl_append

theorem run_uses (recorder : Recorder) (uses : List Use) :
    recorder.run (uses.map .use) = (recorder.uses uses).2 := by
  induction uses generalizing recorder with
  | nil => rfl
  | cons use rest ih => exact ih (recorder.use use).2

end Recorder

structure Attempt where
  now : UInt64
  step : VmStep
  result : VmRecordResult

/-- The calls that were counted as attempted. -/
def Entry.attempt? : Entry → Option Attempt
  | .record _ _ now step .recorded => some ⟨now, step, .recorded⟩
  | .record _ _ now step .malformed => some ⟨now, step, .malformed⟩
  | .record _ _ now step .full => some ⟨now, step, .full⟩
  | _ => none

/-- The calls after which nothing is recorded in this generation. -/
def Entry.closes : Entry → Bool
  | .disable | .invalidateDocument => true
  | .record _ _ _ _ result => result == .expired || result == .exhausted

def attempts (journal : List Entry) : List Attempt := journal.filterMap Entry.attempt?

/-- The recorded steps in call order, each under the number of its attempt. -/
def retained (journal : List Entry) : List VmRecordedStep :=
  ((attempts journal).zipIdx 1).filterMap fun attempt =>
    if attempt.1.result = .recorded then
      some ⟨.ofNat attempt.2, attempt.1.now, attempt.1.step⟩
    else none

section Journals

variable (journal : List Entry) {entry : Entry} {attempt : Attempt}

theorem attempts_snoc (made : entry.attempt? = some attempt) :
    attempts (journal ++ [entry]) = attempts journal ++ [attempt] := by
  simp [attempts, made]

theorem attempts_snoc_none (refused : entry.attempt? = none) :
    attempts (journal ++ [entry]) = attempts journal := by
  simp [attempts, refused]

theorem retained_snoc_none (refused : entry.attempt? = none) :
    retained (journal ++ [entry]) = retained journal := by
  rw [retained, attempts_snoc_none journal refused, retained]

theorem retained_snoc (made : entry.attempt? = some attempt) :
    retained (journal ++ [entry]) = retained journal
      ++ if attempt.result = .recorded then
        [⟨.ofNat ((attempts journal).length + 1), attempt.now, attempt.step⟩] else [] := by
  rw [retained, attempts_snoc journal made, List.zipIdx_append, List.filterMap_append, retained,
    Nat.add_comm 1]
  split
  · next recorded => simp [recorded]
  · next other => simp [other]

end Journals

/-! ## One call to `Record` -/

theorem advance?_isNone {counter : UInt64} :
    (advance? counter).isNone = true ↔ counter.toNat + 1 = 2 ^ 64 := by
  rw [advance?]
  split
  next last => simp [beq_iff_eq.1 last]
  next other =>
      have : counter.toNat ≠ 2 ^ 64 - 1 := fun same =>
        other (beq_iff_eq.2 (UInt64.toNat.inj (by rw [same]; rfl)))
      simp
      omega

theorem toNat_advance {counter : UInt64} (more : counter.toNat + 1 < 2 ^ 64) :
    (advance counter).toNat = counter.toNat + 1 := by
  have other : (counter == 0xffffffffffffffff) = false := by
    rw [beq_eq_false_iff_ne]
    rintro rfl
    simp at more
  rw [advance, advance?, other]
  simp [UInt64.toNat_add]
  omega

namespace Recorder

/-- A call that was not attempted moves the clock and the other counters only. -/
structure Refused (recorder later : Recorder) : Prop where
  records : later.records = recorder.records
  scope : later.scope = recorder.scope
  capacity : later.capacity = recorder.capacity
  generation : later.generation = recorder.generation
  attempted : later.stats.attempted = recorder.stats.attempted
  recorded : later.stats.recorded = recorder.stats.recorded
  malformed : later.stats.malformed = recorder.stats.malformed
  full : later.stats.full = recorder.stats.full
  lastTick : recorder.lastTick ≤ later.lastTick

/-- What lets a call be attempted. -/
structure Admits (recorder : Recorder) (documentId generation now : UInt64) : Prop where
  enabled : recorder.enabled = true
  generation : generation = recorder.generation
  document : documentId = recorder.scope.documentId
  unexpired : now < recorder.scope.expiresAt
  onward : recorder.lastTick ≤ now
  counted : recorder.stats.attempted.toNat + 1 < 2 ^ 64

/-- The attempts that have been told apart. -/
def accounted (recorder : Recorder) : Nat :=
  recorder.stats.recorded.toNat + recorder.stats.malformed.toNat + recorder.stats.full.toNat

/-- An attempt at `now`, whatever became of its step. -/
structure Attempted (recorder : Recorder) (now : UInt64) (later : Recorder) : Prop where
  scope : later.scope = recorder.scope
  capacity : later.capacity = recorder.capacity
  generation : later.generation = recorder.generation
  enabled : later.enabled = recorder.enabled
  attempted : later.stats.attempted = advance recorder.stats.attempted
  accounted : later.accounted = recorder.accounted + 1
  lastTick : later.lastTick = now

/-- The recorder once the call has been counted. -/
def counted (recorder : Recorder) (now : UInt64) : Recorder :=
  { recorder with
    lastTick := now
    stats := { recorder.stats with attempted := advance recorder.stats.attempted } }

variable (recorder : Recorder) (documentId generation now : UInt64) (step : VmStep)

/-- Everything a call can do. -/
theorem record_cases :
    (recorder.Admits documentId generation now
        ∧ recorder.record documentId generation now step = (recorder.counted now).keep now step)
      ∨ ((Entry.record documentId generation now step
            (recorder.record documentId generation now step).1).attempt? = none
          ∧ recorder.Refused (recorder.record documentId generation now step).2
          ∧ (recorder.record documentId generation now step).2.enabled
            = (recorder.enabled && !(Entry.record documentId generation now step
                (recorder.record documentId generation now step).1).closes)) := by
  rw [record]
  split
  next off =>
    exact .inr ⟨rfl, ⟨rfl, rfl, rfl, rfl, rfl, rfl, rfl, rfl, UInt64.le_refl _⟩, by simp [Entry.closes]⟩
  next enabled =>
  split
  next stale =>
    exact .inr ⟨rfl, ⟨rfl, rfl, rfl, rfl, rfl, rfl, rfl, rfl, UInt64.le_refl _⟩, by simp [Entry.closes]⟩
  next generation =>
  split
  next wrong =>
    exact .inr ⟨rfl, ⟨rfl, rfl, rfl, rfl, rfl, rfl, rfl, rfl, UInt64.le_refl _⟩, by simp [Entry.closes]⟩
  next document =>
  split
  next expired =>
    exact .inr ⟨rfl, ⟨rfl, rfl, rfl, rfl, rfl, rfl, rfl, rfl, UInt64.le_refl _⟩, by simp [Entry.closes]⟩
  next live =>
  simp only [ge_iff_le, Bool.or_eq_true, decide_eq_true_eq, not_or, UInt64.not_le,
    UInt64.not_lt] at live
  split
  next exhausted =>
    exact .inr ⟨rfl, ⟨rfl, rfl, rfl, rfl, rfl, rfl, rfl, rfl, live.2⟩, by simp [Entry.closes]⟩
  next more =>
    refine .inl ⟨⟨by simpa using enabled, by simpa using generation, by simpa using document,
      live.1, live.2, ?_⟩, rfl⟩
    have := recorder.stats.attempted.toNat_lt
    rw [advance?_isNone] at more
    omega

/-- An attempt has one of three results, and only one of them keeps the step. -/
theorem keep_cases (room : recorder.accounted + 1 < 2 ^ 64) :
    recorder.Attempted now ((recorder.counted now).keep now step).2
      ∧ ((((recorder.counted now).keep now step).1 = .malformed
          ∨ ((recorder.counted now).keep now step).1 = .full)
          ∧ ((recorder.counted now).keep now step).2.records = recorder.records
        ∨ ((recorder.counted now).keep now step).1 = .recorded ∧ step.valid = true
          ∧ recorder.records.length ≠ recorder.capacity
          ∧ ((recorder.counted now).keep now step).2.records
            = recorder.records ++ [⟨advance recorder.stats.attempted, now, step⟩]) := by
  rw [accounted] at room
  rw [keep]
  split
  next broken =>
    have more : (advance recorder.stats.malformed).toNat = recorder.stats.malformed.toNat + 1 :=
      toNat_advance (by omega)
    refine ⟨⟨rfl, rfl, rfl, rfl, rfl, ?_, rfl⟩, .inl ⟨.inl rfl, rfl⟩⟩
    simp only [accounted, counted, more]
    omega
  next valid =>
  split
  next full =>
    have more : (advance recorder.stats.full).toNat = recorder.stats.full.toNat + 1 :=
      toNat_advance (by omega)
    refine ⟨⟨rfl, rfl, rfl, rfl, rfl, ?_, rfl⟩, .inl ⟨.inr rfl, rfl⟩⟩
    simp only [accounted, counted, more]
    omega
  next free =>
    have more : (advance recorder.stats.recorded).toNat = recorder.stats.recorded.toNat + 1 :=
      toNat_advance (by omega)
    refine ⟨⟨rfl, rfl, rfl, rfl, rfl, ?_, rfl⟩, .inr ⟨rfl, by simpa using valid, ?_, rfl⟩⟩
    · simp only [accounted, counted, more]
      omega
    · simpa [counted] using free

end Recorder

/-! ## A generation -/

/-- The recorder is what its journal makes of the recorder the generation started with. -/
structure Explains (start : Recorder) (journal : List Entry) (recorder : Recorder) : Prop where
  scope : recorder.scope = start.scope
  capacity : recorder.capacity = start.capacity
  generation : recorder.generation = start.generation
  attempted : recorder.stats.attempted.toNat = (attempts journal).length
  accounted : recorder.stats.attempted.toNat = recorder.accounted
  records : recorder.records = retained journal
  fits : recorder.records.length ≤ recorder.capacity
  valid : ∀ kept ∈ recorder.records, kept.step.valid = true
  within : ∀ kept ∈ recorder.records, start.lastTick ≤ kept.tick ∧ kept.tick < start.scope.expiresAt
  numbered : ∀ kept ∈ recorder.records, kept.sequence ≤ recorder.stats.attempted
  increasing : recorder.records.Pairwise (·.sequence < ·.sequence)
  past : ∀ kept ∈ recorder.records, kept.tick ≤ recorder.lastTick
  onward : recorder.records.Pairwise (·.tick ≤ ·.tick)
  started : start.lastTick ≤ recorder.lastTick
  ticked : ∀ attempt ∈ attempts journal, attempt.now ≤ recorder.lastTick
  enabled : recorder.enabled = (start.enabled && journal.all fun entry => !entry.closes)

namespace Explains

variable {start recorder : Recorder} {journal : List Entry}

theorem begin (empty : start.records = []) (fresh : start.stats = {}) :
    Explains start [] start := by
  constructor
  · rfl
  · rfl
  · rfl
  · rw [fresh]
    rfl
  · rw [Recorder.accounted, fresh]
    rfl
  · exact empty
  · simp [empty]
  · simp [empty]
  · simp [empty]
  · simp [empty]
  · simp [empty]
  · simp [empty]
  · simp [empty]
  · exact UInt64.le_refl _
  · simp [attempts]
  · simp

/-- A call that was not attempted. -/
theorem refused (explains : Explains start journal recorder) {entry : Entry} {later : Recorder}
    (none : entry.attempt? = none) (refused : recorder.Refused later)
    (enabled : later.enabled = (recorder.enabled && !entry.closes)) :
    Explains start (journal ++ [entry]) later := by
  constructor
  · rw [refused.scope, explains.scope]
  · rw [refused.capacity, explains.capacity]
  · rw [refused.generation, explains.generation]
  · rw [refused.attempted, attempts_snoc_none journal none, explains.attempted]
  · rw [refused.attempted, explains.accounted, Recorder.accounted, Recorder.accounted,
      refused.recorded, refused.malformed, refused.full]
  · rw [refused.records, retained_snoc_none journal none, explains.records]
  · rw [refused.records, refused.capacity]
    exact explains.fits
  · rw [refused.records]
    exact explains.valid
  · rw [refused.records]
    exact explains.within
  · rw [refused.records, refused.attempted]
    exact explains.numbered
  · rw [refused.records]
    exact explains.increasing
  · rw [refused.records]
    exact fun kept member => UInt64.le_trans (explains.past kept member) refused.lastTick
  · rw [refused.records]
    exact explains.onward
  · exact UInt64.le_trans explains.started refused.lastTick
  · rw [attempts_snoc_none journal none]
    exact fun attempt member => UInt64.le_trans (explains.ticked attempt member) refused.lastTick
  · rw [enabled, explains.enabled, List.all_append, Bool.and_assoc]
    simp

/-- An attempt that kept nothing. -/
theorem unkept (explains : Explains start journal recorder) {entry : Entry} {attempt : Attempt}
    {documentId generation : UInt64} {later : Recorder}
    (made : entry.attempt? = some attempt)
    (admits : recorder.Admits documentId generation attempt.now) (other : attempt.result ≠ .recorded)
    (goesOn : entry.closes = false) (attempted : recorder.Attempted attempt.now later)
    (same : later.records = recorder.records) :
    Explains start (journal ++ [entry]) later := by
  have counted : later.stats.attempted.toNat = recorder.stats.attempted.toNat + 1 := by
    rw [attempted.attempted, toNat_advance admits.counted]
  have onward : recorder.lastTick ≤ later.lastTick := attempted.lastTick ▸ admits.onward
  constructor
  · rw [attempted.scope, explains.scope]
  · rw [attempted.capacity, explains.capacity]
  · rw [attempted.generation, explains.generation]
  · rw [counted, attempts_snoc journal made, List.length_append, explains.attempted]
    rfl
  · rw [counted, attempted.accounted, explains.accounted]
  · rw [same, retained_snoc journal made, if_neg other, List.append_nil, explains.records]
  · rw [same, attempted.capacity]
    exact explains.fits
  · rw [same]
    exact explains.valid
  · rw [same]
    exact explains.within
  · rw [same]
    intro kept member
    have := UInt64.le_iff_toNat_le.1 (explains.numbered kept member)
    rw [UInt64.le_iff_toNat_le, counted]
    omega
  · rw [same]
    exact explains.increasing
  · rw [same]
    exact fun kept member => UInt64.le_trans (explains.past kept member) onward
  · rw [same]
    exact explains.onward
  · exact UInt64.le_trans explains.started onward
  · rw [attempts_snoc journal made]
    intro before member
    rcases List.mem_append.1 member with earlier | last
    · exact UInt64.le_trans (explains.ticked before earlier) onward
    · rw [List.mem_singleton.1 last, attempted.lastTick]
      exact UInt64.le_refl _
  · rw [attempted.enabled, explains.enabled, List.all_append]
    simp [goesOn]

/-- An attempt whose step was kept. -/
theorem kept (explains : Explains start journal recorder) {entry : Entry} {attempt : Attempt}
    {documentId generation : UInt64} {later : Recorder}
    (made : entry.attempt? = some attempt)
    (admits : recorder.Admits documentId generation attempt.now) (recorded : attempt.result = .recorded)
    (goesOn : entry.closes = false) (attempted : recorder.Attempted attempt.now later)
    (valid : attempt.step.valid = true) (free : recorder.records.length ≠ recorder.capacity)
    (more : later.records
      = recorder.records ++ [⟨later.stats.attempted, attempt.now, attempt.step⟩]) :
    Explains start (journal ++ [entry]) later := by
  have counted : later.stats.attempted.toNat = recorder.stats.attempted.toNat + 1 := by
    rw [attempted.attempted, toNat_advance admits.counted]
  have onward : recorder.lastTick ≤ later.lastTick := attempted.lastTick ▸ admits.onward
  have number : UInt64.ofNat ((attempts journal).length + 1) = later.stats.attempted := by
    rw [← explains.attempted, ← counted, UInt64.ofNat_toNat]
  have below : ∀ kept ∈ recorder.records, kept.sequence < later.stats.attempted := by
    intro kept member
    have := UInt64.le_iff_toNat_le.1 (explains.numbered kept member)
    rw [UInt64.lt_iff_toNat_lt, counted]
    omega
  constructor
  · rw [attempted.scope, explains.scope]
  · rw [attempted.capacity, explains.capacity]
  · rw [attempted.generation, explains.generation]
  · rw [counted, attempts_snoc journal made, List.length_append, explains.attempted]
    rfl
  · rw [counted, attempted.accounted, explains.accounted]
  · rw [more, retained_snoc journal made, if_pos recorded, explains.records, number]
  · have := explains.fits
    rw [more, attempted.capacity, List.length_append, List.length_singleton]
    omega
  · rw [more]
    exact List.forall_mem_append.2 ⟨explains.valid, by simpa using valid⟩
  · rw [more]
    refine List.forall_mem_append.2 ⟨explains.within, ?_⟩
    simpa using ⟨UInt64.le_trans explains.started admits.onward,
      explains.scope ▸ admits.unexpired⟩
  · rw [more]
    exact List.forall_mem_append.2 ⟨fun kept member => UInt64.le_of_lt (below kept member), by simp⟩
  · rw [more]
    exact List.pairwise_append.2 ⟨explains.increasing, List.pairwise_singleton _ _,
      by simpa using below⟩
  · rw [more, attempted.lastTick]
    refine List.forall_mem_append.2 ⟨fun kept member => ?_, by simp⟩
    exact UInt64.le_trans (explains.past kept member) admits.onward
  · rw [more]
    refine List.pairwise_append.2 ⟨explains.onward, List.pairwise_singleton _ _, ?_⟩
    simpa using fun kept member => UInt64.le_trans (explains.past kept member) admits.onward
  · exact UInt64.le_trans explains.started onward
  · rw [attempts_snoc journal made]
    intro before member
    rcases List.mem_append.1 member with earlier | last
    · exact UInt64.le_trans (explains.ticked before earlier) onward
    · rw [List.mem_singleton.1 last, attempted.lastTick]
      exact UInt64.le_refl _
  · rw [attempted.enabled, explains.enabled, List.all_append]
    simp [goesOn]

/-- One call within the generation. -/
theorem use (explains : Explains start journal recorder) (use : Use) :
    Explains start (journal ++ [(recorder.use use).1]) (recorder.use use).2 := by
  cases use with
  | disable =>
      exact explains.refused rfl ⟨rfl, rfl, rfl, rfl, rfl, rfl, rfl, rfl, UInt64.le_refl _⟩
        (Bool.and_false _).symm
  | invalidateDocument =>
      exact explains.refused rfl ⟨rfl, rfl, rfl, rfl, rfl, rfl, rfl, rfl, UInt64.le_refl _⟩
        (Bool.and_false _).symm
  | record documentId generation now step =>
      obtain ⟨admits, result⟩ | ⟨none, refused, enabled⟩ :=
        recorder.record_cases documentId generation now step
      · have room : recorder.accounted + 1 < 2 ^ 64 := explains.accounted ▸ admits.counted
        obtain ⟨attempted, ⟨broken | full, same⟩ | ⟨recorded, valid, free, more⟩⟩ :=
          recorder.keep_cases now step room
        · rw [← result] at attempted broken same
          have made : (recorder.use (.record documentId generation now step)).1.attempt?
              = some ⟨now, step, .malformed⟩ := by
            rw [Recorder.use, broken]
            rfl
          exact explains.unkept made admits (by simp) (by rw [Recorder.use, broken]; rfl)
            attempted same
        · rw [← result] at attempted full same
          have made : (recorder.use (.record documentId generation now step)).1.attempt?
              = some ⟨now, step, .full⟩ := by
            rw [Recorder.use, full]
            rfl
          exact explains.unkept made admits (by simp) (by rw [Recorder.use, full]; rfl)
            attempted same
        · rw [← attempted.attempted] at more
          rw [← result] at attempted recorded more
          have made : (recorder.use (.record documentId generation now step)).1.attempt?
              = some ⟨now, step, .recorded⟩ := by
            rw [Recorder.use, recorded]
            rfl
          exact explains.kept made admits rfl (by rw [Recorder.use, recorded]; rfl) attempted
            valid free more
      · exact explains.refused none refused enabled

/-- Every call within the generation. -/
theorem uses (explains : Explains start journal recorder) (uses : List Use) :
    Explains start (journal ++ (recorder.uses uses).1) (recorder.uses uses).2 := by
  induction uses generalizing journal recorder with
  | nil =>
      rw [Recorder.uses, List.append_nil]
      exact explains
  | cons use rest ih =>
      have later := ih (explains.use use)
      rwa [List.append_assoc] at later

end Explains

/-! ## Runs -/

namespace Recorder

theorem record_generation (recorder : Recorder) (documentId generation now : UInt64)
    (step : VmStep) :
    (recorder.record documentId generation now step).2.generation = recorder.generation
      ∧ (recorder.record documentId generation now step).2.capacity = recorder.capacity := by
  simp only [record, keep]
  split_ifs
  all_goals exact ⟨rfl, rfl⟩

/-- What a call does not record leaves the retained records as they were. -/
theorem record_unchanged (recorder : Recorder) (documentId generation now : UInt64) (step : VmStep)
    (refused : (recorder.record documentId generation now step).1 ≠ .recorded) :
    (recorder.record documentId generation now step).2.records = recorder.records := by
  revert refused
  simp only [record, keep]
  split_ifs
  all_goals simp

theorem use_generation (recorder : Recorder) (use : Use) :
    (recorder.use use).2.generation = recorder.generation
      ∧ (recorder.use use).2.capacity = recorder.capacity := by
  cases use with
  | disable => exact ⟨rfl, rfl⟩
  | invalidateDocument => exact ⟨rfl, rfl⟩
  | record documentId generation now step =>
      exact recorder.record_generation documentId generation now step

theorem le_advance (counter : UInt64) : counter.toNat ≤ (advance counter).toNat := by
  by_cases more : counter.toNat + 1 < 2 ^ 64
  · rw [toNat_advance more]
    omega
  · have last : (advance? counter).isNone = true := by
      have := counter.toNat_lt
      rw [advance?_isNone]
      omega
    rw [advance, Option.isNone_iff_eq_none.1 last]
    rfl

theorem enable_fields (recorder : Recorder) (scope : VmScope) (now : UInt64) :
    (recorder.enable scope now).2.records = [] ∧ (recorder.enable scope now).2.stats = {}
      ∧ (recorder.enable scope now).2.lastTick = now
      ∧ (recorder.enable scope now).2.capacity = recorder.capacity
      ∧ (recorder.enable scope now).2.generation = advance recorder.generation
      ∧ (recorder.enable scope now).2.enabled = (recorder.enable scope now).1 := by
  rw [enable]
  split_ifs
  all_goals exact ⟨rfl, rfl, rfl, rfl, rfl, rfl⟩

/-- A scope that was not taken on expires at once. -/
theorem enable_scope (recorder : Recorder) (scope : VmScope) (now : UInt64) :
    ((recorder.enable scope now).1 = true ∧ (recorder.enable scope now).2.scope = scope
        ∧ recorder.generation.toNat + 1 < 2 ^ 64)
      ∨ (recorder.enable scope now).2.scope = {} := by
  have := recorder.generation.toNat_lt
  rw [enable]
  split
  next => exact .inr rfl
  next more =>
  rw [advance?_isNone] at more
  split
  next => exact .inr rfl
  next => exact .inl ⟨rfl, rfl, by omega⟩

theorem call_generation (recorder : Recorder) (call : Call) :
    recorder.generation.toNat ≤ (recorder.call call).generation.toNat
      ∧ (recorder.call call).capacity = recorder.capacity := by
  cases call with
  | enable scope now =>
      obtain ⟨-, -, -, capacity, generation, -⟩ := recorder.enable_fields scope now
      exact ⟨by rw [call, generation]; exact le_advance _, capacity⟩
  | use use =>
      obtain ⟨generation, capacity⟩ := recorder.use_generation use
      exact ⟨by rw [call, generation], capacity⟩

theorem run_generation (recorder : Recorder) (calls : List Call) :
    recorder.generation.toNat ≤ (recorder.run calls).generation.toNat
      ∧ (recorder.run calls).capacity = recorder.capacity := by
  induction calls generalizing recorder with
  | nil => exact ⟨le_rfl, rfl⟩
  | cons call rest ih =>
      obtain ⟨onward, capacity⟩ := recorder.call_generation call
      obtain ⟨later, same⟩ := ih (recorder.call call)
      exact ⟨onward.trans later, same.trans capacity⟩

/-- Where a generation's entry was made. -/
theorem uses_split {recorder : Recorder} {uses : List Use} {past rest : List Entry} {entry : Entry}
    (journal : (recorder.uses uses).1 = past ++ entry :: rest) :
    ∃ before use, (recorder.uses before).1 = past
      ∧ ((recorder.uses before).2.use use).1 = entry := by
  induction uses generalizing recorder past with
  | nil => simp [Recorder.uses] at journal
  | cons use later ih =>
      cases past with
      | nil => exact ⟨[], use, rfl, (List.cons.inj journal).1⟩
      | cons first past =>
          obtain ⟨same, others⟩ := List.cons.inj journal
          obtain ⟨before, next, made, entry⟩ := ih others
          exact ⟨use :: before, next, by rw [Recorder.uses, made]; exact congrArg (· :: past) same,
            entry⟩

/-- A recorder that has not been enabled answers every call with `disabled`. -/
theorem uses_of_disabled {recorder : Recorder} (off : recorder.enabled = false) (uses : List Use) :
    (recorder.uses uses).2 = recorder := by
  have still : ∀ use, (recorder.use use).2 = recorder := by
    intro use
    cases use with
    | disable => rw [Recorder.use, disable, ← off]
    | invalidateDocument => rw [Recorder.use, invalidateDocument, disable, ← off]
    | record documentId generation now step => rw [Recorder.use, record, if_pos (by simp [off])]
  induction uses with
  | nil => rfl
  | cons use rest ih => rw [Recorder.uses, still use, ih]

end Recorder

/-- What a generation starts from. -/
theorem Explains.enabled_begin (recorder : Recorder) (scope : VmScope) (now : UInt64) :
    Explains (recorder.enable scope now).2 [] (recorder.enable scope now).2 := by
  obtain ⟨empty, fresh, -⟩ := recorder.enable_fields scope now
  exact begin empty fresh

/-- A step is recorded only for the enabled document and generation, in time, on a clock
that does not run back, and before anything has closed the generation. -/
theorem recorded_only {prior : Recorder} {scope : VmScope} {enabledAt : UInt64} {uses : List Use}
    {past rest : List Entry} {documentId generation now : UInt64} {step : VmStep}
    (journal : ((prior.enable scope enabledAt).2.uses uses).1
      = past ++ .record documentId generation now step .recorded :: rest) :
    (prior.enable scope enabledAt).1 = true ∧ documentId = scope.documentId
      ∧ generation.toNat = prior.generation.toNat + 1
      ∧ enabledAt ≤ now ∧ now < scope.expiresAt
      ∧ (∀ attempt ∈ attempts past, attempt.now ≤ now)
      ∧ ∀ entry ∈ past, entry.closes = false := by
  obtain ⟨-, -, clock, -, advanced, -⟩ := prior.enable_fields scope enabledAt
  obtain ⟨before, use, rfl, made⟩ := Recorder.uses_split journal
  have explains := (Explains.enabled_begin prior scope enabledAt).uses before
  rw [List.nil_append] at explains
  cases use with
  | disable => cases made
  | invalidateDocument => cases made
  | record document token tick given =>
      simp only [Recorder.use, Entry.record.injEq] at made
      obtain ⟨rfl, rfl, rfl, rfl, result⟩ := made
      obtain ⟨admits, -⟩ | ⟨none, -⟩ := Recorder.record_cases
        ((prior.enable scope enabledAt).2.uses before).2 document token tick given
      · have enabled := explains.enabled
        rw [admits.enabled, eq_comm, Bool.and_eq_true, List.all_eq_true] at enabled
        have unexpired := admits.unexpired
        have since := explains.started
        rw [explains.scope] at unexpired
        rw [clock] at since
        obtain ⟨taken, same, more⟩ | dropped := prior.enable_scope scope enabledAt
        · refine ⟨taken, ?_, ?_, ?_, same ▸ unexpired, ?_, ?_⟩
          · rw [admits.document, explains.scope, same]
          · rw [admits.generation, explains.generation, advanced, toNat_advance more]
          · exact UInt64.le_trans since admits.onward
          · exact fun attempt member =>
              UInt64.le_trans (explains.ticked attempt member) admits.onward
          · exact fun entry member => by simpa using enabled.2 entry member
        · rw [dropped] at unexpired
          exact absurd (UInt64.lt_iff_toNat_lt.1 unexpired) (Nat.not_lt_zero _)
      · rw [result] at none
        cases none

/-- A recorder's counters, records and refusals in every generation of every run, and
before the first. -/
theorem recorder_accounting (capacity : Nat) (before : List Call) (scope : VmScope)
    (now : UInt64) (uses : List Use) :
    let prior := (Recorder.new capacity).run before
    let start := prior.enable scope now
    let journal := (start.2.uses uses).1
    let recorder := (Recorder.new capacity).run (before ++ .enable scope now :: uses.map .use)
    ((Recorder.new capacity).uses uses).2 = Recorder.new capacity
      ∧ recorder = (start.2.uses uses).2
      ∧ recorder.stats.attempted.toNat = recorder.stats.recorded.toNat
        + recorder.stats.malformed.toNat + recorder.stats.full.toNat
      ∧ recorder.stats.attempted.toNat = (attempts journal).length
      ∧ recorder.records = retained journal
      ∧ recorder.records.length ≤ min capacity kNativeVmRecords
      ∧ (∀ kept ∈ recorder.records,
        kept.step.valid = true ∧ now ≤ kept.tick ∧ kept.tick < scope.expiresAt)
      ∧ recorder.records.Pairwise (·.sequence < ·.sequence)
      ∧ recorder.records.Pairwise (·.tick ≤ ·.tick)
      ∧ (∀ past documentId generation tick step rest,
        journal = past ++ .record documentId generation tick step .recorded :: rest →
          start.1 = true ∧ documentId = scope.documentId
          ∧ (∀ earlier later, before = earlier ++ later →
            ((Recorder.new capacity).run earlier).generation < generation)
          ∧ now ≤ tick ∧ tick < scope.expiresAt
          ∧ (∀ attempt ∈ attempts past, attempt.now ≤ tick)
          ∧ ∀ entry ∈ past, entry.closes = false)
      ∧ ∀ documentId generation tick step,
        (recorder.record documentId generation tick step).1 ≠ .recorded →
          (recorder.record documentId generation tick step).2.records = recorder.records := by
  intro prior start journal recorder
  have final : recorder = (start.2.uses uses).2 := by
    simp only [recorder, Recorder.run_append]
    exact Recorder.run_uses start.2 uses
  have explains : Explains start.2 journal recorder := by
    have run := (Explains.enabled_begin prior scope now).uses uses
    rwa [List.nil_append, ← final] at run
  obtain ⟨-, -, tick, bound, -, -⟩ := prior.enable_fields scope now
  have unbounded : prior.capacity = min capacity kNativeVmRecords := by
    rw [((Recorder.new capacity).run_generation before).2, Recorder.new]
    split
    next small => exact (Nat.min_eq_left small).symm
    next large => exact (Nat.min_eq_right (Nat.le_of_not_le large)).symm
  have within : ∀ kept ∈ recorder.records,
      kept.step.valid = true ∧ now ≤ kept.tick ∧ kept.tick < scope.expiresAt := by
    intro kept member
    obtain ⟨since, until_⟩ := explains.within kept member
    refine ⟨explains.valid kept member, tick ▸ since, ?_⟩
    obtain ⟨-, same, -⟩ | dropped := prior.enable_scope scope now
    · exact same ▸ until_
    · rw [dropped] at until_
      exact absurd (UInt64.lt_iff_toNat_lt.1 until_) (Nat.not_lt_zero _)
  refine ⟨Recorder.uses_of_disabled rfl uses, final, explains.accounted, explains.attempted,
    explains.records, ?_, within, explains.increasing, explains.onward, ?_, ?_⟩
  · rw [← unbounded, ← bound, ← explains.capacity]
    exact explains.fits
  · intro past documentId generation tick step rest entries
    obtain ⟨taken, document, token, since, unexpired, ordered, opened⟩ := recorded_only entries
    refine ⟨taken, document, ?_, since, unexpired, ordered, opened⟩
    rintro earlier later rfl
    have onward := ((Recorder.new capacity).run earlier).run_generation later
    rw [← Recorder.run_append] at onward
    rw [UInt64.lt_iff_toNat_lt, token]
    exact Nat.lt_succ_of_le onward.1
  · exact recorder.record_unchanged

end Reb.Helper.Unchecked
