/-
# Helper.AcceptedReplies -- the backend believes every reply of the real helper

Two state machines meet: the helper's fixture and recorder, and the backend's
view of a run.  There are twenty fixture states, so what the two programs say of
each is evaluated (`fixtureAt_sound`); the clock readings and the identifiers
are arbitrary.  `OwnerAt` and `TraceAt` say where both sides stand after so many
instructions, every answered frame keeps them (`Serving.serve`), and so every
reply of a run is accepted against the view accumulated from the replies before
it (`replies_accepted`).
-/
import Reb.Helper.ControlPayload
import Reb.Helper.ExecuteOnce

namespace Reb.Helper

set_option autoImplicit false

open Reb.Theory
open Reb.Debugger (NativeView RecorderStats SpawnSpec Trace validateNative)

/-! ## The reachable fixtures -/

namespace OwnedVmFixture

/-- The fixture after the instruction it is at. -/
def advanced (fixture : OwnedVmFixture) : OwnedVmFixture :=
  match fixture.next with
  | none => fixture
  | some (next, _, pc) =>
      { fixture with state := { next with pc }, executedCount := fixture.executedCount + 1 }

/-- What is recorded of the instruction it is at. -/
def transition (fixture : OwnedVmFixture) : VmStep :=
  match fixture.next with
  | none => {}
  | some (next, step, pc) => { step with after := { next with pc } }

theorem executeOne_running {fixture : OwnedVmFixture} (within : fixture.executedCount < 16)
    (valid : fixture.validState = true) (running : fixture.state.halted = false)
    (more : fixture.next.isSome = true) (recorder : NativeVmRecorder)
    (documentId generation now : UInt64) :
    fixture.executeOne recorder documentId generation now =
      let (recorderResult, recorder) :=
        recorder.record documentId generation now fixture.transition
      ({ status := .committed, recorderResult }, fixture.advanced, recorder) := by
  obtain ⟨⟨next, step, pc⟩, dispatch⟩ := Option.isSome_iff_exists.1 more
  have budget : ¬ fixture.executedCount ≥ ownedVmDispatchBudget := UInt64.not_le.2 within
  rw [executeOne, if_neg budget, valid, running, transition, advanced, dispatch]
  rfl

theorem executeOne_halted {fixture : OwnedVmFixture} (within : fixture.executedCount < 16)
    (valid : fixture.validState = true) (halted : fixture.state.halted = true)
    (recorder : NativeVmRecorder) (documentId generation now : UInt64) :
    fixture.executeOne recorder documentId generation now
      = ({ status := .halted }, fixture, recorder) := by
  have budget : ¬ fixture.executedCount ≥ ownedVmDispatchBudget := UInt64.not_le.2 within
  rw [executeOne, if_neg budget, valid, halted]
  rfl

theorem executeOne_eq_halted {fixture fixture' : OwnedVmFixture}
    {recorder recorder' : NativeVmRecorder} {documentId generation now : UInt64}
    {result : OwnedVmExecuteResult}
    (runs : fixture.executeOne recorder documentId generation now = (result, fixture', recorder'))
    (halts : result.status = .halted) :
    fixture' = fixture ∧ recorder' = recorder ∧ fixture.state.halted = true := by
  rw [executeOne] at runs
  split at runs
  · cases runs
    cases halts
  split at runs
  · cases runs
    cases halts
  split at runs
  · next halted =>
      cases runs
      exact ⟨rfl, rfl, halted⟩
  · split at runs <;>
      cases runs <;> cases halts

end OwnedVmFixture

def fixtureAt (architecture : OwnedVmArchitecture) : Nat → OwnedVmFixture
  | 0 => .ofArchitecture architecture
  | count + 1 => (fixtureAt architecture count).advanced

def statsAt (count : Nat) : VmRecorderStats :=
  { attempted := count.toUInt64, recorded := count.toUInt64 }

/-- What both programs say of a reachable fixture. -/
structure SoundAt (architecture : OwnedVmArchitecture) (count : Nat) : Prop where
  executed : (fixtureAt architecture count).executedCount = count.toUInt64
  valid : (fixtureAt architecture count).validState = true
  halted : (fixtureAt architecture count).state.halted = decide (count = 9)
  snapshot : (fixtureAt architecture count).state.guest.validAt architecture.guest count.toUInt64
    = true
  position : (fixtureAt architecture count).state.guest.pc = Reb.Debugger.pcs.getD count 0

/-- What both programs say of the instruction of a reachable fixture that is not the last. -/
structure SoundStep (architecture : OwnedVmArchitecture) (count : Nat) : Prop where
  dispatches : (fixtureAt architecture count).next.isSome = true
  valid : (fixtureAt architecture count).transition.valid = true
  whole : ((fixtureAt architecture count).transition.isPartial
    || (fixtureAt architecture count).transition.before.isPartial
    || (fixtureAt architecture count).transition.after.isPartial) = false
  before : (fixtureAt architecture count).transition.before = (fixtureAt architecture count).state
  after : (fixtureAt architecture count).transition.after
    = (fixtureAt architecture (count + 1)).state
  believed : (VmRecordedStep.guest ⟨1, 1, (fixtureAt architecture count).transition⟩).valid
    architecture.guest = true

theorem fixtureAt_sound (architecture : OwnedVmArchitecture) {count : Nat} (within : count < 10) :
    SoundAt architecture count := by
  have each : ∀ count < 10,
      (fixtureAt architecture count).executedCount = count.toUInt64
        ∧ (fixtureAt architecture count).validState = true
        ∧ (fixtureAt architecture count).state.halted = decide (count = 9)
        ∧ (fixtureAt architecture count).state.guest.validAt architecture.guest count.toUInt64
          = true
        ∧ (fixtureAt architecture count).state.guest.pc = Reb.Debugger.pcs.getD count 0 := by
    cases architecture <;> decide +kernel
  obtain ⟨executed, valid, halted, snapshot, position⟩ := each count within
  exact ⟨executed, valid, halted, snapshot, position⟩

theorem fixtureAt_step (architecture : OwnedVmArchitecture) {count : Nat} (within : count < 9) :
    SoundStep architecture count := by
  have each : ∀ count < 9,
      (fixtureAt architecture count).next.isSome = true
        ∧ (fixtureAt architecture count).transition.valid = true
        ∧ ((fixtureAt architecture count).transition.isPartial
          || (fixtureAt architecture count).transition.before.isPartial
          || (fixtureAt architecture count).transition.after.isPartial) = false
        ∧ (fixtureAt architecture count).transition.before = (fixtureAt architecture count).state
        ∧ (fixtureAt architecture count).transition.after
          = (fixtureAt architecture (count + 1)).state
        ∧ (VmRecordedStep.guest ⟨1, 1, (fixtureAt architecture count).transition⟩).valid
          architecture.guest = true := by
    cases architecture <;> decide +kernel
  obtain ⟨dispatches, valid, whole, before, after, believed⟩ := each count within
  exact ⟨dispatches, valid, whole, before, after, believed⟩

/-! ## The helper's side -/

/-- Where the control owner stands after `count` instructions. -/
structure OwnerAt (architecture : OwnedVmArchitecture) (scope : VmScope) (generation : UInt64)
    (count : Nat) (owner : Owner) : Prop where
  within : count < 10
  fixture : owner.fixture = fixtureAt architecture count
  enabled : owner.recorder.enabled = true
  generation : owner.recorder.generation = generation
  scope : owner.recorder.scope = scope
  capacity : owner.recorder.capacity = 64
  retained : owner.recorder.records.length = count
  stats : owner.recorder.stats = statsAt count
  clock : owner.recorder.lastTick ≤ owner.lastNow

theorem advance_small {count : Nat} (within : count < 9) :
    advance? count.toUInt64 = some (count + 1).toUInt64 := by
  revert count
  decide

/-- Before the program has halted and the deadline has passed, a step is recorded. -/
theorem record_at {recorder : NativeVmRecorder} {count : Nat} {now : UInt64} {step : VmStep}
    (within : count < 9) (enabled : recorder.enabled = true) (capacity : recorder.capacity = 64)
    (retained : recorder.records.length = count) (stats : recorder.stats = statsAt count)
    (early : now < recorder.scope.expiresAt) (later : recorder.lastTick ≤ now)
    (valid : step.valid = true)
    (whole : (step.isPartial || step.before.isPartial || step.after.isPartial) = false) :
    recorder.record recorder.scope.documentId recorder.generation now step
      = (.recorded, { recorder with
          lastTick := now
          records := recorder.records ++ [⟨(count + 1).toUInt64, now, step⟩]
          stats := statsAt (count + 1) }) := by
  have counted : advance? count.toUInt64 = some (count + 1).toUInt64 := advance_small within
  have timely : (decide (now ≥ recorder.scope.expiresAt) || decide (now < recorder.lastTick))
      = false := by
    rw [Bool.or_eq_false_iff, decide_eq_false_iff_not, decide_eq_false_iff_not]
    exact ⟨UInt64.not_le.2 early, UInt64.not_lt.2 later⟩
  have room : (recorder.records.length == recorder.capacity) = false := by
    rw [beq_eq_false_iff_ne, retained, capacity]
    omega
  simp only [NativeVmRecorder.record, enabled, stats, timely, statsAt, counted, advance,
    NativeVmRecorder.keep, valid, whole, room, bne_self_eq_false, Bool.not_true,
    Bool.false_eq_true, Option.isNone_some, Option.getD_some, ↓reduceIte]

theorem expired_eq_false {now previous deadline : UInt64} :
    expired now previous deadline = false ↔ 0 < now ∧ previous ≤ now ∧ now < deadline := by
  rw [expired, Bool.or_eq_false_iff, Bool.or_eq_false_iff, beq_eq_false_iff_ne,
    decide_eq_false_iff_not, decide_eq_false_iff_not, UInt64.not_lt, ge_iff_le, UInt64.not_le,
    ← UInt64.pos_iff_ne_zero, and_assoc]

/-- What an admitted `executeOne` leads to, and what a refused one leaves. -/
theorem dispatch_executeOne {options : ControlOptions} {env : Environment} {control : Control}
    {request : Request} {status : Status} {recorded : Option VmRecordResult} {owner : Owner}
    (asks : request.operation = .executeOne)
    (dispatches : dispatch options env control true request = (status, recorded, owner)) :
    (∃ execution, status = .ok ∧ recorded = some execution.recorderResult
        ∧ expired owner.lastNow control.owner.lastNow control.scope.expiresAt = false
        ∧ execution.status = .committed
        ∧ control.owner.fixture.executeOne control.owner.recorder control.scope.documentId
            control.recorderGeneration owner.lastNow
          = (execution, owner.fixture, owner.recorder))
      ∨ (status ≠ .ok ∧ status ≠ .closed ∧ recorded = none
        ∧ owner.fixture = control.owner.fixture ∧ owner.recorder = control.owner.recorder
        ∧ control.owner.lastNow ≤ owner.lastNow
        ∧ (status = .halted → owner.fixture.state.halted = true)) := by
  simp only [dispatch, Bool.not_true, Bool.false_eq_true, ↓reduceIte] at dispatches
  split at dispatches
  · cases dispatches
    exact .inr ⟨by decide, by decide, rfl, rfl, rfl, UInt64.le_refl _, by simp⟩
  simp only [admission, asks] at dispatches
  split at dispatches
  · cases dispatches
    exact .inr ⟨by decide, by decide, rfl, rfl, rfl, UInt64.le_refl _, by simp⟩
  split at dispatches
  · cases dispatches
    exact .inr ⟨by decide, by decide, rfl, rfl, rfl, UInt64.le_refl _, by simp⟩
  split at dispatches
  · cases dispatches
    exact .inr ⟨by decide, by decide, rfl, rfl, rfl, UInt64.le_refl _, by simp⟩
  split at dispatches
  · cases dispatches
    exact .inr ⟨by decide, by decide, rfl, rfl, rfl, UInt64.le_refl _, by simp⟩
  next timely =>
  rw [Bool.not_eq_true] at timely
  generalize runs : control.owner.fixture.executeOne control.owner.recorder
    control.scope.documentId control.recorderGeneration (env.clock control.owner.readings)
    = ran at dispatches
  obtain ⟨execution, fixture, recorder⟩ := ran
  have later := (expired_eq_false.1 timely).2.1
  cases settled : execution.status with
  | committed =>
      rw [settled] at dispatches
      cases dispatches
      exact .inl ⟨execution, rfl, rfl, timely, settled, runs⟩
  | halted =>
      obtain ⟨rfl, rfl, halted⟩ := OwnedVmFixture.executeOne_eq_halted runs settled
      rw [settled] at dispatches
      cases dispatches
      exact .inr ⟨by decide, by decide, rfl, rfl, rfl, later, fun _ => halted⟩
  | budget =>
      rcases OwnedVmFixture.executeOne_cases runs with ⟨committed, -⟩ | ⟨-, rfl, rfl⟩
      · rw [settled] at committed
        cases committed
      rw [settled] at dispatches
      cases dispatches
      exact .inr ⟨by decide, by decide, rfl, rfl, rfl, later, by simp⟩
  | invalidState =>
      rcases OwnedVmFixture.executeOne_cases runs with ⟨committed, -⟩ | ⟨-, rfl, rfl⟩
      · rw [settled] at committed
        cases committed
      rw [settled] at dispatches
      cases dispatches
      exact .inr ⟨by decide, by decide, rfl, rfl, rfl, later, by simp⟩

/-! ## The backend's side -/

/-- Where the backend's view stands after `count` instructions, of which none is later than
`lastNow`. -/
structure TraceAt (architecture : OwnedVmArchitecture) (count : Nat) (lastNow : UInt64)
    (trace : Trace) : Prop where
  executed : trace.executedCount = count.toUInt64
  retained : trace.retainedCount = count.toUInt64
  snapshot : trace.currentSnapshot = some (fixtureAt architecture count).state.guest
  records : trace.records.length = count
  stats : trace.stats = (statsAt count).guest
  last : ∀ record, trace.records.getLast? = some record →
    record.sequence ≤ count.toUInt64 ∧ record.tick ≤ lastNow

/-- The run the backend starts: its own document, and one invocation for each generation. -/
def spawnOptions (spec : SpawnSpec) (session : spec.session ≠ 0) (generation : spec.generation ≠ 0) :
    ControlOptions where
  architecture := if spec.fixture = .stack then .stack else .register
  sessionId := spec.session
  documentId := 1
  invocationId := spec.generation
  runGeneration := spec.generation
  lifetimeMs := 60000
  nonzero := ⟨session, by decide, generation, generation, by decide⟩
  bounded := by decide

section Views

variable {spec : SpawnSpec} {session : spec.session ≠ 0} {generation : spec.generation ≠ 0}
  {count : Nat} {owner : Owner} {scope : VmScope} {recorderGeneration : UInt64}
  {state : ReplyState} {result : Option VmRecordResult} {trace : Trace}

@[simp] theorem sessionId_spawnOptions :
    (spawnOptions spec session generation).sessionId = spec.session := rfl

@[simp] theorem documentId_spawnOptions :
    (spawnOptions spec session generation).documentId = 1 := rfl

@[simp] theorem invocationId_spawnOptions :
    (spawnOptions spec session generation).invocationId = spec.generation := rfl

@[simp] theorem runGeneration_spawnOptions :
    (spawnOptions spec session generation).runGeneration = spec.generation := rfl

@[simp] theorem guest_spawnOptions :
    (spawnOptions spec session generation).architecture.guest = spec.fixture := by
  show (if spec.fixture = .stack then OwnedVmArchitecture.stack else .register).guest = _
  cases spec.fixture <;> rfl

theorem small_counts {count : Nat} (within : count < 10) :
    count.toUInt64.toNat = count
      ∧ (decide (count.toUInt64 ≤ 9) && decide (count.toUInt64 ≤ 64)
        && decide (count.toUInt64 ≤ count.toUInt64) && decide ((0 : UInt64) ≤ count.toUInt64)
        && (((Reb.Debugger.checkedAdd count.toUInt64 0).bind (Reb.Debugger.checkedAdd · 0))
          == some count.toUInt64)) = true
      ∧ (count.toUInt64 == 9) = decide (count = 9) := by
  revert count
  decide

theorem small_budget {count : Nat} (within : count < 10) : count.toUInt64 < 16 := by
  revert count
  decide

/-- Every view the helper writes is consistent with the run it belongs to. -/
theorem consistent_controlView
    (stands : OwnerAt (spawnOptions spec session generation).architecture scope recorderGeneration
      count owner) :
    (controlView (spawnOptions spec session generation) owner state result).consistent spec
      = true := by
  obtain ⟨executed, -, halted, snapshot, position⟩ :=
    fixtureAt_sound (spawnOptions spec session generation).architecture stands.within
  obtain ⟨toNat, counters, nine⟩ := small_counts stands.within
  simp only [Bool.and_eq_true] at counters
  obtain ⟨⟨⟨⟨few, fits⟩, same⟩, none⟩, sum⟩ := counters
  rw [guest_spawnOptions] at snapshot
  have haltedGuest : (fixtureAt (spawnOptions spec session generation).architecture
      count).state.guest.halted = decide (count = 9) := halted
  simp only [NativeView.consistent, controlView, stands.fixture, executed, stands.stats, statsAt,
    VmRecorderStats.guest, guest_spawnOptions, snapshot, position, haltedGuest, toNat, nine, few,
    fits, same, none, sum, sessionId_spawnOptions, documentId_spawnOptions,
    invocationId_spawnOptions, runGeneration_spawnOptions, beq_self_eq_true, Bool.and_self]

/-- The view of a frame that ran nothing is the refusal that its status calls for. -/
theorem refused_controlView {status : Status}
    (stands : OwnerAt (spawnOptions spec session generation).architecture scope recorderGeneration
      count owner)
    (accumulated : TraceAt (spawnOptions spec session generation).architecture count owner.lastNow
      trace)
    (answers : status ≠ .ok) (open' : status ≠ .closed)
    (halts : status = .halted → owner.fixture.state.halted = true) :
    (controlView (spawnOptions spec session generation) owner
      (settle status owner.fixture).state none).refused status.code trace = true := by
  obtain ⟨executed, -⟩ :=
    fixtureAt_sound (spawnOptions spec session generation).architecture stands.within
  have counts : (controlView (spawnOptions spec session generation) owner
      (settle status owner.fixture).state none).executedCount = trace.executedCount := by
    rw [accumulated.executed, ← executed, ← stands.fixture]
    rfl
  have snapshot : trace.currentSnapshot = some owner.fixture.state.guest := by
    rw [accumulated.snapshot, stands.fixture]
  have retained : owner.recorder.stats.recorded = trace.retainedCount := by
    rw [accumulated.retained, stands.stats]
    rfl
  have stats : owner.recorder.stats.guest = trace.stats := by
    rw [accumulated.stats, stands.stats]
  have word : (settle status owner.fixture).state.guest
      = NativeView.refusedState (controlView (spawnOptions spec session generation) owner
        (settle status owner.fixture).state none) status.code := by
    have shown : (controlView (spawnOptions spec session generation) owner
        (settle status owner.fixture).state none).snapshot.halted = owner.fixture.state.halted := rfl
    rw [NativeView.refusedState, shown]
    cases status with
    | ok => exact absurd rfl answers
    | closed => exact absurd rfl open'
    | halted =>
        simp only [settle, halts rfl]
        rfl
    | malformed | expired | resourceLimit | fixtureError => rfl
    | staleGeneration | countMismatch | requestId =>
        cases halted : owner.fixture.state.halted <;>
          simp [settle, halted, Status.code, ReplyState.guest]
  have answerable : (status.code == 9 || (status.code == 6 && !owner.fixture.state.halted))
      = false := by
    cases status with
    | closed => exact absurd rfl open'
    | halted => rw [halts rfl]; rfl
    | _ => rfl
  simp only [NativeView.refused, Bool.and_eq_true, beq_iff_eq, Bool.not_eq_true']
  exact ⟨⟨⟨⟨⟨⟨⟨answerable, counts⟩, snapshot⟩, retained⟩, word⟩, rfl⟩, rfl⟩, stats⟩

theorem sequence_pos {count : Nat} (within : count < 9) : 0 < (count + 1).toUInt64 := by
  revert count
  decide

/-- Nothing else of a record depends on when it was made. -/
theorem valid_recorded {step : VmStep} {fixture : Reb.Debugger.Fixture} {sequence tick : UInt64}
    (valid : (VmRecordedStep.guest ⟨1, 1, step⟩).valid fixture = true) (first : 0 < sequence)
    (timed : 0 < tick) : (VmRecordedStep.guest ⟨sequence, tick, step⟩).valid fixture = true := by
  simp only [Reb.Debugger.Record.valid, VmRecordedStep.guest, Bool.and_eq_true] at valid ⊢
  obtain ⟨⟨⟨⟨⟨⟨⟨⟨⟨-, -⟩, opcode⟩, evidence⟩, operands⟩, effects⟩, before⟩, after⟩, reads⟩, writes⟩ :=
    valid
  exact ⟨⟨⟨⟨⟨⟨⟨⟨⟨decide_eq_true first, decide_eq_true timed⟩, opcode⟩, evidence⟩, operands⟩,
    effects⟩, before⟩, after⟩, reads⟩, writes⟩

theorem fixture_executed (within : count < 9) {transition : Reb.Debugger.Record}
    (whole : (transition.isPartial || transition.before.isPartial || transition.after.isPartial)
      = false) :
    Reb.Debugger.checkedAdd count.toUInt64 1 = some (count + 1).toUInt64
      ∧ (statsAt (count + 1)).guest.advances (statsAt count).guest = true
      ∧ (statsAt count).guest.expected (some transition) .recorded
        = some (statsAt (count + 1)).guest
      ∧ (count + 1).toUInt64 = count.toUInt64 + 1
      ∧ count.toUInt64 < (count + 1).toUInt64 := by
  have steps : ∀ count < 9, Reb.Debugger.checkedAdd count.toUInt64 1 = some (count + 1).toUInt64
      ∧ (statsAt (count + 1)).guest.advances (statsAt count).guest = true
      ∧ (count + 1).toUInt64 = count.toUInt64 + 1
      ∧ count.toUInt64 < (count + 1).toUInt64 := by
    decide
  obtain ⟨next, advances, succ, grows⟩ := steps count within
  refine ⟨next, advances, ?_, succ, grows⟩
  rw [RecorderStats.expected]
  simp [statsAt, VmRecorderStats.guest, next, whole]

/-- The view of an instruction that was run and recorded is the successor of the trace. -/
theorem executed_controlView {before : Owner} (within : count < 9)
    (accumulated : TraceAt (spawnOptions spec session generation).architecture count before.lastNow
      trace)
    (stands : OwnerAt (spawnOptions spec session generation).architecture scope recorderGeneration
      (count + 1) owner)
    (later : before.lastNow ≤ owner.lastNow) (positive : 0 < owner.lastNow)
    (recorded : owner.recorder.records.getLast? = some ⟨(count + 1).toUInt64, owner.lastNow,
      (fixtureAt (spawnOptions spec session generation).architecture count).transition⟩) :
    (controlView (spawnOptions spec session generation) owner
      (settle .ok owner.fixture).state (some .recorded)).executed trace = true := by
  have step := fixtureAt_step (spawnOptions spec session generation).architecture within
  have sound := fixtureAt_sound (spawnOptions spec session generation).architecture stands.within
  have shown : (transition owner.recorder (some .recorded)).map VmRecordedStep.guest
      = some (VmRecordedStep.guest ⟨(count + 1).toUInt64, owner.lastNow,
        (fixtureAt (spawnOptions spec session generation).architecture count).transition⟩) := by
    rw [transition, if_pos rfl, recorded]
    rfl
  obtain ⟨next, advances, expected, succ, grows⟩ :=
    @fixture_executed count within (VmRecordedStep.guest ⟨(count + 1).toUInt64, owner.lastNow,
      (fixtureAt (spawnOptions spec session generation).architecture count).transition⟩) step.whole
  have counts : Reb.Debugger.checkedAdd trace.executedCount 1
      = some owner.fixture.executedCount := by
    rw [accumulated.executed, next, stands.fixture, sound.executed]
  have word : (settle .ok owner.fixture).state.guest
      = if owner.fixture.state.halted then .halted else .paused := by
    cases halted : owner.fixture.state.halted <;> simp [settle, halted, ReplyState.guest]
  have stats : owner.recorder.stats.guest = (statsAt (count + 1)).guest := by
    rw [stands.stats]
  have continues : (controlView (spawnOptions spec session generation) owner
      (settle .ok owner.fixture).state (some .recorded)).continues
      (VmRecordedStep.guest ⟨(count + 1).toUInt64, owner.lastNow,
        (fixtureAt (spawnOptions spec session generation).architecture count).transition⟩) trace
      = true := by
    have believed := valid_recorded step.believed (sequence_pos within) positive
    rw [guest_spawnOptions] at believed
    have after : (fixtureAt (spawnOptions spec session generation).architecture
        count).transition.after.guest = owner.fixture.state.guest := by
      rw [step.after, stands.fixture]
    have before : trace.currentSnapshot = some (fixtureAt
        (spawnOptions spec session generation).architecture count).transition.before.guest := by
      rw [accumulated.snapshot, step.before]
    have attempted : owner.recorder.stats.guest.attempted = (count + 1).toUInt64 := by
      rw [stats]
      rfl
    have retained : owner.recorder.stats.recorded = trace.retainedCount + 1 := by
      rw [stands.stats, accumulated.retained, ← succ]
      rfl
    have advanced : owner.recorder.stats.guest.attempted = trace.stats.attempted + 1 := by
      rw [attempted, accumulated.stats, succ]
      rfl
    have ordered : (trace.records.getLast?.any fun r =>
        decide (r.sequence ≥ (count + 1).toUInt64) || decide (r.tick > owner.lastNow)) = false := by
      cases last : trace.records.getLast? with
      | none => rfl
      | some record =>
          obtain ⟨earlier, sooner⟩ := accumulated.last record last
          rw [Option.any_some, Bool.or_eq_false_iff, decide_eq_false_iff_not,
            decide_eq_false_iff_not]
          exact ⟨UInt64.not_le.2 (UInt64.lt_of_le_of_lt earlier grows),
            UInt64.not_lt.2 (UInt64.le_trans sooner later)⟩
    simp only [NativeView.continues, Bool.and_eq_true, beq_iff_eq, decide_eq_true_iff,
      Bool.not_eq_true']
    refine ⟨⟨⟨⟨⟨⟨⟨?_, ?_⟩, after⟩, before⟩, attempted.symm⟩, retained⟩, advanced⟩, ordered⟩
    · rw [controlView, guest_spawnOptions]
      exact believed
    · rw [accumulated.records]
      omega
  simp only [NativeView.executed, controlView, shown, Option.map_some, Bool.and_eq_true, beq_iff_eq]
  refine ⟨⟨⟨counts, word⟩, ?_⟩, ?_, rfl, continues⟩
  · rw [stats, accumulated.stats]
    exact advances
  · rw [stats, accumulated.stats]
    exact expected

/-! ## One reply more -/

theorem OwnerAt.later {architecture : OwnedVmArchitecture} {before : Owner}
    (stands : OwnerAt architecture scope recorderGeneration count before)
    (fixture : owner.fixture = before.fixture) (recorder : owner.recorder = before.recorder)
    (later : before.lastNow ≤ owner.lastNow) :
    OwnerAt architecture scope recorderGeneration count owner := by
  obtain ⟨within, at', enabled, generation, scope, capacity, retained, stats, clock⟩ := stands
  rw [← recorder] at enabled generation scope capacity retained stats clock
  exact ⟨within, fixture.trans at', enabled, generation, scope, capacity, retained, stats,
    UInt64.le_trans clock later⟩

theorem TraceAt.later {architecture : OwnedVmArchitecture} {before now : UInt64}
    (accumulated : TraceAt architecture count before trace) (later : before ≤ now) :
    TraceAt architecture count now trace := by
  obtain ⟨executed, retained, snapshot, records, stats, last⟩ := accumulated
  exact ⟨executed, retained, snapshot, records, stats, fun record found =>
    ⟨(last record found).1, UInt64.le_trans (last record found).2 later⟩⟩

theorem TraceAt.store_refused
    (stands : OwnerAt (spawnOptions spec session generation).architecture scope recorderGeneration
      count owner)
    (accumulated : TraceAt (spawnOptions spec session generation).architecture count owner.lastNow
      trace) :
    TraceAt (spawnOptions spec session generation).architecture count owner.lastNow
      (trace.store (controlView (spawnOptions spec session generation) owner state none)) := by
  have sound := fixtureAt_sound (spawnOptions spec session generation).architecture stands.within
  have same : (trace.store (controlView (spawnOptions spec session generation) owner state
      none)).records = trace.records := List.append_nil _
  refine ⟨?_, ?_, ?_, ?_, ?_, ?_⟩
  · exact (congrArg OwnedVmFixture.executedCount stands.fixture).trans sound.executed
  · exact congrArg VmRecorderStats.recorded stands.stats
  · exact congrArg (fun fixture => some (OwnedVmFixture.state fixture).guest) stands.fixture
  · rw [same, accumulated.records]
  · exact congrArg VmRecorderStats.guest stands.stats
  · rw [same]
    exact accumulated.last

theorem TraceAt.store_executed {before : Owner}
    (accumulated : TraceAt (spawnOptions spec session generation).architecture count before.lastNow
      trace)
    (stands : OwnerAt (spawnOptions spec session generation).architecture scope recorderGeneration
      (count + 1) owner)
    (recorded : owner.recorder.records.getLast? = some ⟨(count + 1).toUInt64, owner.lastNow,
      (fixtureAt (spawnOptions spec session generation).architecture count).transition⟩) :
    TraceAt (spawnOptions spec session generation).architecture (count + 1) owner.lastNow
      (trace.store (controlView (spawnOptions spec session generation) owner state
        (some .recorded))) := by
  have sound := fixtureAt_sound (spawnOptions spec session generation).architecture stands.within
  have longer : (trace.store (controlView (spawnOptions spec session generation) owner state
      (some .recorded))).records
      = trace.records ++ [VmRecordedStep.guest ⟨(count + 1).toUInt64, owner.lastNow,
        (fixtureAt (spawnOptions spec session generation).architecture count).transition⟩] := by
    show trace.records ++ ((transition owner.recorder (some .recorded)).map _).toList = _
    rw [transition, if_pos rfl, recorded]
    rfl
  refine ⟨?_, ?_, ?_, ?_, ?_, ?_⟩
  · exact (congrArg OwnedVmFixture.executedCount stands.fixture).trans sound.executed
  · exact congrArg VmRecorderStats.recorded stands.stats
  · exact congrArg (fun fixture => some (OwnedVmFixture.state fixture).guest) stands.fixture
  · rw [longer, List.length_append, accumulated.records]
    rfl
  · exact congrArg VmRecorderStats.guest stands.stats
  · intro record last
    rw [longer, List.getLast?_concat, Option.some.injEq] at last
    subst last
    exact ⟨UInt64.le_refl _, UInt64.le_refl _⟩

end Views

/-! ## Every reply of a run -/

structure Reply where
  status : Status
  payload : Json

def Exchange.reply (options : ControlOptions) (exchange : Exchange) : Reply where
  status := exchange.status
  payload := controlPayload options exchange.after
    (settle exchange.status exchange.after.fixture).state exchange.recorded

/-- The replies of a process, the one that opens the session first. -/
def replies (options : ControlOptions) (env : Environment) (control : Control) : List Reply :=
  if control.announced then
    ⟨.ok, controlPayload options (Control.start options env).owner .paused none⟩
      :: control.exchanges.map (Exchange.reply options)
  else []

/-- The view accumulated from the replies so far. -/
def traceAfter (past : List Reply) : Trace :=
  past.foldl (fun trace reply => (readView reply.payload).elim trace trace.store) {}

/-- The backend reads the reply, and believes it of the run so far. -/
def Accepted (spec : SpawnSpec) (past : List Reply) (reply : Reply) : Prop :=
  ∃ view, readView reply.payload = some view
    ∧ validateNative spec (traceAfter past) ⟨reply.status.code, view⟩ past.isEmpty = .ok ()

/-- The frame is well formed and asks for one instruction. -/
def AsksOne (bytes : List UInt8) : Prop :=
  (decodeRequest bytes).1 = true ∧ (decodeRequest bytes).2.operation = .executeOne

/-- Every whole frame of the input asks for one instruction. -/
def ExecuteOnly (input : List UInt8) : Prop :=
  ∀ n, (n + 1) * kRequestBytes ≤ input.length →
    AsksOne ((input.drop (n * kRequestBytes)).take kRequestBytes)

theorem ExecuteOnly.first {input : List UInt8} (only : ExecuteOnly input)
    (whole : kRequestBytes ≤ input.length) : AsksOne (input.take kRequestBytes) := by
  have first := only 0 (by omega)
  rwa [Nat.zero_mul, List.drop_zero] at first

theorem ExecuteOnly.rest {input : List UInt8} (only : ExecuteOnly input) :
    ExecuteOnly (input.drop kRequestBytes) := by
  intro n fits
  rw [List.length_drop] at fits
  have whole : kRequestBytes ≤ input.length := by
    refine Nat.le_of_lt (Nat.lt_of_sub_pos (Nat.lt_of_lt_of_le ?_ fits))
    exact Nat.mul_pos n.succ_pos (by decide)
  have next := only (n + 1) (by
    rw [Nat.succ_mul (n + 1)]
    exact Nat.add_le_of_le_sub whole fits)
  rwa [List.drop_drop, Nat.add_comm, ← Nat.succ_mul]

section Runs

variable {spec : SpawnSpec} {session : spec.session ≠ 0} {generation : spec.generation ≠ 0}
  {env : Environment} {control : Control}

/-- What every turn keeps: the replies so far are accepted, and while the process serves, both
sides stand after the same number of instructions. -/
structure Agreed (spec : SpawnSpec) (session : spec.session ≠ 0) (generation : spec.generation ≠ 0)
    (env : Environment) (control : Control) : Prop where
  accepted : Machine.Lawful (Accepted spec) (replies (spawnOptions spec session generation) env
    control)
  asks : ExecuteOnly control.input
  serving : control.exit = none → control.announced = true ∧ ∃ count,
    OwnerAt (spawnOptions spec session generation).architecture control.scope
        control.recorderGeneration count control.owner
      ∧ TraceAt (spawnOptions spec session generation).architecture count control.owner.lastNow
        (traceAfter (replies (spawnOptions spec session generation) env control))

theorem traceAfter_concat (past : List Reply) (reply : Reply) {view : NativeView}
    (reads : readView reply.payload = some view) :
    traceAfter (past ++ [reply]) = (traceAfter past).store view := by
  rw [traceAfter, List.foldl_concat, reads]
  rfl

/-- A reply of which the backend believes the helper's own view is accepted. -/
theorem accepted_of_believed {past : List Reply} {status : Status} {owner : Owner}
    {state : ReplyState} {result : Option VmRecordResult} (later : past ≠ [])
    (consistent : (controlView (spawnOptions spec session generation) owner state
      result).consistent spec = true)
    (judged : (if status.code != 0 then
        (controlView (spawnOptions spec session generation) owner state result).refused status.code
          (traceAfter past)
      else (controlView (spawnOptions spec session generation) owner state result).executed
        (traceAfter past)) = true) :
    Accepted spec past
      ⟨status, controlPayload (spawnOptions spec session generation) owner state result⟩ := by
  refine ⟨_, readView_controlPayload _ _ _ _, ?_⟩
  have first : past.isEmpty = false := by simpa using later
  rw [validateNative, Reb.Debugger.NativeReply.believed, consistent, first]
  simp only [Bool.true_and, Bool.false_eq_true, ↓reduceIte, judged]

/-- What one answered frame does to both sides. -/
theorem serve_agrees {count : Nat} {past : List Reply} {request : Request} {status : Status}
    {recorded : Option VmRecordResult} {owner : Owner} (later : past ≠ [])
    (stands : OwnerAt (spawnOptions spec session generation).architecture control.scope
      control.recorderGeneration count control.owner)
    (accumulated : TraceAt (spawnOptions spec session generation).architecture count
      control.owner.lastNow (traceAfter past))
    (asks : request.operation = .executeOne)
    (dispatches : dispatch (spawnOptions spec session generation) env control true request
      = (status, recorded, owner)) :
    Accepted spec past ⟨status, controlPayload (spawnOptions spec session generation) owner
        (settle status owner.fixture).state recorded⟩
      ∧ ∃ count,
        OwnerAt (spawnOptions spec session generation).architecture control.scope
            control.recorderGeneration count owner
          ∧ TraceAt (spawnOptions spec session generation).architecture count owner.lastNow
            (traceAfter (past ++ [⟨status, controlPayload (spawnOptions spec session generation)
              owner (settle status owner.fixture).state recorded⟩])) := by
  rw [traceAfter_concat past _ (readView_controlPayload _ _ _ _)]
  rcases dispatch_executeOne asks dispatches with
    ⟨execution, rfl, rfl, timely, committed, runs⟩
      | ⟨answers, open', rfl, fixture, recorder, clock, halts⟩
  · obtain ⟨positive, later', early⟩ := expired_eq_false.1 timely
    have sound := fixtureAt_sound (spawnOptions spec session generation).architecture stands.within
    have executed : control.owner.fixture.executedCount < 16 := by
      rw [stands.fixture, sound.executed]
      exact small_budget stands.within
    have valid : control.owner.fixture.validState = true := by
      rw [stands.fixture]
      exact sound.valid
    have running : control.owner.fixture.state.halted = false := by
      by_contra halted
      rw [OwnedVmFixture.executeOne_halted executed valid (by simpa using halted)] at runs
      rw [← congrArg (·.1.status) runs] at committed
      cases committed
    have within : count < 9 := by
      rw [stands.fixture, sound.halted, decide_eq_false_iff_not] at running
      have := stands.within
      omega
    have step := fixtureAt_step (spawnOptions spec session generation).architecture within
    rw [OwnedVmFixture.executeOne_running executed valid running
        (by rw [stands.fixture]; exact step.dispatches), stands.fixture, ← stands.scope,
      ← stands.generation, record_at within stands.enabled stands.capacity stands.retained
        stands.stats (by rw [stands.scope]; exact early)
        (UInt64.le_trans stands.clock later') step.valid step.whole] at runs
    simp only [Prod.mk.injEq] at runs
    obtain ⟨rfl, fixture, recorder⟩ := runs
    have stands' : OwnerAt (spawnOptions spec session generation).architecture control.scope
        control.recorderGeneration (count + 1) owner := by
      refine ⟨by omega, fixture.symm, ?_, ?_, ?_, ?_, ?_, ?_, ?_⟩ <;> rw [← recorder]
      · exact stands.enabled
      · exact stands.generation
      · exact stands.scope
      · exact stands.capacity
      · rw [List.length_append, stands.retained]
        rfl
      · exact UInt64.le_refl _
    have kept : owner.recorder.records.getLast? = some ⟨(count + 1).toUInt64, owner.lastNow,
        (fixtureAt (spawnOptions spec session generation).architecture count).transition⟩ := by
      rw [← recorder, List.getLast?_concat]
    refine ⟨accepted_of_believed later (consistent_controlView stands') ?_, count + 1, stands',
      accumulated.store_executed stands' kept⟩
    exact executed_controlView within accumulated stands' later' positive kept
  · have stands' := stands.later fixture recorder clock
    have accumulated' := accumulated.later clock
    have refused : (status.code != 0) = true := by
      cases status <;> first | rfl | exact absurd rfl answers
    refine ⟨accepted_of_believed later (consistent_controlView stands') ?_, count, stands',
      accumulated'.store_refused stands'⟩
    rw [if_pos refused]
    exact refused_controlView stands' accumulated' answers open' halts

theorem replies_concat (options : ControlOptions) (env : Environment) {control control' : Control}
    {exchange : Exchange} (announced : control.announced = true)
    (announced' : control'.announced = true)
    (exchanges : control'.exchanges = control.exchanges ++ [exchange]) :
    replies options env control' = replies options env control ++ [exchange.reply options] := by
  rw [replies, replies, if_pos announced, if_pos announced', exchanges, List.map_append]
  rfl

theorem Agreed.serve (agreed : Agreed spec session generation env control)
    (serves : control.exit = none) (whole : kRequestBytes ≤ control.input.length) :
    Agreed spec session generation env
      (Helper.serve (spawnOptions spec session generation) env control
        (control.input.take kRequestBytes)) := by
  obtain ⟨announced, count, stands, accumulated⟩ := agreed.serving serves
  obtain ⟨framed, asks⟩ := agreed.asks.first whole
  rcases decoded : decodeRequest (control.input.take kRequestBytes) with ⟨wellFramed, request⟩
  rw [decoded] at framed asks
  obtain rfl : wellFramed = true := framed
  rcases dispatched : dispatch (spawnOptions spec session generation) env control true request with
    ⟨status, recorded, owner⟩
  have past : replies (spawnOptions spec session generation) env control ≠ [] := by
    rw [replies, if_pos announced]
    exact List.cons_ne_nil _ _
  obtain ⟨accepted, after⟩ := serve_agrees past stands accumulated asks dispatched
  have served := serve_eq decoded dispatched
  have longer := replies_concat (spawnOptions spec session generation) env announced
    (by rw [served]; exact announced) (congrArg Control.exchanges served)
  refine ⟨?_, ?_, fun _ => ⟨?_, ?_⟩⟩
  · rw [longer]
    exact agreed.accepted.snoc accepted
  · rw [served]
    exact agreed.asks.rest
  · rw [served]
    exact announced
  · rw [longer, served]
    exact after

theorem Agreed.step (agreed : Agreed spec session generation env control) :
    Agreed spec session generation env
      (control.step (spawnOptions spec session generation) env) := by
  rw [Control.step]
  split
  · exact agreed
  next serves =>
  split
  · exact ⟨agreed.accepted, agreed.asks, fun ended => by split at ended <;> cases ended⟩
  next whole => exact agreed.serve (by simpa using serves) (Nat.not_lt.1 whole)

/-- A recorder that was never used, enabled for a scope. -/
theorem enable_fresh {scope : VmScope} {now : UInt64}
    (enabled : (({} : NativeVmRecorder).enable scope now).1 = true) :
    (({} : NativeVmRecorder).enable scope now).2
      = { scope, lastTick := now, generation := 1, enabled := true } := by
  simp only [NativeVmRecorder.enable] at enabled ⊢
  split at enabled
  · cases enabled
  split at enabled
  · cases enabled
  next fresh admitted =>
  rw [if_neg fresh, if_neg admitted]
  rfl

theorem start_owner (options : ControlOptions) (env : Environment) :
    (Control.start options env).owner =
      { fixture := .ofArchitecture options.architecture
        recorder := (({} : NativeVmRecorder).enable (scopeUntil options
          (env.clock 0 + options.lifetimeMs * 1000000)) (env.clock 0)).2
        lastNow := env.clock 0
        readings := 1 } := by
  simp only [Control.start]
  repeat' split
  all_goals rfl

theorem guest_initialState (architecture : OwnedVmArchitecture) :
    (OwnedVmFixture.initialState architecture).guest
      = Reb.Debugger.Snapshot.initial architecture.guest := by
  cases architecture <;> rfl

theorem agreed_start (asks : ExecuteOnly env.input) : Agreed spec session generation env
    (.start (spawnOptions spec session generation) env) := by
  have ended : ∀ control : Control, control.announced = false → control.exit = some 1 →
      control.input = env.input → Agreed spec session generation env control := by
    intro control silent exit input
    refine ⟨?_, by rw [input]; exact asks, fun serves => by rw [exit] at serves; cases serves⟩
    rw [replies, silent]
    exact Machine.lawful_nil
  simp only [Control.start]
  split
  · exact ended _ rfl rfl rfl
  split
  · exact ended _ rfl rfl rfl
  next enabled =>
  have recorder := enable_fresh (by simpa using enabled)
  have owner := start_owner (spawnOptions spec session generation) env
  rw [recorder] at owner ⊢
  have stands : OwnerAt (spawnOptions spec session generation).architecture
      (scopeUntil (spawnOptions spec session generation)
        (env.clock 0 + (spawnOptions spec session generation).lifetimeMs * 1000000)) 1 0
      (Control.start (spawnOptions spec session generation) env).owner := by
    rw [owner]
    exact ⟨by decide, rfl, rfl, rfl, rfl, rfl, rfl, rfl, UInt64.le_refl _⟩
  have initial : (controlView (spawnOptions spec session generation)
      (Control.start (spawnOptions spec session generation) env).owner .paused none).initial 0
      = true := by
    rw [owner]
    simp [NativeView.initial, controlView, transition, OwnedVmFixture.ofArchitecture,
      guest_initialState, ReplyState.guest, VmRecorderStats.guest]
  refine ⟨Machine.lawful_nil.snoc ⟨_, readView_controlPayload _ _ _ _, ?_⟩, asks,
    fun _ => ⟨rfl, 0, owner ▸ stands, ?_⟩⟩
  · rw [validateNative, Reb.Debugger.NativeReply.believed, consistent_controlView stands]
    show (if (true && NativeView.initial _ 0) = true then _ else _) = _
    rw [initial]
    rfl
  · show TraceAt _ 0 _ (traceAfter ([] ++ [_]))
    rw [traceAfter_concat [] _ (readView_controlPayload _ _ _ _), owner]
    refine ⟨rfl, rfl, rfl, rfl, rfl, fun record none => ?_⟩
    cases none

theorem Agreed.after (asks : ExecuteOnly env.input) (turns : Nat) :
    Agreed spec session generation env
      (.after (spawnOptions spec session generation) env turns) := by
  induction turns with
  | zero => exact agreed_start asks
  | succ turns ih => exact ih.step

end Runs

/-- For both fixtures, every session and generation, every sequence of requests for one
instruction and every sequence of clock readings, the backend accepts every reply the helper
composes against the view accumulated from the replies before it. -/
theorem replies_accepted (spec : SpawnSpec) (session : spec.session ≠ 0)
    (generation : spec.generation ≠ 0) (env : Environment) (asks : ExecuteOnly env.input)
    (turns : Nat) :
    Machine.Lawful (Accepted spec) (replies (spawnOptions spec session generation) env
      (.after (spawnOptions spec session generation) env turns)) :=
  (Agreed.after asks turns).accepted

/-- A run of three frames: one instruction, a stale count, and the next instruction. -/
def sampleEnvironment : Environment where
  input := [(1, 0), (2, 0), (3, 1)].flatMap fun (id, count) =>
    [0x52, 0x56, 0x4d, 0x31, 1, 0, 2, 0, id, 0, 0, 0, 0, 0, 0, 0, 9, 0, 0, 0, 0, 0, 0, 0,
      count, 0, 0, 0, 0, 0, 0, 0, 0, 0, 0, 0, 0, 0, 0, 0]
  clock := fun reading => 5 + reading.toUInt64
  delivered := fun _ => true

theorem replies_accepted_sample :
    ((replies (spawnOptions ⟨.stack, 7, 9⟩ (by decide) (by decide)) sampleEnvironment
        (.after (spawnOptions ⟨.stack, 7, 9⟩ (by decide) (by decide)) sampleEnvironment 3)).map
          (·.status)
        = [.ok, .ok, .countMismatch, .ok])
      ∧ Machine.Lawful (Accepted ⟨.stack, 7, 9⟩)
        (replies (spawnOptions ⟨.stack, 7, 9⟩ (by decide) (by decide)) sampleEnvironment
          (.after (spawnOptions ⟨.stack, 7, 9⟩ (by decide) (by decide)) sampleEnvironment 3)) := by
  refine ⟨by decide +kernel, replies_accepted ⟨.stack, 7, 9⟩ (by decide) (by decide) _ ?_ 3⟩
  have frames : ∀ n < 3,
      AsksOne ((sampleEnvironment.input.drop (n * kRequestBytes)).take kRequestBytes) := by
    unfold AsksOne
    decide +kernel
  intro n fits
  refine frames n ?_
  have size : sampleEnvironment.input.length = 120 := rfl
  rw [size] at fits
  simp only [kRequestBytes] at fits
  omega

end Reb.Helper
