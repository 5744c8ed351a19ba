/-
# Helper.ExecuteOnce -- at most one instruction for each admitted request

`admission_cases` and `dispatch_cases` say once what a frame can do: run the one
instruction it was admitted for, or leave the fixture and the recorder alone.
`Accounted` is kept by every turn of the loop: each reply obeys the law of
replies judged by the replies before it, identifiers only grow, the executed
count is the number of replies that ran an instruction, and a process that still
serves has sent no terminal reply.
-/
import Reb.Helper.ControlMain
import Reb.Theory.Machine

namespace Reb.Helper

set_option autoImplicit false

open Reb.Theory

/-! ## One instruction -/

theorem OwnedVmFixture.executeOne_cases {fixture fixture' : OwnedVmFixture}
    {recorder recorder' : NativeVmRecorder} {documentId generation now : UInt64}
    {result : OwnedVmExecuteResult}
    (runs : fixture.executeOne recorder documentId generation now = (result, fixture', recorder')) :
    (result.status = .committed ∧ fixture.executedCount < 16
        ∧ fixture'.executedCount = fixture.executedCount + 1)
      ∨ (result.status ≠ .committed ∧ fixture' = fixture ∧ recorder' = recorder) := by
  rw [executeOne] at runs
  split at runs
  · cases runs
    exact .inr ⟨by decide, rfl, rfl⟩
  next within =>
  split at runs
  · cases runs
    exact .inr ⟨by decide, rfl, rfl⟩
  split at runs
  · cases runs
    exact .inr ⟨by decide, rfl, rfl⟩
  split at runs
  · cases runs
    exact .inr ⟨by decide, rfl, rfl⟩
  · cases runs
    exact .inl ⟨rfl, UInt64.not_le.1 within, rfl⟩

/-! ## One frame -/

/-- The request ran an instruction: it was answered `ok` and asked for one. -/
def Ran (request : Request) (status : Status) : Prop :=
  status = .ok ∧ request.operation = .executeOne

instance (request : Request) (status : Status) : Decidable (Ran request status) :=
  inferInstanceAs (Decidable (_ ∧ _))

section Frames

variable {options : ControlOptions} {env : Environment} {control : Control} {request : Request}
  {owner owner' : Owner} {status : Status} {recorded : Option VmRecordResult}

theorem admission_keeps_identifier
    (admits : admission options env control request owner = (status, recorded, owner')) :
    owner'.lastRequestId = owner.lastRequestId := by
  simp only [admission] at admits
  repeat' split at admits
  all_goals
    cases admits
    rfl

theorem admission_cases
    (admits : admission options env control request owner = (status, recorded, owner')) :
    (Ran request status ∧ request.generation = options.runGeneration
        ∧ request.executedCount = owner.fixture.executedCount
        ∧ owner.fixture.executedCount < 16
        ∧ owner'.fixture.executedCount = owner.fixture.executedCount + 1)
      ∨ (¬ Ran request status ∧ owner'.fixture = owner.fixture
        ∧ owner'.recorder = owner.recorder) := by
  simp only [admission] at admits
  split at admits
  · cases admits
    exact .inr ⟨by simp [Ran], rfl, rfl⟩
  split at admits
  · cases admits
    exact .inr ⟨by simp [Ran], rfl, rfl⟩
  next generation =>
  split at admits
  · cases admits
    exact .inr ⟨by simp [Ran], rfl, rfl⟩
  next count =>
  split at admits
  · cases admits
    exact .inr ⟨by simp [Ran], rfl, rfl⟩
  split at admits
  · cases admits
    exact .inr ⟨by simp [Ran], rfl, rfl⟩
  · next inspects =>
      cases admits
      exact .inr ⟨by simp [Ran, inspects], rfl, rfl⟩
  · next executes =>
      generalize runs : owner.fixture.executeOne owner.recorder control.scope.documentId
        control.recorderGeneration (env.clock owner.readings) = ran at admits
      obtain ⟨execution, fixture, recorder⟩ := ran
      rcases OwnedVmFixture.executeOne_cases runs with ⟨committed, within, count'⟩ | ⟨other, same⟩
      · rw [committed] at admits
        cases admits
        exact .inl ⟨⟨rfl, executes⟩, by simpa using generation, by simpa using count, within, count'⟩
      · split at admits
        · contradiction
        all_goals
          cases admits
          exact .inr ⟨by simp [Ran], same.1, same.2⟩

theorem dispatch_cases {wellFramed : Bool}
    (dispatches : dispatch options env control wellFramed request = (status, recorded, owner')) :
    (Ran request status ∧ wellFramed = true ∧ control.owner.lastRequestId < request.requestId
        ∧ request.generation = options.runGeneration
        ∧ request.executedCount = control.owner.fixture.executedCount
        ∧ control.owner.fixture.executedCount < 16
        ∧ owner'.fixture.executedCount = control.owner.fixture.executedCount + 1)
      ∨ (¬ Ran request status ∧ owner'.fixture = control.owner.fixture
        ∧ owner'.recorder = control.owner.recorder) := by
  simp only [dispatch] at dispatches
  split at dispatches
  · cases dispatches
    exact .inr ⟨by simp [Ran], rfl, rfl⟩
  next framed =>
  split at dispatches
  · cases dispatches
    exact .inr ⟨by simp [Ran], rfl, rfl⟩
  next fresh =>
  rcases admission_cases dispatches with ⟨ran, generation, count⟩ | idle
  · exact .inl ⟨ran, by simpa using framed, by simp_all, generation, count⟩
  · exact .inr idle

/-- Identifiers only grow, and a well-framed one is never above the last. -/
theorem dispatch_identifier {wellFramed : Bool}
    (dispatches : dispatch options env control wellFramed request = (status, recorded, owner')) :
    control.owner.lastRequestId ≤ owner'.lastRequestId
      ∧ (wellFramed = true → request.requestId ≤ owner'.lastRequestId) := by
  simp only [dispatch] at dispatches
  split at dispatches
  · next broken =>
      cases dispatches
      exact ⟨UInt64.le_refl _, fun framed => by simp [framed] at broken⟩
  split at dispatches
  · next stale =>
      cases dispatches
      refine ⟨UInt64.le_refl _, fun _ => ?_⟩
      rcases Bool.or_eq_true_iff.1 stale with zero | stale
      · rw [beq_iff_eq.1 zero]
        exact UInt64.zero_le
      · exact decide_eq_true_iff.1 stale
  next fresh =>
  rw [admission_keeps_identifier dispatches]
  rw [Bool.or_eq_true_iff, not_or, decide_eq_true_iff, UInt64.not_le] at fresh
  exact ⟨UInt64.le_of_lt fresh.2, fun _ => UInt64.le_refl _⟩

end Frames

/-! ## Every reply of a run -/

def Exchange.terminal (exchange : Exchange) : Bool :=
  (settle exchange.status exchange.after.fixture).terminal

/-- What a reply may do, judged by the replies before it. -/
structure Exchange.Obeys (options : ControlOptions) (start : Owner) (past : List Exchange)
    (exchange : Exchange) : Prop where
  linked : exchange.before = (past.getLast?.map (·.after)).getD start
  executes : exchange.after.fixture.executedCount = exchange.before.fixture.executedCount + 1 ↔
    Ran exchange.request exchange.status
  admitted : Ran exchange.request exchange.status →
    exchange.wellFramed = true ∧ exchange.request.generation = options.runGeneration
      ∧ exchange.request.executedCount = exchange.before.fixture.executedCount
      ∧ ∀ earlier ∈ past, earlier.wellFramed = true →
        earlier.request.requestId < exchange.request.requestId
  otherwise : ¬ Ran exchange.request exchange.status →
    exchange.after.fixture = exchange.before.fixture
      ∧ exchange.after.recorder = exchange.before.recorder
  serving : ∀ earlier ∈ past, earlier.delivered = true ∧ earlier.terminal = false

/-- How many replies ran an instruction. -/
def executions (exchanges : List Exchange) : Nat :=
  exchanges.countP fun exchange => Ran exchange.request exchange.status

structure Accounted (options : ControlOptions) (start : Owner) (control : Control) : Prop where
  lawful : Machine.Lawful (Exchange.Obeys options start) control.exchanges
  linked : control.owner = (control.exchanges.getLast?.map (·.after)).getD start
  identifiers : ∀ exchange ∈ control.exchanges, exchange.wellFramed = true →
    exchange.request.requestId ≤ control.owner.lastRequestId
  counted : control.owner.fixture.executedCount.toNat = executions control.exchanges
  serving : control.exit = none →
    ∀ exchange ∈ control.exchanges, exchange.delivered = true ∧ exchange.terminal = false

section Runs

variable {options : ControlOptions} {env : Environment} {start : Owner} {control : Control}

theorem executed_toNat {count : UInt64} (within : count < 16) :
    (count + 1).toNat = count.toNat + 1 := by
  have := UInt64.lt_iff_toNat_lt.1 within
  rw [UInt64.toNat_add, UInt64.toNat_one]
  exact Nat.mod_eq_of_lt (by simp at this; omega)

theorem count_ne_next (count : UInt64) : count ≠ count + 1 := by
  intro same
  have := congrArg (· - count) same
  simp at this

theorem Accounted.serve (accounted : Accounted options start control) (serves : control.exit = none)
    (bytes : List UInt8) : Accounted options start (serve options env control bytes) := by
  rcases decoded : decodeRequest bytes with ⟨wellFramed, request⟩
  rcases dispatched : dispatch options env control wellFramed request with
    ⟨status, recorded, owner⟩
  have cases := dispatch_cases dispatched
  obtain ⟨grows, covers⟩ := dispatch_identifier dispatched
  rw [serve_eq decoded dispatched]
  refine ⟨accounted.lawful.snoc ⟨accounted.linked, ?_, ?_, ?_, accounted.serving serves⟩, ?_, ?_, ?_,
    ?_⟩
  · rcases cases with ⟨ran, -, -, -, -, -, count⟩ | ⟨idle, fixture, -⟩
    · exact iff_of_true count ran
    · rw [fixture]
      exact iff_of_false (count_ne_next _) idle
  · intro ran
    rcases cases with ⟨-, framed, fresh, generation, count, -, -⟩ | ⟨idle, -, -⟩
    · exact ⟨framed, generation, count, fun earlier member earlierFramed =>
        UInt64.lt_of_le_of_lt (accounted.identifiers earlier member earlierFramed) fresh⟩
    · exact absurd ran idle
  · intro idle
    rcases cases with ⟨ran, -⟩ | ⟨-, same⟩
    · exact absurd ran idle
    · exact same
  · rw [List.getLast?_concat]
    rfl
  · intro exchange member framed
    rcases List.mem_append.1 member with old | new
    · exact UInt64.le_trans (accounted.identifiers exchange old framed) grows
    · obtain rfl := List.mem_singleton.1 new
      exact covers framed
  · rw [executions, List.countP_append, ← executions, ← accounted.counted]
    rcases cases with ⟨ran, -, -, -, -, within, count⟩ | ⟨idle, fixture, -⟩
    · rw [count, executed_toNat within, List.countP_singleton, if_pos (decide_eq_true ran)]
    · rw [fixture, List.countP_singleton, if_neg (by simpa using idle)]
      rfl
  · intro open' exchange member
    rcases List.mem_append.1 member with old | new
    · exact accounted.serving serves exchange old
    · obtain rfl := List.mem_singleton.1 new
      split at open'
      · cases open'
      · next delivered =>
        split at open'
        · cases open'
        · next lasting => exact ⟨by simpa using delivered, by simpa [Exchange.terminal] using lasting⟩

theorem Accounted.step (accounted : Accounted options start control) :
    Accounted options start (control.step options env) := by
  rw [Control.step]
  split
  · exact accounted
  next serves =>
  split
  · exact ⟨accounted.lawful, accounted.linked, accounted.identifiers, accounted.counted,
      fun ended => by split at ended <;> cases ended⟩
  · exact accounted.serve (by simpa using serves) _

theorem accounted_start : Accounted options (Control.start options env).owner
    (Control.start options env) := by
  have none : (Control.start options env).exchanges = [] := by
    simp only [Control.start]
    repeat' split
    all_goals rfl
  have zero : (Control.start options env).owner.fixture.executedCount = 0 := by
    simp only [Control.start]
    repeat' split
    all_goals rfl
  refine ⟨?_, ?_, ?_, ?_, ?_⟩
  · rw [none]
    exact Machine.lawful_nil
  · rw [none]
    rfl
  · rw [none]
    exact fun _ member => absurd member List.not_mem_nil
  · rw [none, zero]
    rfl
  · rw [none]
    exact fun _ _ member => absurd member List.not_mem_nil

theorem Accounted.after (turns : Nat) : Accounted options (Control.start options env).owner
    (Control.after options env turns) := by
  induction turns with
  | zero => exact accounted_start
  | succ turns ih => exact ih.step

theorem after_exited {turns : Nat} (exited : (Control.after options env turns).exit ≠ none)
    (more : Nat) : Control.after options env (turns + more) = Control.after options env turns := by
  induction more with
  | zero => rfl
  | succ more ih =>
      rw [Nat.add_succ, Control.after, ih, Control.step, if_pos (Option.isSome_iff_ne_none.2 exited)]

end Runs

/-- Over every stream of requests, every sequence of clock readings and after any number of
turns: a reply raises the executed count by one exactly when it is an `ok` to `executeOne`,
and then the request's generation and count were the process's own and its identifier larger
than every well-framed one before; every other request leaves fixture and recorder alone; the
count is the number of those replies; and a terminal reply is the last thing that happens. -/
theorem executes_admitted_requests (options : ControlOptions) (env : Environment) (turns : Nat) :
    let control := Control.after options env turns
    Machine.Lawful (Exchange.Obeys options (Control.start options env).owner) control.exchanges
      ∧ control.owner =
        (control.exchanges.getLast?.map (·.after)).getD (Control.start options env).owner
      ∧ control.owner.fixture.executedCount.toNat = executions control.exchanges
      ∧ ∀ exchange ∈ control.exchanges, exchange.terminal = true →
        ∀ more, Control.after options env (turns + more) = control := by
  have accounted : Accounted options (Control.start options env).owner
    (Control.after options env turns) := .after turns
  refine ⟨accounted.lawful, accounted.linked, accounted.counted, ?_⟩
  intro exchange member terminal more
  refine after_exited (fun serves => ?_) more
  rw [(accounted.serving serves exchange member).2] at terminal
  cases terminal

end Reb.Helper
