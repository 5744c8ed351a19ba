/-
# Debugger.NativeReply -- what a VM helper may report, and what is believed of it

The helper is a separate process that nothing is assumed of.  `validateNative`
judges one reply against the view of the run it belongs to; it reads the run's
scope and the part of the view that `Trace` holds, and it answers with the
uncertain error for every reply it does not believe.
-/
import Mathlib

namespace Reb.Debugger

set_option autoImplicit false

/-! ## Errors -/

inductive Code where
  | unspecified | invalidRequest | stateConflict | protocolError | staleGeneration
  | targetUnavailable | dependencyUnavailable | resourceLimit | timeout | cancelled
  | commandOutcomeUnknown | applicationFailed | idleBackend | nativeCaptureUnavailable
  | debuggerUnavailable
  deriving DecidableEq, Repr

inductive Phase where
  | requestBody | worker | commandExchange
  deriving DecidableEq, Repr

inductive Cause where
  | timeout | disconnected | transportFailure | invalidReply
  deriving DecidableEq, Repr

/-- A stable reason; of its details only the two an uncertain outcome sets. -/
structure Reason where
  code : Code
  phase : Option Phase := none
  cause : Option Cause := none
  deriving DecidableEq, Repr

def Reason.uncertain (cause : Cause) : Reason where
  code := .commandOutcomeUnknown
  phase := some .commandExchange
  cause := some cause

structure Error where
  status : Nat
  message : String
  reason : Reason := { code := .unspecified }
  deriving DecidableEq, Repr

namespace Error

def withCode (error : Error) (code : Code) : Error := { error with reason := { code } }

def withReason (error : Error) (reason : Reason) : Error := { error with reason }

def conflict (message : String) : Error := { status := 409, message, reason := { code := .stateConflict } }

end Error

def uncertain (cause : Cause) : Error :=
  ({ status := 502
     message := "Owned VM instruction outcome is unknown; reset the selected run" } : Error).withReason
    (.uncertain cause)

/-! ## Views -/

/-- `u64::checked_add`. -/
def checkedAdd (a b : UInt64) : Option UInt64 :=
  if a.toNat + b.toNat < 2 ^ 64 then some (a + b) else none

inductive Fixture where
  | register | stack
  deriving DecidableEq, Repr

def Fixture.program : Fixture → String
  | .register => "owned-register-v1"
  | .stack => "owned-stack-v1"

inductive Evidence where
  | observed | inferred | unknown
  deriving DecidableEq, Repr

structure GuestValue where
  bits : UInt64
  evidence : Evidence
  deriving DecidableEq, Repr

def GuestValue.valid (v : GuestValue) : Bool := v.evidence != .unknown || v.bits == 0

def GuestValue.unknown : GuestValue := ⟨0, .unknown⟩

structure MemoryCell where
  guestAddress : UInt64
  value : GuestValue
  deriving DecidableEq, Repr

structure Snapshot where
  pc : UInt64
  pcEvidence : Evidence
  isPartial : Bool
  halted : Bool
  registers : List GuestValue
  stack : List GuestValue
  memory : List MemoryCell
  deriving DecidableEq, Repr

def pcs : List UInt64 := [0, 1, 2, 3, 4, 5, 6, 8, 10, 10]

def stackCounts : List Nat := [0, 1, 2, 1, 0, 1, 1, 1, 1, 1]

namespace Snapshot

def initial (fixture : Fixture) : Snapshot where
  pc := 0
  pcEvidence := .observed
  isPartial := false
  halted := false
  registers := if fixture = .register then List.replicate 3 .unknown else []
  stack := []
  memory := []

def valid (s : Snapshot) (fixture : Fixture) : Bool :=
  s.pc ≤ 10 && (s.pcEvidence != .unknown || s.pc == 0)
    && s.registers.length == (if fixture = .register then 3 else 0)
    && s.stack.length ≤ (if fixture = .stack then 8 else 0)
    && s.memory.length ≤ 8
    && (s.registers ++ s.stack).all GuestValue.valid
    -- Each address is inserted in a set that must not hold it yet.
    && s.memory.all (fun c => c.value.valid) && (s.memory.map (·.guestAddress)).Nodup

/-- How many stack slots and memory cells the fixture has after `count` instructions. -/
def stackAt (fixture : Fixture) (count : UInt64) : Nat :=
  if fixture = .stack then stackCounts.getD count.toNat 0 else 0

def memoryAt (count : UInt64) : Nat := if count ≥ 4 then 1 else 0

def validAt (s : Snapshot) (fixture : Fixture) (count : UInt64) : Bool :=
  count ≤ 9 && s.valid fixture && s.stack.length == stackAt fixture count
    && s.memory.length == memoryAt count && s.memory.all (fun cell => cell.guestAddress == 16)

end Snapshot

inductive Location where
  | immediate | register | stack | memory
  deriving DecidableEq, Repr

def Location.valid : Location → UInt64 → Bool
  | .immediate, index => index == 0
  | .register, index | .stack, index => index < 8
  | .memory, _ => true

inductive Access where
  | read | write
  deriving DecidableEq, Repr

structure Operand where
  location : Location
  index : UInt64
  value : GuestValue
  deriving DecidableEq, Repr

structure Effect where
  access : Access
  location : Location
  index : UInt64
  value : GuestValue
  deriving DecidableEq, Repr

structure Record where
  sequence : UInt64
  tick : UInt64
  opcode : UInt32
  opcodeEvidence : Evidence
  isPartial : Bool
  operands : List Operand
  effects : List Effect
  before : Snapshot
  after : Snapshot
  deriving DecidableEq, Repr

def Record.valid (r : Record) (fixture : Fixture) : Bool :=
  r.sequence > 0 && r.tick > 0 && r.opcode ≤ 8
    && (r.opcodeEvidence != .unknown || r.opcode == 0)
    && r.operands.length ≤ 4 && r.effects.length ≤ 8
    && r.before.valid fixture && r.after.valid fixture
    && r.operands.all (fun o => o.location.valid o.index && o.value.valid)
    && r.effects.all fun e => e.location != .immediate && e.location.valid e.index && e.value.valid

structure RecorderStats where
  attempted : UInt64 := 0
  recorded : UInt64 := 0
  full : UInt64 := 0
  malformed : UInt64 := 0
  wrongDocument : UInt64 := 0
  staleGeneration : UInt64 := 0
  exhausted : UInt64 := 0
  expired : UInt64 := 0
  isPartial : UInt64 := 0
  deriving DecidableEq, Repr

inductive RecorderResult where
  | recorded | disabled | staleGeneration | wrongDocument | expired | malformed | full | exhausted
  deriving DecidableEq, Repr

inductive NativeState where
  | paused | halted | expired | stopped | failed
  deriving DecidableEq, Repr

structure NativeView where
  schema : String
  fixture : Fixture
  programId : String
  fixtureRevision : UInt32
  sessionId : UInt64
  documentId : UInt64
  invocationId : UInt64
  runGeneration : UInt64
  state : NativeState
  executedCount : UInt64
  retainedCount : UInt64
  snapshot : Snapshot
  transition : Option Record
  recorderResult : Option RecorderResult
  stats : RecorderStats
  tickUnits : String
  deriving DecidableEq, Repr

structure NativeReply where
  status : UInt16
  view : NativeView
  deriving DecidableEq, Repr

structure SpawnSpec where
  fixture : Fixture
  session : UInt64
  generation : UInt64
  deriving DecidableEq, Repr

/-- The part of a session view that is only ever copied from a validated reply. -/
structure Trace where
  executedCount : UInt64 := 0
  retainedCount : UInt64 := 0
  initialSnapshot : Option Snapshot := none
  currentSnapshot : Option Snapshot := none
  records : List Record := []
  stats : RecorderStats := {}
  deriving DecidableEq, Repr

/-- The trace after a validated reply; the first reply gives the initial snapshot. -/
def Trace.store (t : Trace) (reply : NativeView) : Trace where
  executedCount := reply.executedCount
  retainedCount := reply.retainedCount
  initialSnapshot := if t.initialSnapshot.isNone then some reply.snapshot else t.initialSnapshot
  currentSnapshot := some reply.snapshot
  records := t.records ++ reply.transition.toList
  stats := reply.stats

/-! ## Validation -/

namespace NativeView

/-- The first test of every reply: scope, snapshot, and counters among themselves. -/
def consistent (v : NativeView) (spec : SpawnSpec) : Bool :=
  v.schema == "reb-owned-vm-helper-v1" && v.fixture == spec.fixture
    && v.programId == spec.fixture.program && v.fixtureRevision == 1
    && v.sessionId == spec.session && v.documentId == 1
    && v.invocationId == spec.generation && v.runGeneration == spec.generation
    && v.tickUnits == "monotonic-nanoseconds"
    && v.snapshot.validAt v.fixture v.executedCount
    && v.executedCount ≤ 9 && v.retainedCount ≤ 64
    && v.retainedCount == v.stats.recorded
    && v.stats.recorded ≤ v.executedCount
    && v.stats.isPartial ≤ v.stats.recorded
    && v.stats.attempted ≤ v.executedCount
    && ((checkedAdd v.stats.recorded v.stats.full).bind (checkedAdd · v.stats.malformed))
      == some v.stats.attempted
    && v.snapshot.pc == pcs.getD v.executedCount.toNat 0
    && v.snapshot.halted == (v.executedCount == 9)

/-- The reply that may answer a start. -/
def initial (v : NativeView) (status : UInt16) : Bool :=
  status == 0 && v.state == .paused && v.executedCount == 0 && v.retainedCount == 0
    && v.transition.isNone && v.recorderResult.isNone && v.stats == {}
    && v.snapshot == .initial v.fixture

/-- The native state that a nonzero status goes with. -/
def refusedState (v : NativeView) (status : UInt16) : NativeState :=
  if status = 1 ∨ status = 7 ∨ status = 8 then .failed
  else if status = 5 then .expired
  else if status = 6 then .halted
  else if status = 9 then .stopped
  else if v.snapshot.halted then .halted else .paused

/-- The reply that may refuse an instruction: nothing has changed. -/
def refused (v : NativeView) (status : UInt16) (old : Trace) : Bool :=
  !(status == 9 || (status == 6 && !v.snapshot.halted))
    && v.executedCount == old.executedCount && old.currentSnapshot == some v.snapshot
    && v.retainedCount == old.retainedCount && v.state == v.refusedState status
    && v.transition.isNone && v.recorderResult.isNone && v.stats == old.stats

end NativeView

/-- No counter falls, none grows by more than one. -/
def RecorderStats.advances (now old : RecorderStats) : Bool :=
  [(now.attempted, old.attempted), (now.recorded, old.recorded), (now.full, old.full),
    (now.malformed, old.malformed), (now.wrongDocument, old.wrongDocument),
    (now.staleGeneration, old.staleGeneration), (now.exhausted, old.exhausted),
    (now.expired, old.expired), (now.isPartial, old.isPartial)].all
    fun (a, b) => !(a < b || a - b > 1)

/-- The counters a recorder result leads to; `none` when a counter would overflow. -/
def RecorderStats.expected (old : RecorderStats) (transition : Option Record) :
    RecorderResult → Option RecorderStats
  | .recorded => do
      let attempted ← checkedAdd old.attempted 1
      let recorded ← checkedAdd old.recorded 1
      let isPartial ←
        if transition.any fun r => r.isPartial || r.before.isPartial || r.after.isPartial then
          checkedAdd old.isPartial 1
        else some old.isPartial
      return { old with attempted, recorded, isPartial }
  | .full => do
      let attempted ← checkedAdd old.attempted 1
      let full ← checkedAdd old.full 1
      return { old with attempted, full }
  | .malformed => do
      let attempted ← checkedAdd old.attempted 1
      let malformed ← checkedAdd old.malformed 1
      return { old with attempted, malformed }
  | .wrongDocument => do return { old with wrongDocument := ← checkedAdd old.wrongDocument 1 }
  | .staleGeneration => do return { old with staleGeneration := ← checkedAdd old.staleGeneration 1 }
  | .expired => do return { old with expired := ← checkedAdd old.expired 1 }
  | .exhausted => do return { old with exhausted := ← checkedAdd old.exhausted 1 }
  | .disabled => some old

namespace NativeView

/-- The record joins the trace exactly where the trace ends. -/
def continues (v : NativeView) (record : Record) (old : Trace) : Bool :=
  record.valid v.fixture && old.records.length < 64 && record.after == v.snapshot
    && old.currentSnapshot == some record.before && record.sequence == v.stats.attempted
    && v.retainedCount == old.retainedCount + 1 && v.stats.attempted == old.stats.attempted + 1
    && !old.records.getLast?.any fun r => r.sequence ≥ record.sequence || r.tick > record.tick

/-- The reply that may answer an executed instruction. -/
def executed (v : NativeView) (old : Trace) : Bool :=
  checkedAdd old.executedCount 1 == some v.executedCount
    && v.state == (if v.snapshot.halted then .halted else .paused)
    && v.stats.advances old.stats
    && match v.recorderResult with
      | none => false
      | some result =>
          old.stats.expected v.transition result == some v.stats
            && match v.transition with
              | some record => result == .recorded && v.continues record old
              | none => result != .recorded && v.retainedCount == old.retainedCount

end NativeView

def NativeReply.believed (reply : NativeReply) (spec : SpawnSpec) (old : Trace) (initial : Bool) :
    Bool :=
  reply.view.consistent spec
    && if initial then reply.view.initial reply.status
      else if reply.status != 0 then reply.view.refused reply.status old
      else reply.view.executed old

def validateNative (spec : SpawnSpec) (old : Trace) (reply : NativeReply) (initial : Bool) :
    Except Error Unit :=
  if reply.believed spec old initial then .ok () else .error (uncertain .invalidReply)

end Reb.Debugger
