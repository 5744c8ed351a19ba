/-
# Helper.ControlMain -- the request loop of the helper process

The peer writes frames of forty bytes and closes the pipe; the helper answers
each frame with one reply until a reply retires it.  A process is a state and a
step: one step reads one frame, guards it, may run one instruction, and answers.

The environment is arbitrary: the bytes that arrive, whether the pipe breaks or
closes after them, every reading of the clock, and whether a reply could be
composed and written.  `exchanges` is the process's own account of its replies.
-/
import Reb.Helper.NativeVmRecorder
import Reb.Theory.LittleEndian

namespace Reb.Helper

set_option autoImplicit false

open Reb.Theory

/-! ## The pipe protocol -/

def kMagic : UInt32 := 0x314d5652

def kVersion : UInt16 := 1

def kRequestBytes : Nat := 40

def kMaxLifetimeMs : UInt64 := 60000

inductive Operation where
  | inspect | executeOne | close
  deriving DecidableEq, Repr

inductive Status where
  | ok | malformed | staleGeneration | countMismatch | requestId | expired | halted
  | resourceLimit | fixtureError | closed
  deriving DecidableEq, Repr

def Status.code : Status → UInt16
  | .ok => 0
  | .malformed => 1
  | .staleGeneration => 2
  | .countMismatch => 3
  | .requestId => 4
  | .expired => 5
  | .halted => 6
  | .resourceLimit => 7
  | .fixtureError => 8
  | .closed => 9

structure Request where
  operation : Operation := .inspect
  requestId : UInt64 := 0
  generation : UInt64 := 0
  executedCount : UInt64 := 0
  deriving DecidableEq, Repr

def readLe (bytes : List UInt8) (offset width : Nat) : Nat :=
  LittleEndian.ofBytes (LittleEndian.window bytes offset width)

/-- The verdict on a frame, and the request; a malformed frame's identifier is still echoed. -/
def decodeRequest (bytes : List UInt8) : Bool × Request :=
  let request : Request :=
    { requestId := (readLe bytes 8 8).toUInt64
      generation := (readLe bytes 16 8).toUInt64
      executedCount := (readLe bytes 24 8).toUInt64 }
  let operation := readLe bytes 6 2
  if readLe bytes 0 4 != kMagic.toNat || readLe bytes 4 2 != kVersion.toNat
      || readLe bytes 32 8 != 0 || operation < 1 || operation > 3 then (false, request)
  else
    (true, { request with
      operation := if operation == 1 then .inspect
        else if operation == 2 then .executeOne else .close })

def expired (now previous deadline : UInt64) : Bool :=
  now == 0 || now < previous || now ≥ deadline

/-! ## Settling -/

inductive ReplyState where
  | paused | halted | expired | stopped | failed
  deriving DecidableEq, Repr

structure Outcome where
  state : ReplyState
  terminal : Bool
  exitCode : Nat
  deriving DecidableEq, Repr

/-- A reply's wire state, retirement and exit code all follow from its status.  Only replies
that leave the helper available report the fixture's own state. -/
def settle (status : Status) (fixture : OwnedVmFixture) : Outcome :=
  match status with
  | .malformed | .fixtureError => ⟨.failed, true, 2⟩
  | .resourceLimit => ⟨.failed, true, 0⟩
  | .expired => ⟨.expired, true, 0⟩
  | .closed => ⟨.stopped, true, 0⟩
  | .ok | .staleGeneration | .countMismatch | .requestId | .halted =>
      ⟨if fixture.state.halted then .halted else .paused, false, 0⟩

/-! ## The process -/

/-- What `ControlArguments` admits: every identifier is nonzero, the lifetime bounded. -/
structure ControlOptions where
  architecture : OwnedVmArchitecture
  sessionId : UInt64
  documentId : UInt64
  invocationId : UInt64
  runGeneration : UInt64
  lifetimeMs : UInt64
  nonzero : sessionId ≠ 0 ∧ documentId ≠ 0 ∧ invocationId ≠ 0 ∧ runGeneration ≠ 0 ∧ lifetimeMs ≠ 0
  bounded : lifetimeMs ≤ kMaxLifetimeMs

structure Environment where
  /-- Everything the peer writes before it closes the pipe. -/
  input : List UInt8
  /-- Reading past the input fails instead of finding it closed. -/
  readError : Bool := false
  /-- The readings of the monotonic clock, in order; zero when it is not positive. -/
  clock : Nat → UInt64
  /-- Whether each reply fits its buffer and is written out. -/
  delivered : Nat → Bool

/-- What the control owner holds while it serves. -/
structure Owner where
  fixture : OwnedVmFixture
  recorder : NativeVmRecorder
  lastNow : UInt64
  lastRequestId : UInt64 := 0
  /-- How many times the clock has been read. -/
  readings : Nat
  deriving DecidableEq, Repr

/-- One reply: the frame that it answers, and the owner before and after. -/
structure Exchange where
  wellFramed : Bool
  request : Request
  status : Status
  recorded : Option VmRecordResult
  before : Owner
  after : Owner
  delivered : Bool
  deriving DecidableEq, Repr

structure Control where
  owner : Owner
  scope : VmScope
  recorderGeneration : UInt64
  input : List UInt8
  /-- Whether the reply that opens the session was composed. -/
  announced : Bool := false
  exchanges : List Exchange := []
  exit : Option Nat := none
  deriving DecidableEq, Repr

section Process

variable (options : ControlOptions) (env : Environment)

def scopeUntil (expiresAt : UInt64) : VmScope :=
  ⟨options.sessionId, options.documentId, options.invocationId, expiresAt⟩

/-- The guards after the frame was found well formed and its identifier fresh, and the
instruction they admit. -/
def admission (control : Control) (request : Request) (owner : Owner) :
    Status × Option VmRecordResult × Owner :=
  -- No later identifier can be admitted, whatever the other guards say.
  if request.requestId == 0xffffffffffffffff then (.resourceLimit, none, owner)
  else if request.generation != options.runGeneration then (.staleGeneration, none, owner)
  else if request.executedCount != owner.fixture.executedCount then (.countMismatch, none, owner)
  else
    -- The deadline of a replacement run is not inspected for a stale identity or count.
    let now := env.clock owner.readings
    let owner := { owner with readings := owner.readings + 1 }
    if expired now owner.lastNow control.scope.expiresAt then (.expired, none, owner)
    else
      let owner := { owner with lastNow := now }
      match request.operation with
      | .close => (.closed, none, owner)
      | .inspect => (.ok, none, owner)
      | .executeOne =>
          let (execution, fixture, recorder) :=
            owner.fixture.executeOne owner.recorder control.scope.documentId
              control.recorderGeneration now
          let owner := { owner with fixture, recorder }
          match execution.status with
          | .committed => (.ok, some execution.recorderResult, owner)
          | .halted => (.halted, none, owner)
          | .budget => (.resourceLimit, none, owner)
          | .invalidState => (.fixtureError, none, owner)

/-- Every guard, in the order of the source. -/
def dispatch (control : Control) (wellFramed : Bool) (request : Request) :
    Status × Option VmRecordResult × Owner :=
  let owner := control.owner
  if !wellFramed then (.malformed, none, owner)
  else if request.requestId == 0 || request.requestId ≤ owner.lastRequestId then
    (.requestId, none, owner)
  else
    -- Even a well-framed guard rejection consumes its identifier.
    admission options env control request { owner with lastRequestId := request.requestId }

/-- Answer one frame. -/
def serve (control : Control) (bytes : List UInt8) : Control :=
  let (wellFramed, request) := decodeRequest bytes
  let (status, recorded, owner) := dispatch options env control wellFramed request
  let outcome := settle status owner.fixture
  -- Reply number zero is the one that announced the process.
  let delivered := env.delivered (control.exchanges.length + 1)
  { control with
    owner
    input := control.input.drop kRequestBytes
    exchanges := control.exchanges
      ++ [⟨wellFramed, request, status, recorded, control.owner, owner, delivered⟩]
    exit := if !delivered then some 1 else if outcome.terminal then some outcome.exitCode else none }

theorem serve_eq {options : ControlOptions} {env : Environment} {control : Control}
    {bytes : List UInt8} {wellFramed : Bool} {request : Request} {status : Status}
    {recorded : Option VmRecordResult} {owner : Owner}
    (decoded : decodeRequest bytes = (wellFramed, request))
    (dispatched : dispatch options env control wellFramed request = (status, recorded, owner)) :
    serve options env control bytes =
      { control with
        owner
        input := control.input.drop kRequestBytes
        exchanges := control.exchanges ++ [⟨wellFramed, request, status, recorded, control.owner,
          owner, env.delivered (control.exchanges.length + 1)⟩]
        exit := if !env.delivered (control.exchanges.length + 1) then some 1
          else if (settle status owner.fixture).terminal then
            some (settle status owner.fixture).exitCode
          else none } := by
  simp only [serve, decoded, dispatched]

/-- One turn of the loop. -/
def Control.step (control : Control) : Control :=
  if control.exit.isSome then control
  else if control.input.length < kRequestBytes then
    { control with
      exit := if control.input.isEmpty && !env.readError then some 0 else some 2 }
  else serve options env control (control.input.take kRequestBytes)

/-- The process before its loop: how it ends when it cannot start. -/
def Control.start : Control :=
  let now := env.clock 0
  let lifetimeNs := options.lifetimeMs * 1000000
  let fixture := OwnedVmFixture.ofArchitecture options.architecture
  let (enabled, recorder) :=
    ({} : NativeVmRecorder).enable (scopeUntil options (now + lifetimeNs)) now
  let control : Control :=
    { owner := { fixture, recorder, lastNow := now, readings := 1 }
      scope := scopeUntil options (now + lifetimeNs)
      recorderGeneration := recorder.generation
      input := env.input }
  if now == 0 || now > 0xffffffffffffffff - lifetimeNs then { control with exit := some 1 }
  else if !enabled then { control with exit := some 1 }
  else { control with announced := true, exit := if env.delivered 0 then none else some 1 }

/-- The process after so many turns of its loop. -/
def Control.after : Nat → Control
  | 0 => .start options env
  | turns + 1 => (Control.after turns).step options env

end Process

end Reb.Helper
