/-
# Worker.ObservationQueue -- the queue that worker threads capture into

Every call of `NativeWorkerObservationQueue` as a program of single accesses: each
atomic load, store and exchange is one access, and so is taking or giving back the
mutex.  What a thread does to the data under the mutex stands with the atomic access
next to it, since no other thread sees it in between.

Recorded beside the data: how many records were accepted, and which were taken, when
and under what policy; the clock that the calls read, and who is in `Configure` or
`Disable`.
-/
import Reb.Theory.Interleaving
import Reb.Worker.NativeWorkerObservation

namespace Reb.Worker

set_option autoImplicit false

open Theory.Interleaving

def kNativeWorkerObservationCapacity : Nat := 128

/-! ## Under the mutex -/

/-- A record that `Take` returned, the time it was asked at and the policy in force. -/
structure Taken where
  record : NativeWorkerObservation
  nowNs : Nat
  policy : NativeWorkerObservationPolicy
  deriving DecidableEq

/-- The data the mutex protects.  The ring is the list of its queued records. -/
structure Guarded where
  policy : NativeWorkerObservationPolicy := {}
  greatestGeneration : Nat := 0
  attempted : Nat := 0
  dropped : Nat := 0
  pendingGap : Nat := 0
  retired : Nat := 0
  stale : Nat := 0
  records : List NativeWorkerObservation := []
  accepted : Nat := 0
  taken : List Taken := []
  deriving DecidableEq

namespace Guarded

variable (guarded : Guarded)

def clearLocked : Guarded :=
  { guarded with
    retired := increment guarded.retired guarded.records.length
    records := []
    pendingGap := 0 }

def dropLocked : Guarded :=
  { guarded with
    dropped := increment guarded.dropped
    pendingGap := increment guarded.pendingGap }

def countStale : Guarded := { guarded with stale := increment guarded.stale }

/-- `++stats_.attempted`. -/
def attempt : Guarded := { guarded with attempted := guarded.attempted + 1 }

def configure (policy : NativeWorkerObservationPolicy) : Guarded :=
  { guarded with greatestGeneration := policy.generation, policy }

/-- Input that this attempt drops as invalid. -/
def refuses (ticket : NativeWorkerCaptureTicket) (input : NativeWorkerObservationInput) : Bool :=
  !validInput input ||
    (isMessage input.operation && input.operation != .messageSent && !input.messageTag.empty &&
      (input.messageTag.sessionId != ticket.sessionId ||
        input.messageTag.generation != ticket.generation || input.messageTag.sendSequence == 0 ||
        guarded.attempted ≤ input.messageTag.sendSequence))

def record (ticket : NativeWorkerCaptureTicket) (input : NativeWorkerObservationInput) (nowNs : Nat) :
    NativeWorkerObservation where
  operation := input.operation
  direction := input.direction
  sourceKind := input.sourceKind
  sessionId := guarded.policy.sessionId
  generation := ticket.generation
  sequence := guarded.attempted
  monotonicTimeNs := nowNs
  browserContext := guarded.policy.browserContext
  rendererInstance := guarded.policy.rendererInstance
  worker := guarded.policy.worker
  creator := guarded.policy.creator
  creatorKind := guarded.policy.creatorKind
  sendSequence :=
    if input.operation == .messageSent then guarded.attempted else input.messageTag.sendSequence
  nativeTraceId := input.nativeTraceId
  scriptId := input.scriptId
  droppedBefore := guarded.pendingGap

def accept (record : NativeWorkerObservation) : Guarded :=
  { guarded with
    records := guarded.records ++ [record]
    pendingGap := 0
    accepted := guarded.accepted + 1 }

def take (record : NativeWorkerObservation) (rest : List NativeWorkerObservation) (nowNs : Nat) :
    Guarded :=
  { guarded with
    records := rest
    taken := guarded.taken ++ [⟨record, nowNs, guarded.policy⟩] }

def discard (rest : List NativeWorkerObservation) : Guarded :=
  { guarded with records := rest, retired := increment guarded.retired }

end Guarded

/-! ## Calls -/

structure QueueMemory (ι : Type) where
  activeGeneration : Nat := 0
  readableGeneration : Nat := 0
  sessionId : Nat := 0
  workerHigh : Nat := 0
  workerLow : Nat := 0
  contended : Nat := 0
  contentionOverflow : Bool := false
  guarded : Guarded := {}
  locked : Option ι := none
  clock : Nat := 0
  controllers : List ι := []

inductive QueueCall where
  | configure (policy : NativeWorkerObservationPolicy)
  | disable
  | beginCapture (kind : NativeWorkerKind) (worker creator : NativeWorkerToken)
      (creatorKind : NativeWorkerCreatorKind)
  | capture (ticket : NativeWorkerCaptureTicket) (input : NativeWorkerObservationInput)
  | retire (ticket : NativeWorkerCaptureTicket)
  | take

/-- What a call returns, as far as it returns it. -/
structure QueueResult where
  status : NativeWorkerCaptureStatus := .accepted
  ticket : NativeWorkerCaptureTicket := {}
  record : NativeWorkerObservation := {}
  acceptedTag : NativeWorkerMessageTag := {}

/-- The next access of a thread. -/
inductive QueuePc where
  | idle
  | returned (result : QueueResult)
  | configureActive (policy : NativeWorkerObservationPolicy) (nowNs : Nat)
  | configureReadable (policy : NativeWorkerObservationPolicy) (nowNs : Nat)
  | configureLock (policy : NativeWorkerObservationPolicy) (nowNs : Nat)
  | configureSession (policy : NativeWorkerObservationPolicy)
  | configureWorkerHigh (policy : NativeWorkerObservationPolicy)
  | configureWorkerLow (policy : NativeWorkerObservationPolicy)
  | publishReadable (policy : NativeWorkerObservationPolicy)
  | publishActive (policy : NativeWorkerObservationPolicy)
  | disableActive
  | disableReadable
  | disableLock
  | unlockControl (result : QueueResult)
  | retireActive (ticket : NativeWorkerCaptureTicket)
  | retireSession (ticket : NativeWorkerCaptureTicket)
  | retireWorkerHigh (ticket : NativeWorkerCaptureTicket)
  | retireWorkerLow (ticket : NativeWorkerCaptureTicket)
  | retireExchange (ticket : NativeWorkerCaptureTicket)
  | contend
  | overflow
  | beginActive (kind : NativeWorkerKind) (worker creator : NativeWorkerToken)
      (creatorKind : NativeWorkerCreatorKind) (nowNs : Nat)
  | beginLock (generation : Nat) (worker creator : NativeWorkerToken)
      (creatorKind : NativeWorkerCreatorKind) (nowNs : Nat)
  | beginCheck (generation : Nat) (worker creator : NativeWorkerToken)
      (creatorKind : NativeWorkerCreatorKind) (nowNs : Nat)
  | captureActive (ticket : NativeWorkerCaptureTicket) (input : NativeWorkerObservationInput)
      (nowNs : Nat)
  | captureLock (ticket : NativeWorkerCaptureTicket) (input : NativeWorkerObservationInput)
      (nowNs : Nat)
  | captureCheck (ticket : NativeWorkerCaptureTicket) (input : NativeWorkerObservationInput)
      (nowNs : Nat)
  | captureExhausted
  | captureCommit (ticket : NativeWorkerCaptureTicket) (input : NativeWorkerObservationInput)
      (nowNs : Nat)
  | takeReadable (nowNs : Nat)
  | takeLock (nowNs : Nat)
  | takeCheck (nowNs : Nat)
  | takeCommit (nowNs : Nat)
  | expireActive
  | expireReadable
  | unlock (result : QueueResult)

/-- What an access leaves open: the next call and the time since the last one, and whether
a try-lock fails. -/
structure QueueChoice where
  call : QueueCall := .take
  elapsed : Nat := 0
  fails : Bool := false

def QueueCall.start (nowNs : Nat) : QueueCall → QueuePc
  | .configure policy => .configureActive policy nowNs
  | .disable => .disableActive
  | .beginCapture kind worker creator creatorKind => .beginActive kind worker creator creatorKind nowNs
  | .capture ticket input => .captureActive ticket input nowNs
  | .retire ticket => .retireActive ticket
  | .take => .takeReadable nowNs

section Accesses

variable {ι : Type}

def QueueMemory.setGuarded (memory : QueueMemory ι) (guarded : Guarded) : QueueMemory ι :=
  { memory with guarded }

/-- A try-lock: it fails where another thread holds the mutex, and may fail anyway. -/
def tryLock (thread : ι) (fails : Bool) (memory : QueueMemory ι) (held contended : QueuePc) :
    QueueMemory ι × QueuePc :=
  if memory.locked.isSome || fails then (memory, contended)
  else ({ memory with locked := some thread }, held)

/-- The section of `Configure` up to its first store. -/
def configureSection (thread : ι) (policy : NativeWorkerObservationPolicy) (nowNs : Nat)
    (memory : QueueMemory ι) : QueueMemory ι × QueuePc :=
  let cleared := memory.guarded.clearLocked
  if !validPolicy policy || policy.generation ≤ cleared.greatestGeneration ||
      policy.expiresAtMonotonicNs ≤ nowNs then
    ({ memory with locked := some thread, guarded := cleared }, .unlockControl { status := .invalid })
  else
    ({ memory with locked := some thread, guarded := cleared.configure policy },
      .configureSession policy)

def beginSection (generation : Nat) (worker creator : NativeWorkerToken)
    (creatorKind : NativeWorkerCreatorKind) (nowNs : Nat) (memory : QueueMemory ι) :
    QueueMemory ι × QueuePc :=
  let policy := memory.guarded.policy
  if memory.activeGeneration != generation then
    (memory.setGuarded memory.guarded.countStale, .unlock { status := .staleGeneration })
  else if policy.expiresAtMonotonicNs ≤ nowNs then (memory, .expireActive)
  else if worker != policy.worker || creator != policy.creator || creatorKind != policy.creatorKind then
    (memory, .unlock { status := .wrongWorker })
  else (memory, .unlock { ticket := ⟨policy.sessionId, generation, worker⟩ })

def captureSection (ticket : NativeWorkerCaptureTicket) (input : NativeWorkerObservationInput)
    (nowNs : Nat) (memory : QueueMemory ι) : QueueMemory ι × QueuePc :=
  let policy := memory.guarded.policy
  let attempted := memory.guarded.attempt
  if ticket.generation != policy.generation || ticket.sessionId != policy.sessionId ||
      ticket.worker != policy.worker || memory.activeGeneration != ticket.generation then
    (memory.setGuarded memory.guarded.countStale, .unlock { status := .staleGeneration })
  else if policy.expiresAtMonotonicNs ≤ nowNs then (memory, .expireActive)
  else if memory.guarded.attempted == uint64Max then (memory, .captureExhausted)
  else if attempted.refuses ticket input then
    (memory.setGuarded attempted.dropLocked, .unlock { status := .invalid })
  else if attempted.records.length == kNativeWorkerObservationCapacity then
    (memory.setGuarded attempted.dropLocked, .unlock { status := .full })
  else (memory, .captureCommit ticket input nowNs)

/-- The attempt counts and the record is made with the last look at `active_generation_`. -/
def captureCommit (ticket : NativeWorkerCaptureTicket) (input : NativeWorkerObservationInput)
    (nowNs : Nat) (memory : QueueMemory ι) : QueueMemory ι × QueuePc :=
  let attempted := memory.guarded.attempt
  let record := attempted.record ticket input nowNs
  if memory.activeGeneration != ticket.generation then
    (memory.setGuarded attempted.countStale.dropLocked, .unlock { status := .staleGeneration })
  else
    (memory.setGuarded (attempted.accept record), .unlock
      { acceptedTag :=
          if input.operation == .messageSent then ⟨record.sessionId, record.generation, record.sequence⟩
          else {} })

def takeSection (nowNs : Nat) (memory : QueueMemory ι) : QueueMemory ι × QueuePc :=
  if memory.readableGeneration != memory.guarded.policy.generation then
    (memory, .unlock { status := .staleGeneration })
  else if memory.guarded.policy.expiresAtMonotonicNs ≤ nowNs then (memory, .expireActive)
  else if memory.guarded.records.isEmpty then (memory, .unlock { status := .empty })
  else (memory, .takeCommit nowNs)

/-- The record leaves the ring with the last look at `readable_generation_`. -/
def takeCommit (nowNs : Nat) (memory : QueueMemory ι) : QueueMemory ι × QueuePc :=
  match memory.guarded.records with
  | [] => (memory, .unlock { status := .empty })
  | record :: rest =>
      if memory.readableGeneration != record.generation then
        (memory.setGuarded (memory.guarded.discard rest), .unlock { status := .staleGeneration })
      else (memory.setGuarded (memory.guarded.take record rest nowNs), .unlock { record })

def queueAccess (thread : ι) (choice : QueueChoice) (memory : QueueMemory ι) [DecidableEq ι] :
    QueuePc → QueueMemory ι × QueuePc
  | .idle | .returned _ =>
      let nowNs := memory.clock + choice.elapsed
      ({ memory with clock := nowNs }, choice.call.start nowNs)
  -- Configure
  | .configureActive policy nowNs =>
      ({ memory with activeGeneration := 0, controllers := thread :: memory.controllers },
        .configureReadable policy nowNs)
  | .configureReadable policy nowNs =>
      ({ memory with readableGeneration := 0 }, .configureLock policy nowNs)
  | .configureLock policy nowNs =>
      if memory.locked.isSome then (memory, .configureLock policy nowNs)
      else configureSection thread policy nowNs memory
  | .configureSession policy =>
      ({ memory with sessionId := policy.sessionId }, .configureWorkerHigh policy)
  | .configureWorkerHigh policy =>
      ({ memory with workerHigh := policy.worker.high }, .configureWorkerLow policy)
  | .configureWorkerLow policy =>
      ({ memory with workerLow := policy.worker.low }, .publishReadable policy)
  | .publishReadable policy =>
      ({ memory with readableGeneration := policy.generation }, .publishActive policy)
  | .publishActive policy =>
      ({ memory with activeGeneration := policy.generation }, .unlockControl {})
  -- Disable
  | .disableActive =>
      ({ memory with activeGeneration := 0, controllers := thread :: memory.controllers },
        .disableReadable)
  | .disableReadable => ({ memory with readableGeneration := 0 }, .disableLock)
  | .disableLock =>
      if memory.locked.isSome then (memory, .disableLock)
      else ({ memory with locked := some thread, guarded := memory.guarded.clearLocked },
        .unlockControl {})
  | .unlockControl result =>
      ({ memory with locked := none, controllers := memory.controllers.erase thread },
        .returned result)
  -- Retire
  | .retireActive ticket =>
      if memory.activeGeneration == 0 || memory.activeGeneration != ticket.generation then
        (memory, .returned {})
      else (memory, .retireSession ticket)
  | .retireSession ticket =>
      if ticket.sessionId != memory.sessionId then (memory, .returned {})
      else (memory, .retireWorkerHigh ticket)
  | .retireWorkerHigh ticket =>
      if ticket.worker.high != memory.workerHigh then (memory, .returned {})
      else (memory, .retireWorkerLow ticket)
  | .retireWorkerLow ticket =>
      if ticket.worker.low != memory.workerLow then (memory, .returned {})
      else (memory, .retireExchange ticket)
  | .retireExchange ticket =>
      if memory.activeGeneration == ticket.generation then
        ({ memory with activeGeneration := 0 }, .returned {})
      else (memory, .returned {})
  -- CountContention
  | .contend =>
      ({ memory with contended := (memory.contended + 1) % 2 ^ 64 },
        if memory.contended == uint64Max then .overflow else .returned { status := .busy })
  | .overflow => ({ memory with contentionOverflow := true }, .returned { status := .busy })
  -- Begin
  | .beginActive kind worker creator creatorKind nowNs =>
      if memory.activeGeneration == 0 then (memory, .returned { status := .disabled })
      else if kind != .dedicated then (memory, .returned { status := .unsupportedWorker })
      else (memory, .beginLock memory.activeGeneration worker creator creatorKind nowNs)
  | .beginLock generation worker creator creatorKind nowNs =>
      tryLock thread choice.fails memory (.beginCheck generation worker creator creatorKind nowNs)
        .contend
  | .beginCheck generation worker creator creatorKind nowNs =>
      beginSection generation worker creator creatorKind nowNs memory
  -- Capture
  | .captureActive ticket input nowNs =>
      if memory.activeGeneration == 0 then (memory, .returned { status := .disabled })
      else (memory, .captureLock ticket input nowNs)
  | .captureLock ticket input nowNs =>
      tryLock thread choice.fails memory (.captureCheck ticket input nowNs) .contend
  | .captureCheck ticket input nowNs => captureSection ticket input nowNs memory
  | .captureExhausted =>
      ({ memory with activeGeneration := 0, guarded := memory.guarded.dropLocked },
        .unlock { status := .full })
  | .captureCommit ticket input nowNs => captureCommit ticket input nowNs memory
  -- Take
  | .takeReadable nowNs =>
      if memory.readableGeneration == 0 then (memory, .returned { status := .disabled })
      else (memory, .takeLock nowNs)
  | .takeLock nowNs =>
      tryLock thread choice.fails memory (.takeCheck nowNs) (.returned { status := .busy })
  | .takeCheck nowNs => takeSection nowNs memory
  | .takeCommit nowNs => takeCommit nowNs memory
  -- Expiry, noticed under the mutex
  | .expireActive => ({ memory with activeGeneration := 0 }, .expireReadable)
  | .expireReadable =>
      ({ memory with readableGeneration := 0, guarded := memory.guarded.clearLocked },
        .unlock { status := .expired })
  | .unlock result => ({ memory with locked := none }, .returned result)

def observationMachine (ι : Type) [DecidableEq ι] :
    Machine (fun _ : ι => QueuePc) (QueueMemory ι) QueueChoice :=
  fun thread choice memory pc => queueAccess thread choice memory pc

abbrev QueueConfig (ι : Type) : Type := Config (fun _ : ι => QueuePc) (QueueMemory ι)

/-- The queue as constructed, every thread between two calls. -/
def unconfigured (ι : Type) : QueueConfig ι := ⟨{}, fun _ => .idle⟩

/-- `Configure` and `Disable` are control operations: one is not begun beside another. -/
def QueuePc.startsControl : QueuePc → Bool
  | .configureActive _ _ | .disableActive => true
  | _ => false

def serialized (_ : ι) (memory : QueueMemory ι) (pc : QueuePc) : Prop :=
  pc.startsControl = true → memory.controllers = []

end Accesses

end Reb.Worker
