/-
# Worker.NativeWorkerObservation -- who may capture what, and one observed event

Tokens, the policy under which one dedicated worker is observed, and the lease that
carries the policy from the browser to a renderer.  The 64-bit words are natural
numbers; where the source stops or saturates at the largest word, so does the model.

The record of an event, what makes it valid for a policy at a time, and the bounded
projection that the browser keeps of the records of one policy.
-/
import Mathlib

namespace Reb.Worker

set_option autoImplicit false

structure NativeWorkerToken where
  high : Nat := 0
  low : Nat := 0
  deriving DecidableEq, Repr

def NativeWorkerToken.valid (token : NativeWorkerToken) : Bool := token.high != 0 || token.low != 0

/-- A `uint16_t` enumeration; its values need not be the two that have names. -/
inductive NativeWorkerCreatorKind where
  | document
  | dedicatedWorker
  | other (value : UInt16)
  deriving DecidableEq, Repr

structure NativeWorkerObservationPolicy where
  sessionId : Nat := 0
  generation : Nat := 0
  expiresAtMonotonicNs : Nat := 0
  browserContext : NativeWorkerToken := {}
  rendererInstance : NativeWorkerToken := {}
  worker : NativeWorkerToken := {}
  creator : NativeWorkerToken := {}
  creatorKind : NativeWorkerCreatorKind := .document
  deriving DecidableEq, Repr

structure NativeWorkerLease where
  policy : NativeWorkerObservationPolicy := {}
  storagePartition : NativeWorkerToken := {}
  selectedFrame : NativeWorkerToken := {}
  selectedDocument : NativeWorkerToken := {}
  connection : NativeWorkerToken := {}
  documentGeneration : Nat := 0
  observerEpoch : Nat := 0
  issuedAtNs : Nat := 0
  deriving DecidableEq, Repr

def kNativeWorkerMaxLeaseNs : Nat := 600000000000

def isValidNativeWorkerLease (lease : NativeWorkerLease) (nowNs : Nat) : Bool :=
  let policy := lease.policy
  policy.sessionId != 0 && policy.generation != 0 && policy.browserContext.valid &&
    policy.rendererInstance.valid && policy.worker.valid && policy.creator.valid &&
    policy.worker != policy.creator &&
    (policy.creatorKind == .document || policy.creatorKind == .dedicatedWorker) &&
    lease.storagePartition.valid && lease.selectedFrame.valid &&
    lease.selectedDocument.valid && lease.connection.valid &&
    lease.documentGeneration != 0 && lease.observerEpoch != 0 &&
    lease.issuedAtNs ≤ nowNs && nowNs < policy.expiresAtMonotonicNs &&
    policy.expiresAtMonotonicNs - lease.issuedAtNs ≤ kNativeWorkerMaxLeaseNs

def uint64Max : Nat := 2 ^ 64 - 1

/-- `Increment`: the counters stop at the largest word. -/
def increment (value : Nat) (count : Nat := 1) : Nat :=
  value + min count (uint64Max - value)

/-! ## Observations -/

inductive NativeWorkerKind where
  | dedicated | shared | service
  | other (value : UInt16)
  deriving DecidableEq, Repr

inductive NativeWorkerSourceKind where
  | classic | module
  | other (value : UInt16)
  deriving DecidableEq, Repr

inductive NativeWorkerOperation where
  | objectCreated | globalScopeStarted | scriptCompiled | messageSent | messageReceived
  | messageError | terminateRequested | globalScopeDisposed
  | other (value : UInt16)
  deriving DecidableEq, Repr

inductive NativeWorkerDirection where
  | none | toWorker | toCreator
  | other (value : UInt16)
  deriving DecidableEq, Repr

inductive NativeWorkerCaptureStatus where
  | accepted | disabled | busy | expired | wrongWorker | unsupportedWorker | staleGeneration
  | invalid | full | empty
  deriving DecidableEq, Repr

structure NativeWorkerCaptureTicket where
  sessionId : Nat := 0
  generation : Nat := 0
  worker : NativeWorkerToken := {}
  deriving DecidableEq, Repr

structure NativeWorkerMessageTag where
  sessionId : Nat := 0
  generation : Nat := 0
  sendSequence : Nat := 0
  deriving DecidableEq, Repr

structure NativeWorkerObservationInput where
  operation : NativeWorkerOperation := .objectCreated
  direction : NativeWorkerDirection := .none
  nativeTraceId : Nat := 0
  scriptId : Int := 0
  sourceKind : NativeWorkerSourceKind := .classic
  messageTag : NativeWorkerMessageTag := {}
  deriving DecidableEq, Repr

structure NativeWorkerObservation where
  magic : Nat := 0x4f574252
  version : Nat := 1
  recordSize : Nat := 160
  operation : NativeWorkerOperation := .objectCreated
  workerKind : NativeWorkerKind := .dedicated
  direction : NativeWorkerDirection := .none
  sourceKind : NativeWorkerSourceKind := .classic
  sessionId : Nat := 0
  generation : Nat := 0
  sequence : Nat := 0
  monotonicTimeNs : Nat := 0
  browserContext : NativeWorkerToken := {}
  rendererInstance : NativeWorkerToken := {}
  worker : NativeWorkerToken := {}
  creator : NativeWorkerToken := {}
  nativeTraceId : Nat := 0
  droppedBefore : Nat := 0
  sendSequence : Nat := 0
  scriptId : Int := 0
  creatorKind : NativeWorkerCreatorKind := .document
  reserved : Vector UInt8 18 := .replicate 18 0
  deriving DecidableEq, Repr

def validPolicy (policy : NativeWorkerObservationPolicy) : Bool :=
  policy.sessionId != 0 && policy.generation != 0 && policy.expiresAtMonotonicNs != 0 &&
    policy.browserContext.valid && policy.rendererInstance.valid && policy.worker.valid &&
    policy.creator.valid && policy.worker != policy.creator &&
    (policy.creatorKind == .document || policy.creatorKind == .dedicatedWorker)

def isMessage : NativeWorkerOperation → Bool
  | .messageSent | .messageReceived | .messageError => true
  | _ => false

def NativeWorkerMessageTag.empty (tag : NativeWorkerMessageTag) : Bool :=
  tag.sessionId == 0 && tag.generation == 0 && tag.sendSequence == 0

/-- An operation without a name is outside the range the source checks. -/
def NativeWorkerOperation.named : NativeWorkerOperation → Bool
  | .other _ => false
  | _ => true

def validInput (input : NativeWorkerObservationInput) : Bool :=
  if !input.operation.named || (input.sourceKind != .classic && input.sourceKind != .module) then
    false
  else if isMessage input.operation then
    (input.direction == .toWorker || input.direction == .toCreator) && input.scriptId == 0 &&
      (input.operation != .messageSent || input.messageTag.empty)
  else
    input.direction == .none && input.nativeTraceId == 0 && input.messageTag.empty &&
      (if input.operation == .scriptCompiled then 0 < input.scriptId else input.scriptId == 0)

/-- The input a record was made from, as far as the record tells. -/
def NativeWorkerObservation.input (record : NativeWorkerObservation) :
    NativeWorkerObservationInput where
  operation := record.operation
  direction := record.direction
  nativeTraceId := record.nativeTraceId
  scriptId := record.scriptId
  sourceKind := record.sourceKind
  messageTag :=
    if record.operation == .messageSent || record.sendSequence == 0 then {}
    else ⟨record.sessionId, record.generation, record.sendSequence⟩

def isValidNativeWorkerObservation (record : NativeWorkerObservation)
    (authority : NativeWorkerObservationPolicy) (nowNs : Nat) : Bool :=
  if !validPolicy authority || record.magic != 0x4f574252 || record.version != 1 ||
      record.recordSize != 160 || record.workerKind != .dedicated ||
      record.sessionId != authority.sessionId || record.generation != authority.generation ||
      record.browserContext != authority.browserContext ||
      record.rendererInstance != authority.rendererInstance ||
      record.worker != authority.worker || record.creator != authority.creator ||
      record.creatorKind != authority.creatorKind || nowNs < record.monotonicTimeNs ||
      record.sequence == 0 || authority.expiresAtMonotonicNs ≤ record.monotonicTimeNs ||
      record.reserved.any (· != 0) || !validInput record.input ||
      (record.operation == .messageSent && record.sendSequence != record.sequence) ||
      (isMessage record.operation && record.operation != .messageSent &&
        record.sequence ≤ record.sendSequence) then false
  else nowNs < authority.expiresAtMonotonicNs

/-! ## The projection -/

def kNativeWorkerProjectionCapacity : Nat := 64

structure NativeWorkerMessageLink where
  nativeTraceId : Nat := 0
  direction : NativeWorkerDirection := .none
  sendTag : Nat := 0
  sendSequence : Nat := 0
  receiveSequence : Nat := 0
  receiveError : Bool := false
  ambiguous : Bool := false
  deriving DecidableEq, Repr

structure NativeWorkerScriptObservation where
  scriptId : Int := 0
  sourceKind : NativeWorkerSourceKind := .classic
  compileSequence : Nat := 0
  ambiguous : Bool := false
  deriving DecidableEq, Repr

structure NativeWorkerProjectionStats where
  accepted : Nat := 0
  rejected : Nat := 0
  outOfOrder : Nat := 0
  capacityDrops : Nat := 0
  missingSequences : Nat := 0
  reportedDrops : Nat := 0
  ambiguousIds : Nat := 0
  untaggedReceives : Nat := 0
  retiredEntries : Nat := 0
  lifecycleSeen : Nat := 0
  deriving DecidableEq, Repr

structure NativeWorkerObservationProjection where
  authority : NativeWorkerObservationPolicy := {}
  stats : NativeWorkerProjectionStats := {}
  messages : List NativeWorkerMessageLink := []
  scripts : List NativeWorkerScriptObservation := []
  lastSequence : Nat := 0
  deriving DecidableEq, Repr

namespace NativeWorkerObservationProjection

variable (projection : NativeWorkerObservationProjection)

def reset (authority : NativeWorkerObservationPolicy) :
    Bool × NativeWorkerObservationProjection :=
  if validPolicy authority then (true, { authority }) else (false, {})

def retire : NativeWorkerObservationProjection :=
  { stats := { projection.stats with
      retiredEntries := increment projection.stats.retiredEntries
        (projection.messages.length + projection.scripts.length) } }

def expire (nowNs : Nat) : Bool × NativeWorkerObservationProjection :=
  if projection.authority.generation != 0 && projection.authority.expiresAtMonotonicNs ≤ nowNs then
    (true, projection.retire)
  else (false, projection)

/-- The bit of an operation in `lifecycle_seen`. -/
def lifecycleBit : NativeWorkerOperation → Nat
  | .objectCreated => 1 <<< 1
  | .globalScopeStarted => 1 <<< 2
  | .terminateRequested => 1 <<< 7
  | .globalScopeDisposed => 1 <<< 8
  | _ => 0

/-- One end of a message, on the link that carries its tag. -/
def linkMessage (record : NativeWorkerObservation) (link : NativeWorkerMessageLink) (ids : Nat) :
    NativeWorkerMessageLink × Nat :=
  let mark (link : NativeWorkerMessageLink) (ids : Nat) : NativeWorkerMessageLink × Nat :=
    ({ link with ambiguous := true }, if link.ambiguous then ids else increment ids)
  let compared :=
    if link.nativeTraceId != record.nativeTraceId || link.direction != record.direction then
      mark link ids
    else (link, ids)
  if record.operation == .messageSent then
    if compared.1.sendSequence != 0 then mark compared.1 compared.2
    else ({ compared.1 with sendSequence := record.sequence }, compared.2)
  else if compared.1.receiveSequence != 0 then mark compared.1 compared.2
  else
    ({ compared.1 with
      receiveSequence := record.sequence
      receiveError := record.operation == .messageError }, compared.2)

/-- The record is in order and counted; what it is about is taken up. -/
def applyMessage (record : NativeWorkerObservation) : Bool × NativeWorkerObservationProjection :=
  let stats := projection.stats
  if record.sendSequence == 0 then
    (true, { projection with stats := { stats with
      untaggedReceives := increment stats.untaggedReceives
      accepted := increment stats.accepted } })
  else
    let index := projection.messages.findIdx (·.sendTag == record.sendSequence)
    if index == projection.messages.length &&
        projection.messages.length == kNativeWorkerProjectionCapacity then
      (false, { projection with stats := { stats with capacityDrops := increment stats.capacityDrops } })
    else
      let messages := if index == projection.messages.length then
          projection.messages ++ [⟨record.nativeTraceId, record.direction, record.sendSequence,
            0, 0, false, false⟩]
        else projection.messages
      let linked := linkMessage record (messages.getD index {}) stats.ambiguousIds
      (true, { projection with
        messages := messages.set index linked.1
        stats := { stats with ambiguousIds := linked.2, accepted := increment stats.accepted } })

def applyScript (record : NativeWorkerObservation) : Bool × NativeWorkerObservationProjection :=
  let stats := projection.stats
  let index := projection.scripts.findIdx (·.scriptId == record.scriptId)
  if index == projection.scripts.length then
    if projection.scripts.length == kNativeWorkerProjectionCapacity then
      (false, { projection with stats := { stats with capacityDrops := increment stats.capacityDrops } })
    else
      (true, { projection with
        scripts := projection.scripts ++ [⟨record.scriptId, record.sourceKind, record.sequence, false⟩]
        stats := { stats with accepted := increment stats.accepted } })
  else
    let ambiguous := (projection.scripts.getD index {}).ambiguous
    (true, { projection with
      scripts := projection.scripts.modify index ({ · with ambiguous := true })
      stats := { stats with
        ambiguousIds := if ambiguous then stats.ambiguousIds else increment stats.ambiguousIds
        accepted := increment stats.accepted } })

def applyLifecycle (record : NativeWorkerObservation) : Bool × NativeWorkerObservationProjection :=
  let stats := projection.stats
  (true, { projection with stats := { stats with
    lifecycleSeen := stats.lifecycleSeen ||| lifecycleBit record.operation
    accepted := increment stats.accepted } })

def apply (record : NativeWorkerObservation) (nowNs : Nat) :
    Bool × NativeWorkerObservationProjection :=
  let projection := (projection.expire nowNs).2
  let stats := projection.stats
  if !isValidNativeWorkerObservation record projection.authority nowNs then
    (false, { projection with stats := { stats with rejected := increment stats.rejected } })
  else if record.sequence ≤ projection.lastSequence then
    (false, { projection with stats := { stats with outOfOrder := increment stats.outOfOrder } })
  else
    let counted : NativeWorkerObservationProjection := { projection with
      lastSequence := record.sequence
      stats := { stats with
        missingSequences :=
          if projection.lastSequence != 0 then
            increment stats.missingSequences (record.sequence - projection.lastSequence - 1)
          else stats.missingSequences
        reportedDrops := increment stats.reportedDrops record.droppedBefore } }
    if isMessage record.operation then counted.applyMessage record
    else if record.operation == .scriptCompiled then counted.applyScript record
    else counted.applyLifecycle record

end NativeWorkerObservationProjection

end Reb.Worker
