/-
# Evidence.OriginTrace -- the bounded index of exact evidence relations

`OriginTraceIndex` reads one event at a time and returns the edges the event
completes: to its parent record, to the renderer record that initiated it, to the
previous record of its request, and to the JavaScript invocation it belongs to.
A browser lifecycle record may arrive before its renderer initiator; its edge is
then kept pending and returned when the initiator arrives.

Each `unordered_map` with its insertion `deque` is one `Cache`.  The pending
multimap is a list of its entries: the order in which `equal_range` visits equal
keys is unspecified, and the source sorts what it collects.
-/
import Reb.Capture.EventValidity
import Reb.Theory.FifoMap

namespace Reb.Evidence

set_option autoImplicit false

open Reb.Capture Reb.Theory.FifoMap

/-! ## Edges -/

def kOriginTraceProtocolVersion : UInt16 := 1
def kMaxDirectOriginTraceEdgesPerEvent : Nat := 3

inductive OriginTraceRelation where
  | kUnknown | kParentEvent | kRequestInitiator | kRequestLifecycle | kArtifactRequest
  | kIssuedDuringInvocation | kInvocationSettlement
  deriving DecidableEq, Repr

inductive OriginTraceConfidence where
  | kUnknown | kObserved | kCorrelated
  deriving DecidableEq, Repr

structure OriginTraceEventReference where
  sessionId : UInt64 := 0
  sequenceNumber : UInt64 := 0
  processId : UInt32 := 0
  reserved : UInt32 := 0
  deriving DecidableEq, Repr

structure OriginTraceEdge where
  protocolVersion : UInt16 := kOriginTraceProtocolVersion
  relation : OriginTraceRelation := .kUnknown
  confidence : OriginTraceConfidence := .kUnknown
  reserved : UInt16 := 0
  source : OriginTraceEventReference := {}
  target : OriginTraceEventReference := {}
  requestId : UInt64 := 0
  artifactId : UInt64 := 0
  deriving DecidableEq, Repr

/-- `OriginTraceEdgeBatch`: the edges one event returned. -/
abbrev OriginTraceEdgeBatch : Type := List OriginTraceEdge

structure OriginTraceIndexStats where
  indexedEvents : UInt64 := 0
  emittedEdges : UInt64 := 0
  duplicateEvents : UInt64 := 0
  evictedEvents : UInt64 := 0
  deriving DecidableEq, Repr

/-! ## Reading an event -/

def reference (event : EventRecord) : OriginTraceEventReference :=
  { sessionId := event.header.sessionId
    sequenceNumber := event.header.sequenceNumber
    processId := event.header.processId }

def hasBrowserContext (event : EventRecord) : Bool :=
  event.header.browserContextIdHigh != 0 || event.header.browserContextIdLow != 0

def isBrowserRequestLifecycle (event : EventRecord) : Bool :=
  event.header.category == .network && event.header.requestId != 0 &&
    match event.header.type with
    | .requestStarted | .requestRedirected | .responseStarted | .responseCompleted
    | .requestCompleted | .requestFailed => true
    | _ => false

def isRequestEvidence (event : EventRecord) : Bool :=
  event.header.requestId != 0 &&
    (event.header.category == .network || event.header.category == .artifact)

/-- Target and body records never become a request's latest lifecycle record. -/
def isRequestChildRecord (event : EventRecord) : Bool :=
  event.header.category == .network &&
    (event.header.type == .requestTarget || event.header.type == .requestBody)

/-- `kRequestInitiated` of the network category, the renderer's own record. -/
def isRequestInitiated (event : EventRecord) : Bool :=
  event.header.category == .network && event.header.type == .requestInitiated

/-! ## State -/

structure RequestKey where
  sessionId : UInt64 := 0
  requestId : UInt64 := 0
  browserContextIdHigh : UInt64 := 0
  browserContextIdLow : UInt64 := 0
  processId : UInt32 := 0
  deriving DecidableEq, Repr

structure LegacyRequestKey where
  sessionId : UInt64 := 0
  requestId : UInt64 := 0
  processId : UInt32 := 0
  deriving DecidableEq, Repr

structure InvocationKey where
  sessionId : UInt64 := 0
  processId : UInt32 := 0
  invocationId : UInt32 := 0
  deriving DecidableEq, Repr

structure InvocationState where
  start : OriginTraceEventReference := {}
  ambiguous : Bool := false
  deriving DecidableEq, Repr

structure LegacyRequestState where
  event : OriginTraceEventReference := {}
  browserContextIdHigh : UInt64 := 0
  browserContextIdLow : UInt64 := 0
  ambiguous : Bool := false
  initiator : OriginTraceEventReference := {}
  deriving DecidableEq, Repr

def requestKey (event : EventRecord) : RequestKey :=
  { sessionId := event.header.sessionId
    requestId := event.header.requestId
    browserContextIdHigh := event.header.browserContextIdHigh
    browserContextIdLow := event.header.browserContextIdLow
    processId := event.header.processId }

def legacyRequestKey (event : EventRecord) : LegacyRequestKey :=
  { sessionId := event.header.sessionId
    requestId := event.header.requestId
    processId := event.header.processId }

/-- The key of the renderer record a browser record names as its initiator. -/
def initiatorKey (event : EventRecord) : LegacyRequestKey :=
  { sessionId := event.header.sessionId
    requestId := event.header.initiatorRequestId.toUInt64
    processId := event.header.initiatorProcessId }

def invocationKey (event : EventRecord) (invocationId : UInt32) : InvocationKey :=
  { sessionId := event.header.sessionId, processId := event.header.processId, invocationId }

/-- The record an event names as its parent, in its own process stream. -/
def parentReference (event : EventRecord) : OriginTraceEventReference :=
  { sessionId := event.header.sessionId
    sequenceNumber := event.header.parentEventId
    processId := event.header.processId }

structure OriginTraceIndex where
  capacity : UInt64
  events : Cache OriginTraceEventReference Unit := {}
  requests : Cache RequestKey OriginTraceEventReference := {}
  legacyRequests : Cache LegacyRequestKey LegacyRequestState := {}
  pendingInitiators : List (LegacyRequestKey × OriginTraceEdge) := []
  pendingInitiatorOrder : List (LegacyRequestKey × OriginTraceEventReference) := []
  invocations : Cache InvocationKey InvocationState := {}
  stats : OriginTraceIndexStats := {}

namespace OriginTraceIndex

def construct (capacity : UInt64) : Except String OriginTraceIndex :=
  if capacity == 0 then .error "OriginTraceIndex capacity must be greater than zero"
  else .ok { capacity }

def contains (index : OriginTraceIndex) (event : OriginTraceEventReference) : Bool :=
  decide (event ∈ index.events.map)

def findLegacyRequest (index : OriginTraceIndex) (key : LegacyRequestKey) :
    OriginTraceEventReference :=
  match index.legacyRequests.map.lookup key with
  | none => {}
  | some state => if state.ambiguous || !index.contains state.event then {} else state.event

def findInitiator (index : OriginTraceIndex) (key : LegacyRequestKey) :
    OriginTraceEventReference :=
  match index.legacyRequests.map.lookup key with
  | none => {}
  | some state => if state.ambiguous || !index.contains state.initiator then {} else state.initiator

def findRequest (index : OriginTraceIndex) (event : EventRecord) : OriginTraceEventReference :=
  if !isRequestEvidence event then {}
  else if hasBrowserContext event then
    match index.requests.map.lookup (requestKey event) with
    | none => {}
    | some found => if index.contains found then found else {}
  else index.findLegacyRequest (legacyRequestKey event)

def findInvocation (index : OriginTraceIndex) (key : InvocationKey) : OriginTraceEventReference :=
  match index.invocations.map.lookup key with
  | none => {}
  | some state => if state.ambiguous || !index.contains state.start then {} else state.start

/-! ## Remembering -/

def rememberEvent (index : OriginTraceIndex) (event : OriginTraceEventReference) :
    OriginTraceIndex :=
  { index with
    events := index.events.push index.capacity.toNat event ()
    stats := if size index.events.map = index.capacity.toNat then
        { index.stats with evictedEvents := index.stats.evictedEvents + 1 }
      else index.stats }

/-- The pending edge of a browser record; its target is filled in later. -/
def pendingEdge (event : EventRecord) : OriginTraceEdge :=
  { relation := .kRequestInitiator
    confidence := .kObserved
    source := reference event
    requestId := event.header.requestId
    artifactId := event.header.artifactId }

/-- At capacity the oldest queue entry goes, with its edge if still pending. -/
def rememberPendingInitiator (index : OriginTraceIndex) (event : EventRecord)
    (key : LegacyRequestKey) : OriginTraceIndex :=
  let (pending, order) :=
    match index.pendingInitiatorOrder with
    | [] => (index.pendingInitiators, [])
    | (expiredKey, expiredEvent) :: rest =>
        if index.pendingInitiatorOrder.length = index.capacity.toNat then
          (index.pendingInitiators.eraseP fun entry =>
            entry.1 == expiredKey && entry.2.source == expiredEvent, rest)
        else (index.pendingInitiators, index.pendingInitiatorOrder)
  { index with
    pendingInitiators := pending ++ [(key, pendingEdge event)]
    pendingInitiatorOrder := order ++ [(key, reference event)] }

/-- The state a request's first record starts with. -/
def newLegacyState (event : EventRecord) (ref : OriginTraceEventReference) : LegacyRequestState :=
  { event := ref
    browserContextIdHigh := event.header.browserContextIdHigh
    browserContextIdLow := event.header.browserContextIdLow
    ambiguous := false
    initiator := if isRequestInitiated event then ref else {} }

/-- How a later record of the same key changes the state. -/
def LegacyRequestState.update (state : LegacyRequestState) (event : EventRecord)
    (ref : OriginTraceEventReference) : LegacyRequestState :=
  let stateHasContext := state.browserContextIdHigh != 0 || state.browserContextIdLow != 0
  if stateHasContext && hasBrowserContext event &&
      (state.browserContextIdHigh != event.header.browserContextIdHigh ||
        state.browserContextIdLow != event.header.browserContextIdLow) then
    { state with ambiguous := true }
  else
    let state :=
      if isRequestInitiated event then
        if state.initiator.sessionId != 0 && state.initiator != ref then
          { state with ambiguous := true }
        else { state with initiator := ref }
      else state
    if state.ambiguous then state
    else if hasBrowserContext event then
      { state with
        event := ref
        browserContextIdHigh := event.header.browserContextIdHigh
        browserContextIdLow := event.header.browserContextIdLow }
    else { state with event := ref }

/-- The first half of `RememberRequest`: the exact key, with its context. -/
def rememberExactRequest (index : OriginTraceIndex) (event : EventRecord)
    (ref : OriginTraceEventReference) : OriginTraceIndex :=
  if hasBrowserContext event then
    let key := requestKey event
    { index with
      requests :=
        if key ∈ index.requests.map then index.requests.set key ref
        else index.requests.push index.capacity.toNat key ref }
  else index

/-- The second half: the key without a context, and its initiator. -/
def rememberLegacyRequest (index : OriginTraceIndex) (event : EventRecord)
    (ref : OriginTraceEventReference) : OriginTraceIndex :=
  let key := legacyRequestKey event
  { index with
    legacyRequests :=
      match index.legacyRequests.map.lookup key with
      | none => index.legacyRequests.push index.capacity.toNat key (newLegacyState event ref)
      | some state => index.legacyRequests.set key (LegacyRequestState.update state event ref) }

def rememberRequest (index : OriginTraceIndex) (event : EventRecord)
    (ref : OriginTraceEventReference) : OriginTraceIndex :=
  if !isRequestEvidence event then index
  else (index.rememberExactRequest event ref).rememberLegacyRequest event ref

/-! ## Edges of one event -/

def addEdge (index : OriginTraceIndex) (batch : OriginTraceEdgeBatch) (event : EventRecord)
    (target : OriginTraceEventReference) (relation : OriginTraceRelation)
    (confidence : OriginTraceConfidence) : OriginTraceEdgeBatch :=
  let source := reference event
  if target.sessionId == 0 || target == source || !index.contains target then batch
  else if batch.any fun edge => edge.source == source && edge.target == target then batch
  else if batch.length = kMaxDirectOriginTraceEdgesPerEvent then batch
  else batch ++ [{ relation, confidence, source, target
                   requestId := event.header.requestId
                   artifactId := event.header.artifactId }]

/-- The order of delayed edges: process, then sequence number. -/
def sourceBefore (left right : OriginTraceEdge) : Bool :=
  left.source.processId < right.source.processId ||
    (left.source.processId == right.source.processId &&
      left.source.sequenceNumber ≤ right.source.sequenceNumber)

def resolvePendingInitiators (index : OriginTraceIndex) (event : EventRecord)
    (batch : OriginTraceEdgeBatch) : OriginTraceIndex × OriginTraceEdgeBatch :=
  if !isRequestInitiated event || event.header.requestId == 0 then (index, batch)
  else
    let key := legacyRequestKey event
    let target := index.findInitiator key
    let waiting := index.pendingInitiators.filter (·.1 == key)
    let resolved := (waiting.map Prod.snd).filter fun edge =>
      target.sessionId != 0 && index.contains edge.source && edge.source != target
    ({ index with pendingInitiators := index.pendingInitiators.filter (·.1 != key) },
      batch ++ (resolved.map fun edge => { edge with target }).mergeSort sourceBefore)

/-- A start opens its invocation; a second start of one key makes it ambiguous. -/
def rememberInvocation (index : OriginTraceIndex) (event : EventRecord)
    (payload : JsInvocationStartPayload) : OriginTraceIndex :=
  let key := invocationKey event payload.invocationId
  { index with
    invocations :=
      match index.invocations.map.lookup key with
      | some state => index.invocations.set key { state with ambiguous := true }
      | none => index.invocations.push index.capacity.toNat key { start := reference event } }

def indexInvocation (index : OriginTraceIndex) (event : EventRecord)
    (batch : OriginTraceEdgeBatch) : OriginTraceIndex × OriginTraceEdgeBatch :=
  let bytes := event.inlinePayload.toList
  match event.header.type with
  | .jsInvocationStart =>
      match decodeJsInvocationStartPayload bytes with
      | none => (index, batch)
      | some payload => (index.rememberInvocation event payload, batch)
  | .jsInvocationSettle =>
      match decodeJsInvocationSettlePayload bytes with
      | none => (index, batch)
      | some payload =>
          (index, index.addEdge batch event
            (index.findInvocation (invocationKey event payload.invocationId))
            .kInvocationSettlement .kObserved)
  | .jsInvocationRequest =>
      match decodeJsInvocationRequestPayload bytes with
      | none => (index, batch)
      | some payload =>
          let request := index.findInitiator (legacyRequestKey event)
          let start := index.findInvocation (invocationKey event payload.invocationId)
          if payload.state != JsInvocationContextState.inside || request.sessionId == 0 ||
              start.sessionId == 0 || request == start then (index, batch)
          else
            (index, batch ++ [{ relation := .kIssuedDuringInvocation
                                confidence := .kObserved
                                source := request
                                target := start
                                requestId := event.header.requestId }])
  | _ => (index, batch)

/-- The initiator step of `Ingest`: a direct edge, or a pending one. -/
def indexInitiator (index : OriginTraceIndex) (event : EventRecord)
    (batch : OriginTraceEdgeBatch) : OriginTraceIndex × OriginTraceEdgeBatch :=
  if isBrowserRequestLifecycle event && event.header.initiatorProcessId != 0 &&
      event.header.initiatorRequestId != 0 then
    let key := initiatorKey event
    let initiator := index.findInitiator key
    let batch := index.addEdge batch event initiator .kRequestInitiator .kObserved
    (if initiator.sessionId == 0 then index.rememberPendingInitiator event key else index, batch)
  else (index, batch)

/-- The parent edge and the edge to the request's previous record. -/
def parentEdges (index : OriginTraceIndex) (event : EventRecord) : OriginTraceEdgeBatch :=
  if event.header.parentEventId != 0 then
    index.addEdge [] event (parentReference event) .kParentEvent .kObserved
  else []

def lifecycleEdges (index : OriginTraceIndex) (event : EventRecord)
    (batch : OriginTraceEdgeBatch) : OriginTraceEdgeBatch :=
  if isRequestChildRecord event then batch
  else if event.header.category == .artifact then
    index.addEdge batch event (index.findRequest event) .kArtifactRequest .kCorrelated
  else index.addEdge batch event (index.findRequest event) .kRequestLifecycle .kObserved

def ingest (index : OriginTraceIndex) (event : EventRecord) :
    OriginTraceIndex × OriginTraceEdgeBatch :=
  if !isValidEvent event then (index, [])
  else if index.contains (reference event) then
    ({ index with stats :=
        { index.stats with duplicateEvents := index.stats.duplicateEvents + 1 } }, [])
  else
    let (index, batch) := index.indexInitiator event (index.parentEdges event)
    let batch := index.lifecycleEdges event batch
    let index := index.rememberEvent (reference event)
    let index :=
      if isRequestChildRecord event then index else index.rememberRequest event (reference event)
    let (index, batch) := index.resolvePendingInitiators event batch
    let (index, batch) := index.indexInvocation event batch
    ({ index with stats :=
        { index.stats with
          indexedEvents := index.stats.indexedEvents + 1
          emittedEdges := index.stats.emittedEdges + batch.length.toUInt64 } }, batch)

/-- A run of `Ingest` calls, with the batch each returned. -/
def ingestAll (index : OriginTraceIndex) : List EventRecord →
    OriginTraceIndex × List OriginTraceEdgeBatch
  | [] => (index, [])
  | event :: rest =>
      let (next, batch) := index.ingest event
      let (last, batches) := ingestAll next rest
      (last, batch :: batches)

end OriginTraceIndex

end Reb.Evidence
