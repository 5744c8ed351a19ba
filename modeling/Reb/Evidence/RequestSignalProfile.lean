/-
# Evidence.RequestSignalProfile -- the fingerprint signals seen before a request

`RequestSignalProfileIndex` reads one event at a time.  For the first record of a request
it returns a profile of the signals before it: those on the chain of parents, walked at
most `kRequestSignalProfileParentDepthLimit` steps, then those counted in the same
context.  A browser record that names a renderer initiator gets a copy of the profile
kept for that initiator instead.

The signals of a profile are a list, the first `signal_count` entries of the array.
-/
import Reb.Capture.EventValidity
import Reb.Theory.FifoMap

namespace Reb.Evidence

set_option autoImplicit false

open Reb.Capture Reb.Theory.FifoMap

/-! ## Profiles -/

def kRequestSignalProfileProtocolVersion : UInt16 := 1
def kRequestSignalProfileCategoryCount : Nat := 8
def kRequestSignalProfileParentDepthLimit : Nat := 32

inductive RequestSignalRelation where
  | kUnknown | kParentChain | kSameContext
  deriving DecidableEq, Repr

structure RequestSignalEventReference where
  sessionId : UInt64 := 0
  sequenceNumber : UInt64 := 0
  processId : UInt32 := 0
  reserved : UInt32 := 0
  deriving DecidableEq, Repr

structure RequestSignalEvidence where
  category : EventCategory := .unknown
  relation : RequestSignalRelation := .kUnknown
  eventCount : UInt64 := 0
  firstEvent : RequestSignalEventReference := {}
  lastEvent : RequestSignalEventReference := {}
  deriving DecidableEq, Repr

structure RequestSignalProfile where
  protocolVersion : UInt16 := kRequestSignalProfileProtocolVersion
  reserved : UInt16 := 0
  parentDepth : UInt32 := 0
  rootEvent : RequestSignalEventReference := {}
  initiatorEvent : RequestSignalEventReference := {}
  requestId : UInt64 := 0
  navigationId : UInt64 := 0
  frameId : UInt64 := 0
  copiedFromInitiator : Bool := false
  retentionTruncated : Bool := false
  parentDepthLimited : Bool := false
  countSaturated : Bool := false
  signals : List RequestSignalEvidence := []
  deriving DecidableEq, Repr

structure RequestSignalProfileIndexStats where
  indexedEvents : UInt64 := 0
  emittedProfiles : UInt64 := 0
  duplicateEvents : UInt64 := 0
  evictedEvents : UInt64 := 0
  evictedContexts : UInt64 := 0
  evictedProfiles : UInt64 := 0
  copiedProfiles : UInt64 := 0
  deriving DecidableEq, Repr

/-! ## Reading an event -/

def kSignalCategories : Vector EventCategory kRequestSignalProfileCategoryCount :=
  #v[.canvas, .webGl, .webAudio, .navigator, .permissions, .storage, .webRtc, .runtime]

/-- The index of a category, or nothing where the source returns the size. -/
def signalCategoryIndex (category : EventCategory) :
    Option (Fin kRequestSignalProfileCategoryCount) :=
  (List.finRange kRequestSignalProfileCategoryCount).find? fun i => kSignalCategories[i] == category

def isFingerprintSignalCategory (category : EventCategory) : Bool :=
  (signalCategoryIndex category).isSome

def signalReference (event : EventRecord) : RequestSignalEventReference :=
  { sessionId := event.header.sessionId
    sequenceNumber := event.header.sequenceNumber
    processId := event.header.processId }

def isRequestProfileRoot (event : EventRecord) : Bool :=
  event.header.category == .network && event.header.sessionId != 0 &&
    event.header.sequenceNumber != 0 && event.header.requestId != 0 &&
    (event.header.type == .requestInitiated || event.header.type == .requestStarted)

def referenceIsSet (ref : RequestSignalEventReference) : Bool :=
  ref.sessionId != 0 && ref.sequenceNumber != 0

/-! ## Signals -/

def findSignal (signals : List RequestSignalEvidence) (category : EventCategory) :
    Option RequestSignalEvidence :=
  signals.find? (·.category == category)

/-- `AddSignal`, with `write` for what the caller stores through the pointer it returns:
the signal of the category, or a new one while there is room. -/
def addSignal (signals : List RequestSignalEvidence) (category : EventCategory)
    (relation : RequestSignalRelation) (write : RequestSignalEvidence → RequestSignalEvidence) :
    List RequestSignalEvidence :=
  if (findSignal signals category).isSome then
    signals.modify (signals.findIdx (·.category == category)) write
  else if signals.length = kRequestSignalProfileCategoryCount then signals
  else signals ++ [write { category, relation }]

/-- One turn of `SortSignals`: `value` moves before the earlier signals above it.
`sorted` lists the earlier signals, the last of them first. -/
def insertSignal (value : RequestSignalEvidence) (sorted : List RequestSignalEvidence) :
    List RequestSignalEvidence :=
  sorted.orderedInsert (fun a b => b.category.toUInt16 ≤ a.category.toUInt16) value

def sortSignals (signals : List RequestSignalEvidence) : List RequestSignalEvidence :=
  (signals.foldl (fun sorted value => insertSignal value sorted) []).reverse

/-! ## State -/

structure EventState where
  reference : RequestSignalEventReference := {}
  parentEventId : UInt64 := 0
  category : EventCategory := .unknown
  deriving DecidableEq, Repr

structure SignalContextKey where
  sessionId : UInt64 := 0
  navigationId : UInt64 := 0
  frameId : UInt64 := 0
  processId : UInt32 := 0
  deriving DecidableEq, Repr

structure ContextSignalState where
  eventCount : UInt64 := 0
  firstEvent : RequestSignalEventReference := {}
  lastEvent : RequestSignalEventReference := {}
  countSaturated : Bool := false
  deriving DecidableEq, Repr

structure ContextState where
  signals : Vector ContextSignalState kRequestSignalProfileCategoryCount :=
    Vector.replicate kRequestSignalProfileCategoryCount {}
  deriving DecidableEq, Repr

structure ProfileRequestKey where
  sessionId : UInt64 := 0
  requestId : UInt64 := 0
  processId : UInt32 := 0
  deriving DecidableEq, Repr

def signalContextKey (event : EventRecord) : SignalContextKey :=
  { sessionId := event.header.sessionId
    navigationId := event.header.navigationId
    frameId := event.header.frameId
    processId := event.header.processId }

structure RequestSignalProfileIndex where
  capacity : UInt64
  events : Cache RequestSignalEventReference EventState := {}
  contexts : Cache SignalContextKey ContextState := {}
  requestProfiles : Cache ProfileRequestKey RequestSignalProfile := {}
  stats : RequestSignalProfileIndexStats := {}

namespace RequestSignalProfileIndex

def construct (capacity : UInt64) : Except String RequestSignalProfileIndex :=
  if capacity == 0 then
    .error "RequestSignalProfileIndex capacity must be greater than zero"
  else .ok { capacity }

def contains (index : RequestSignalProfileIndex) (ref : RequestSignalEventReference) : Bool :=
  decide (ref ∈ index.events.map)

/-! ## Building a profile -/

/-- What a record on the parent chain adds to the signal of its category. -/
def chainSignal (ref : RequestSignalEventReference) (signal : RequestSignalEvidence) :
    RequestSignalEvidence :=
  { signal with
    lastEvent := if referenceIsSet signal.lastEvent then signal.lastEvent else ref
    firstEvent := ref
    eventCount := signal.eventCount + 1 }

/-- One record of the parent chain. -/
def addParent (profile : RequestSignalProfile) (state : EventState) : RequestSignalProfile :=
  let profile := { profile with parentDepth := profile.parentDepth + 1 }
  if isFingerprintSignalCategory state.category then
    { profile with
      signals := addSignal profile.signals state.category .kParentChain
        (chainSignal state.reference) }
  else profile

/-- The while loop of `AddParentSignals`, with the turns the depth limit leaves. -/
def walkParents (index : RequestSignalProfileIndex) (event : EventRecord) :
    Nat → UInt64 → RequestSignalProfile → UInt64 × RequestSignalProfile
  | 0, parentEventId, profile => (parentEventId, profile)
  | turns + 1, parentEventId, profile =>
      if parentEventId == 0 then (parentEventId, profile)
      else
        match index.events.map.lookup
            { sessionId := event.header.sessionId, sequenceNumber := parentEventId
              processId := event.header.processId } with
        | none => (parentEventId, { profile with retentionTruncated := true })
        | some state => walkParents index event turns state.parentEventId (addParent profile state)

def addParentSignals (index : RequestSignalProfileIndex) (event : EventRecord)
    (profile : RequestSignalProfile) : RequestSignalProfile :=
  let (parentEventId, profile) := index.walkParents event
    (kRequestSignalProfileParentDepthLimit - profile.parentDepth.toNat) event.header.parentEventId
    profile
  if parentEventId != 0 &&
      profile.parentDepth.toNat == kRequestSignalProfileParentDepthLimit then
    { profile with parentDepthLimited := true }
  else profile

/-- One turn of the loop of `AddContextSignals`. -/
def addContextSignal (index : RequestSignalProfileIndex) (context : ContextState)
    (profile : RequestSignalProfile) (i : Fin kRequestSignalProfileCategoryCount) :
    RequestSignalProfile :=
  let state := context.signals[i]
  let category := kSignalCategories[i]
  if state.eventCount == 0 || (findSignal profile.signals category).isSome then profile
  else if !index.contains state.lastEvent then { profile with retentionTruncated := true }
  else if profile.signals.length = kRequestSignalProfileCategoryCount then profile
  else
    let firstContained := index.contains state.firstEvent
    { profile with
      signals := addSignal profile.signals category .kSameContext fun signal =>
        { signal with
          eventCount := state.eventCount
          lastEvent := state.lastEvent
          firstEvent := if firstContained then state.firstEvent else state.lastEvent }
      countSaturated := profile.countSaturated || state.countSaturated
      retentionTruncated := profile.retentionTruncated || !firstContained }

def addContextSignals (index : RequestSignalProfileIndex) (event : EventRecord)
    (profile : RequestSignalProfile) : RequestSignalProfile :=
  match index.contexts.map.lookup (signalContextKey event) with
  | none => profile
  | some context =>
      (List.finRange kRequestSignalProfileCategoryCount).foldl (index.addContextSignal context)
        profile

def buildProfile (index : RequestSignalProfileIndex) (event : EventRecord) :
    RequestSignalProfile :=
  let profile : RequestSignalProfile :=
    { rootEvent := signalReference event
      requestId := event.header.requestId
      navigationId := event.header.navigationId
      frameId := event.header.frameId }
  let profile := index.addContextSignals event (index.addParentSignals event profile)
  { profile with signals := sortSignals profile.signals }

/-- A started request that names a renderer initiator. -/
def namesProfileInitiator (event : EventRecord) : Bool :=
  event.header.type == .requestStarted && event.header.initiatorProcessId != 0 &&
    event.header.initiatorRequestId != 0

def findInitiatorProfile (index : RequestSignalProfileIndex) (event : EventRecord) :
    Option RequestSignalProfile :=
  if namesProfileInitiator event then
    index.requestProfiles.map.lookup
      { sessionId := event.header.sessionId
        requestId := event.header.initiatorRequestId.toUInt64
        processId := event.header.initiatorProcessId }
  else none

/-! ## Remembering -/

def rememberEvent (index : RequestSignalProfileIndex) (event : EventRecord) :
    RequestSignalProfileIndex :=
  let ref := signalReference event
  { index with
    events := index.events.push index.capacity.toNat ref
      { reference := ref, parentEventId := event.header.parentEventId
        category := event.header.category }
    stats := if size index.events.map = index.capacity.toNat then
        { index.stats with evictedEvents := index.stats.evictedEvents + 1 }
      else index.stats }

/-- One more event of a category in a context. -/
def ContextSignalState.count (signal : ContextSignalState) (ref : RequestSignalEventReference) :
    ContextSignalState :=
  { firstEvent := if signal.eventCount == 0 then ref else signal.firstEvent
    eventCount := if signal.eventCount != 0xffffffffffffffff then signal.eventCount + 1
      else signal.eventCount
    countSaturated := if signal.eventCount != 0xffffffffffffffff then signal.countSaturated
      else true
    lastEvent := ref }

def rememberContextSignal (index : RequestSignalProfileIndex) (event : EventRecord) :
    RequestSignalProfileIndex :=
  match signalCategoryIndex event.header.category with
  | none => index
  | some i =>
      let ref := signalReference event
      if !referenceIsSet ref then index
      else
        let key := signalContextKey event
        let counted (context : ContextState) : ContextState :=
          { signals := context.signals.set i (ContextSignalState.count context.signals[i] ref) }
        match index.contexts.map.lookup key with
        | some context => { index with contexts := index.contexts.set key (counted context) }
        | none =>
            { index with
              contexts := index.contexts.push index.capacity.toNat key (counted {})
              stats := if size index.contexts.map = index.capacity.toNat then
                  { index.stats with evictedContexts := index.stats.evictedContexts + 1 }
                else index.stats }

def rememberRequestProfile (index : RequestSignalProfileIndex) (event : EventRecord)
    (profile : RequestSignalProfile) : RequestSignalProfileIndex :=
  if event.header.type != .requestInitiated then index
  else
    let key : ProfileRequestKey :=
      { sessionId := event.header.sessionId, requestId := event.header.requestId
        processId := event.header.processId }
    if key ∈ index.requestProfiles.map then
      { index with requestProfiles := index.requestProfiles.set key profile }
    else
      { index with
        requestProfiles := index.requestProfiles.push index.capacity.toNat key profile
        stats := if size index.requestProfiles.map = index.capacity.toNat then
            { index.stats with evictedProfiles := index.stats.evictedProfiles + 1 }
          else index.stats }

/-! ## One event -/

/-- The copy of the initiator's profile for a browser record. -/
def copyProfile (event : EventRecord) (profile : RequestSignalProfile) : RequestSignalProfile :=
  { profile with
    initiatorEvent := profile.rootEvent
    rootEvent := signalReference event
    requestId := event.header.requestId
    navigationId := event.header.navigationId
    frameId := event.header.frameId
    copiedFromInitiator := true }

/-- The profile of a root event, and the counter of copies after it. -/
def rootProfile (index : RequestSignalProfileIndex) (event : EventRecord) :
    RequestSignalProfileIndex × RequestSignalProfile :=
  match index.findInitiatorProfile event with
  | some profile =>
      ({ index with stats :=
          { index.stats with copiedProfiles := index.stats.copiedProfiles + 1 } },
        copyProfile event profile)
  | none =>
      let profile := index.buildProfile event
      (index, if namesProfileInitiator event && index.stats.evictedProfiles != 0 then
        { profile with retentionTruncated := true } else profile)

def ingest (index : RequestSignalProfileIndex) (event : EventRecord) :
    RequestSignalProfileIndex × Option RequestSignalProfile :=
  if !isValidEvent event then (index, none)
  else if index.contains (signalReference event) then
    ({ index with stats :=
        { index.stats with duplicateEvents := index.stats.duplicateEvents + 1 } }, none)
  else
    let (index, profile) :=
      if isRequestProfileRoot event then
        let (index, profile) := index.rootProfile event
        (index, some profile)
      else (index, none)
    let index := (index.rememberEvent event).rememberContextSignal event
    let index :=
      match profile with
      | none => index
      | some profile =>
          let index := index.rememberRequestProfile event profile
          { index with stats :=
              { index.stats with emittedProfiles := index.stats.emittedProfiles + 1 } }
    ({ index with stats :=
        { index.stats with indexedEvents := index.stats.indexedEvents + 1 } }, profile)

/-- The index after a run of `Ingest` calls. -/
def after (index : RequestSignalProfileIndex) (events : List EventRecord) :
    RequestSignalProfileIndex :=
  events.foldl (fun index event => (index.ingest event).1) index

end RequestSignalProfileIndex

/-! ## Validity of a profile -/

/-- The loop of `IsValidRequestSignalProfile`; `categories` are those seen so far. -/
def validSignals (sessionId : UInt64) (expectedProcessId : UInt32) :
    List RequestSignalEvidence → List EventCategory → Bool
  | [], _ => true
  | signal :: rest, categories =>
      isFingerprintSignalCategory signal.category && !categories.contains signal.category &&
        (signal.relation == .kParentChain || signal.relation == .kSameContext) &&
        signal.eventCount != 0 && referenceIsSet signal.firstEvent &&
        referenceIsSet signal.lastEvent && signal.firstEvent.reserved == 0 &&
        signal.lastEvent.reserved == 0 && signal.firstEvent.processId == expectedProcessId &&
        signal.lastEvent.processId == expectedProcessId &&
        signal.firstEvent.sessionId == sessionId && signal.lastEvent.sessionId == sessionId &&
        validSignals sessionId expectedProcessId rest (signal.category :: categories)

def isValidRequestSignalProfile (profile : RequestSignalProfile) : Bool :=
  let initiated := referenceIsSet profile.initiatorEvent
  profile.protocolVersion == kRequestSignalProfileProtocolVersion && profile.reserved == 0 &&
    profile.signals.length ≤ kRequestSignalProfileCategoryCount && profile.requestId != 0 &&
    referenceIsSet profile.rootEvent && profile.rootEvent.reserved == 0 &&
    profile.parentDepth.toNat ≤ kRequestSignalProfileParentDepthLimit &&
    !(profile.parentDepthLimited &&
      profile.parentDepth.toNat != kRequestSignalProfileParentDepthLimit) &&
    profile.copiedFromInitiator == initiated && profile.initiatorEvent.reserved == 0 &&
    !(initiated && profile.initiatorEvent.sessionId != profile.rootEvent.sessionId) &&
    validSignals profile.rootEvent.sessionId
      (if initiated then profile.initiatorEvent.processId else profile.rootEvent.processId)
      profile.signals [] &&
    (!profile.countSaturated || profile.signals.any (·.eventCount == 0xffffffffffffffff))

end Reb.Evidence
