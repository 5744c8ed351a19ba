/-
# Evidence.InitiatorEdges -- which initiator edges an index returns

The specification reads only the list of recorded events: `Initiates i e` says
that the renderer record `i` is what the browser record `e` names as its
initiator, and `links` collects those pairs, leaving out a pair already returned
as the edge to the record's parent (`shownAsParent`).

Three invariants tie the index to the recorded list, one for each part of the
state the initiator edges read: `EventsOf` (what is contained), `LegacyOf` (the
initiator of each request key) and `PendingOf` (the browser records still
waiting).  They hold while nothing is evicted and no key is ambiguous.
-/
import Reb.Evidence.OriginTrace

namespace Reb.Evidence

set_option autoImplicit false

open Reb.Capture Reb.Theory.FifoMap

/-! ## Specification -/

/-- A browser lifecycle record that names a renderer initiator. -/
def namesInitiator (event : EventRecord) : Bool :=
  isBrowserRequestLifecycle event && event.header.initiatorProcessId != 0 &&
    event.header.initiatorRequestId != 0

/-- `initiator` is the renderer record `event` names. -/
structure Initiates (initiator event : EventRecord) : Prop where
  initiated : isRequestInitiated initiator = true
  names : namesInitiator event = true
  key : legacyRequestKey initiator = initiatorKey event
  session : event.header.sessionId ≠ 0

/-- The pair was already returned as the edge to the parent, which needs the
initiator to come first in the stream of the record. -/
def ShownAsParent (recorded : List EventRecord) (initiator event : EventRecord) : Prop :=
  event.header.parentEventId ≠ 0 ∧ parentReference event = reference initiator ∧
    [initiator, event].Sublist recorded

/-- The initiator pairs of the recorded events. -/
def links (recorded : List EventRecord) :
    Set (OriginTraceEventReference × OriginTraceEventReference) :=
  {p | ∃ i ∈ recorded, ∃ e ∈ recorded, Initiates i e ∧ ¬ ShownAsParent recorded i e ∧
    p = (reference e, reference i)}

/-- The initiator pairs in one returned batch. -/
def linksIn (batch : OriginTraceEdgeBatch) :
    Set (OriginTraceEventReference × OriginTraceEventReference) :=
  {p | ∃ edge ∈ batch, edge.relation = .kRequestInitiator ∧ p = (edge.source, edge.target)}

/-- Each request key has one initiating record. -/
def UniqueInitiators (events : List EventRecord) : Prop :=
  ∀ a ∈ events, ∀ b ∈ events, isRequestInitiated a = true → isRequestInitiated b = true →
    a.header.requestId ≠ 0 → legacyRequestKey a = legacyRequestKey b → a = b

/-- The browser contexts the records of one request carry agree. -/
def OneContext (events : List EventRecord) : Prop :=
  ∀ a ∈ events, ∀ b ∈ events, isRequestEvidence a = true → isRequestEvidence b = true →
    legacyRequestKey a = legacyRequestKey b → hasBrowserContext a = true →
    hasBrowserContext b = true →
    a.header.browserContextIdHigh = b.header.browserContextIdHigh ∧
      a.header.browserContextIdLow = b.header.browserContextIdLow

/-! ## Kinds of records exclude each other -/

theorem not_names_of_initiated {event : EventRecord} (initiated : isRequestInitiated event = true) :
    namesInitiator event = false := by
  have type : event.header.type = .requestInitiated := by
    simp only [isRequestInitiated, Bool.and_eq_true, beq_iff_eq] at initiated
    exact initiated.2
  simp [namesInitiator, isBrowserRequestLifecycle, type]

theorem not_child_of_initiated {event : EventRecord} (initiated : isRequestInitiated event = true) :
    isRequestChildRecord event = false := by
  have type : event.header.type = .requestInitiated := by
    simp only [isRequestInitiated, Bool.and_eq_true, beq_iff_eq] at initiated
    exact initiated.2
  simp [isRequestChildRecord, type]

theorem evidence_of_initiated {event : EventRecord} (initiated : isRequestInitiated event = true)
    (nonzero : event.header.requestId ≠ 0) : isRequestEvidence event = true := by
  simp only [isRequestInitiated, Bool.and_eq_true, beq_iff_eq] at initiated
  simp [isRequestEvidence, nonzero, initiated.1]

theorem initiator_request_ne_zero {event : EventRecord} (names : namesInitiator event = true) :
    (initiatorKey event).requestId ≠ 0 := by
  simp only [namesInitiator, Bool.and_eq_true, bne_iff_ne, ne_eq] at names
  intro zero
  have nat := congrArg UInt64.toNat zero
  rw [initiatorKey, UInt32.toNat_toUInt64, UInt64.toNat_zero] at nat
  exact names.2 (UInt32.toNat.inj nat)

theorem Initiates.request_ne_zero {i event : EventRecord} (initiates : Initiates i event) :
    i.header.requestId ≠ 0 := by
  rw [show i.header.requestId = (initiatorKey event).requestId from
    congrArg LegacyRequestKey.requestId initiates.key]
  exact initiator_request_ne_zero initiates.names

theorem reference_session (event : EventRecord) :
    (reference event).sessionId = event.header.sessionId := rfl

/-! ## Links in a batch -/

@[simp] theorem linksIn_nil : linksIn [] = ∅ := by simp [linksIn]

theorem linksIn_append (first second : OriginTraceEdgeBatch) :
    linksIn (first ++ second) = linksIn first ∪ linksIn second := by
  ext p
  simp only [linksIn, List.mem_append, Set.mem_union, Set.mem_ofPred_eq, or_and_right, exists_or]

namespace OriginTraceIndex

variable {index : OriginTraceIndex}

/-- `AddEdge` returns the batch with at most one more edge. -/
theorem add_edge_cases (index : OriginTraceIndex) (batch : OriginTraceEdgeBatch) (event : EventRecord)
    (target : OriginTraceEventReference) (relation : OriginTraceRelation)
    (confidence : OriginTraceConfidence) :
    index.addEdge batch event target relation confidence = batch ∨
      (index.addEdge batch event target relation confidence =
          batch ++ [{ relation, confidence, source := reference event, target
                      requestId := event.header.requestId
                      artifactId := event.header.artifactId }] ∧
        target.sessionId ≠ 0) := by
  unfold addEdge
  dsimp only
  split
  · exact .inl rfl
  rename_i usable
  split
  · exact .inl rfl
  split
  · exact .inl rfl
  · refine .inr ⟨rfl, fun zero => usable ?_⟩
    simp [zero]

/-- An edge of another relation adds no initiator pair. -/
theorem linksIn_add_edge {relation : OriginTraceRelation} (other : relation ≠ .kRequestInitiator)
    (batch : OriginTraceEdgeBatch) (event : EventRecord) (target : OriginTraceEventReference)
    (confidence : OriginTraceConfidence) :
    linksIn (index.addEdge batch event target relation confidence) = linksIn batch := by
  rcases add_edge_cases index batch event target relation confidence with eq | ⟨eq, -⟩
  · rw [eq]
  · rw [eq, linksIn_append]
    simp [linksIn, other]

theorem linksIn_parent_edges (event : EventRecord) : linksIn (index.parentEdges event) = ∅ := by
  unfold parentEdges
  split
  · rw [linksIn_add_edge (by decide), linksIn_nil]
  · exact linksIn_nil

theorem linksIn_lifecycle_edges (event : EventRecord) (batch : OriginTraceEdgeBatch) :
    linksIn (index.lifecycleEdges event batch) = linksIn batch := by
  unfold lifecycleEdges
  split
  · rfl
  split
  · exact linksIn_add_edge (by decide) _ _ _ _
  · exact linksIn_add_edge (by decide) _ _ _ _

/-- The invocation step touches neither the initiator state nor its pairs. -/
theorem index_invocation_frame (index : OriginTraceIndex) (event : EventRecord) (batch : OriginTraceEdgeBatch) :
    let after := index.indexInvocation event batch
    after.1.capacity = index.capacity ∧ after.1.events = index.events ∧
      after.1.legacyRequests = index.legacyRequests ∧
      after.1.pendingInitiators = index.pendingInitiators ∧
      after.1.pendingInitiatorOrder = index.pendingInitiatorOrder ∧
      linksIn after.2 = linksIn batch := by
  unfold indexInvocation
  dsimp only
  split
  · split <;> exact ⟨rfl, rfl, rfl, rfl, rfl, rfl⟩
  · split
    · exact ⟨rfl, rfl, rfl, rfl, rfl, rfl⟩
    · exact ⟨rfl, rfl, rfl, rfl, rfl, linksIn_add_edge (by decide) _ _ _ _⟩
  · split
    · exact ⟨rfl, rfl, rfl, rfl, rfl, rfl⟩
    · split
      · exact ⟨rfl, rfl, rfl, rfl, rfl, rfl⟩
      · refine ⟨rfl, rfl, rfl, rfl, rfl, ?_⟩
        rw [linksIn_append]
        simp [linksIn]
  · exact ⟨rfl, rfl, rfl, rfl, rfl, rfl⟩

/-! ## The invariants -/

/-- The contained references are those of the recorded events. -/
structure EventsOf (events : Cache OriginTraceEventReference Unit) (recorded : List EventRecord) :
    Prop where
  mem_iff : ∀ ref, ref ∈ events.map ↔ ∃ event ∈ recorded, reference event = ref
  size_le : size events.map ≤ recorded.length

/-- What a request's state says about the recorded events of its key. -/
structure StateOf (recorded : List EventRecord) (key : LegacyRequestKey)
    (state : LegacyRequestState) : Prop where
  nonzero : key.requestId ≠ 0
  unambiguous : state.ambiguous = false
  initiator : (∃ i ∈ recorded, isRequestInitiated i = true ∧ legacyRequestKey i = key ∧
      state.initiator = reference i) ∨
    (state.initiator = {} ∧
      ∀ i ∈ recorded, isRequestInitiated i = true → legacyRequestKey i ≠ key)
  context : (state.browserContextIdHigh = 0 ∧ state.browserContextIdLow = 0) ∨
    ∃ e ∈ recorded, isRequestEvidence e = true ∧ legacyRequestKey e = key ∧
      hasBrowserContext e = true ∧ state.browserContextIdHigh = e.header.browserContextIdHigh ∧
      state.browserContextIdLow = e.header.browserContextIdLow

structure LegacyOf (requests : Cache LegacyRequestKey LegacyRequestState)
    (recorded : List EventRecord) : Prop where
  size_le : size requests.map ≤ recorded.length
  absent : ∀ key, requests.map.lookup key = none → ∀ e ∈ recorded,
    isRequestInitiated e = true → e.header.requestId ≠ 0 → legacyRequestKey e ≠ key
  present : ∀ key state, requests.map.lookup key = some state → StateOf recorded key state

/-- A record of `records` waits exactly while `initiators` holds no initiating
record of its key.  The two lists differ only in the middle of one call. -/
structure PendingOf (pending : List (LegacyRequestKey × OriginTraceEdge))
    (order : List (LegacyRequestKey × OriginTraceEventReference))
    (records initiators : List EventRecord) : Prop where
  order_le : order.length ≤ records.length
  sound : ∀ entry ∈ pending, ∃ e ∈ records, namesInitiator e = true ∧
    entry = (initiatorKey e, pendingEdge e)
  mem_iff : ∀ e ∈ records, namesInitiator e = true → e.header.sessionId ≠ 0 →
    ((initiatorKey e, pendingEdge e) ∈ pending ↔
      ∀ i ∈ initiators, isRequestInitiated i = true → legacyRequestKey i ≠ initiatorKey e)

structure IndexOf (index : OriginTraceIndex) (recorded : List EventRecord) : Prop where
  events : EventsOf index.events recorded
  legacy : LegacyOf index.legacyRequests recorded
  pending : PendingOf index.pendingInitiators index.pendingInitiatorOrder recorded recorded

theorem construct_index_of {capacity : UInt64} (constructed : construct capacity = .ok index) :
    IndexOf index [] ∧ index.capacity = capacity := by
  unfold construct at constructed
  split at constructed
  · cases constructed
  cases constructed
  refine ⟨⟨⟨fun ref => ?_, Nat.le_refl 0⟩, ⟨Nat.le_refl 0, ?_, ?_⟩, ⟨Nat.le_refl 0, ?_, ?_⟩⟩, rfl⟩
  · simp
  · intro key _ e member; cases member
  · intro key state found; simp at found
  · intro entry member; cases member
  · intro e member; cases member

variable {recorded : List EventRecord}

theorem EventsOf.contains_iff (h : EventsOf index.events recorded)
    (ref : OriginTraceEventReference) :
    index.contains ref = true ↔ ∃ event ∈ recorded, reference event = ref := by
  rw [contains, decide_eq_true_iff, h.mem_iff]

/-! ## Finding the initiator -/

/-- The recorded initiator of a key is found. -/
theorem find_initiator_of_mem (events : EventsOf index.events recorded)
    (legacy : LegacyOf index.legacyRequests recorded) (unique : UniqueInitiators recorded)
    {i : EventRecord} (member : i ∈ recorded) (initiated : isRequestInitiated i = true)
    (nonzero : i.header.requestId ≠ 0) :
    index.findInitiator (legacyRequestKey i) = reference i := by
  unfold findInitiator
  split
  · rename_i none
    exact absurd rfl (legacy.absent _ none i member initiated nonzero)
  · rename_i state found
    have spec := legacy.present _ _ found
    rcases spec.initiator with ⟨j, jMember, jInitiated, sameKey, eq⟩ | ⟨-, none⟩
    · have same : i = j := unique i member j jMember initiated jInitiated nonzero sameKey.symm
      subst same
      have contained : index.contains (reference i) = true := (events.contains_iff _).2 ⟨i, member, rfl⟩
      simp [spec.unambiguous, eq, contained]
    · exact absurd rfl (none i member initiated)

/-- A key without a recorded initiator finds no reference an edge could use. -/
theorem find_initiator_of_none (legacy : LegacyOf index.legacyRequests recorded)
    {key : LegacyRequestKey}
    (none : ∀ i ∈ recorded, isRequestInitiated i = true → legacyRequestKey i ≠ key) :
    (index.findInitiator key).sessionId = 0 := by
  unfold findInitiator
  split
  · rfl
  · rename_i state found
    rcases (legacy.present _ _ found).initiator with ⟨i, member, initiated, same, -⟩ | ⟨eq, -⟩
    · exact absurd same (none i member initiated)
    · split
      · rfl
      · rw [eq]

/-- Looking up the initiator a record names: it is recorded and found, or no
recorded event initiates the record and what is found cannot be used. -/
theorem find_named_initiator (h : IndexOf index recorded) (unique : UniqueInitiators recorded)
    {event : EventRecord} (names : namesInitiator event = true) :
    (∃ i ∈ recorded, Initiates i event ∧
        index.findInitiator (initiatorKey event) = reference i) ∨
      ((∀ i ∈ recorded, ¬ Initiates i event) ∧
        (index.findInitiator (initiatorKey event)).sessionId = 0) := by
  have found : ∀ i ∈ recorded, isRequestInitiated i = true →
      legacyRequestKey i = initiatorKey event →
      index.findInitiator (initiatorKey event) = reference i := by
    intro i member initiated key
    have nonzero : i.header.requestId ≠ 0 := by
      rw [show i.header.requestId = (initiatorKey event).requestId from
        congrArg LegacyRequestKey.requestId key]
      exact initiator_request_ne_zero names
    rw [← key]
    exact find_initiator_of_mem h.events h.legacy unique member initiated nonzero
  by_cases some : ∃ i ∈ recorded, isRequestInitiated i = true ∧
      legacyRequestKey i = initiatorKey event
  · obtain ⟨i, member, initiated, key⟩ := some
    by_cases session : event.header.sessionId = 0
    · refine .inr ⟨fun j _ initiates => initiates.session session, ?_⟩
      rw [found i member initiated key]
      exact (congrArg LegacyRequestKey.sessionId key).trans session
    · exact .inl ⟨i, member, ⟨initiated, names, key, session⟩, found i member initiated key⟩
  · have none : ∀ i ∈ recorded, isRequestInitiated i = true →
        legacyRequestKey i ≠ initiatorKey event :=
      fun i member initiated key => some ⟨i, member, initiated, key⟩
    exact .inr ⟨fun i member initiates => none i member initiates.initiated initiates.key,
      find_initiator_of_none h.legacy none⟩

end OriginTraceIndex

end Reb.Evidence
