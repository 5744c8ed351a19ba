/-
# Evidence.OriginTraceEdges -- what the returned edges join

Every map of the index may hold a reference whose event was evicted long ago, so each
use asks `contains` again; what the maps themselves guarantee is that an entry is of the
session of its key (`Grounded`).  Both together give `Joins`: an edge runs between two
different ingested events of one session.

`isValidOriginTraceEdge` asks for nonzero sequence numbers too.  Nothing on the way
checks them: `isValidEvent` reads the number of some record types only, and `addEdge`
guards against the empty reference by its session.
-/
import Reb.Evidence.OriginTraceStorage

namespace Reb.Evidence

set_option autoImplicit false

open Reb.Capture Reb.Theory.FifoMap

def isValidOriginTraceEdge (edge : OriginTraceEdge) : Bool :=
  let knownRelation := edge.relation == .kParentEvent || edge.relation == .kRequestInitiator ||
    edge.relation == .kRequestLifecycle || edge.relation == .kArtifactRequest ||
    edge.relation == .kIssuedDuringInvocation || edge.relation == .kInvocationSettlement
  let knownConfidence := edge.confidence == .kObserved || edge.confidence == .kCorrelated
  edge.protocolVersion == kOriginTraceProtocolVersion && knownRelation && knownConfidence &&
    edge.reserved == 0 && edge.source.reserved == 0 && edge.target.reserved == 0 &&
    edge.source.sessionId != 0 && edge.source.sessionId == edge.target.sessionId &&
    edge.source.sequenceNumber != 0 && edge.target.sequenceNumber != 0 &&
    edge.source != edge.target

/-- `ref` names one of the valid events `seen`. -/
def Seen (seen : List EventRecord) (ref : OriginTraceEventReference) : Prop :=
  ∃ event ∈ seen, isValidEvent event = true ∧ reference event = ref

/-- The edge joins two different events of one session, both among `seen`. -/
structure Joins (seen : List EventRecord) (edge : OriginTraceEdge) : Prop where
  source : Seen seen edge.source
  target : Seen seen edge.target
  distinct : edge.source ≠ edge.target
  session : edge.source.sessionId = edge.target.sessionId

/-- The parts of an edge that do not depend on the events. -/
structure WellFormed (edge : OriginTraceEdge) : Prop where
  protocolVersion : edge.protocolVersion = kOriginTraceProtocolVersion
  relation : edge.relation ≠ .kUnknown
  confidence : edge.confidence ≠ .kUnknown
  reserved : edge.reserved = 0
  session : edge.source.sessionId ≠ 0

/-- Every valid event of a session is numbered from one. -/
def Numbered (events : List EventRecord) : Prop :=
  ∀ event ∈ events, isValidEvent event = true → event.header.sessionId ≠ 0 →
    event.header.sequenceNumber ≠ 0

theorem Seen.reserved {seen : List EventRecord} {ref : OriginTraceEventReference}
    (h : Seen seen ref) : ref.reserved = 0 := by
  obtain ⟨event, -, -, rfl⟩ := h
  rfl

theorem Seen.numbered {seen : List EventRecord} {ref : OriginTraceEventReference}
    (h : Seen seen ref) (numbered : Numbered seen) (session : ref.sessionId ≠ 0) :
    ref.sequenceNumber ≠ 0 := by
  obtain ⟨event, member, valid, rfl⟩ := h
  exact numbered event member valid session

/-- With numbered events an edge that joins two of them is valid. -/
theorem valid_of_joins {seen : List EventRecord} {edge : OriginTraceEdge} (form : WellFormed edge)
    (joins : Joins seen edge) (numbered : Numbered seen) : isValidOriginTraceEdge edge = true := by
  have target : edge.target.sessionId ≠ 0 := joins.session ▸ form.session
  have knownRelation : (edge.relation == .kParentEvent || edge.relation == .kRequestInitiator ||
      edge.relation == .kRequestLifecycle || edge.relation == .kArtifactRequest ||
      edge.relation == .kIssuedDuringInvocation || edge.relation == .kInvocationSettlement) = true := by
    have := form.relation
    cases found : edge.relation <;> first | rfl | exact absurd found this
  have knownConfidence : (edge.confidence == .kObserved || edge.confidence == .kCorrelated) = true := by
    have := form.confidence
    cases found : edge.confidence <;> first | rfl | exact absurd found this
  simp only [isValidOriginTraceEdge, knownRelation, knownConfidence, Bool.and_true,
    Bool.and_eq_true, beq_iff_eq, bne_iff_ne, ne_eq]
  exact ⟨⟨⟨⟨⟨⟨⟨⟨form.protocolVersion, form.reserved⟩, joins.source.reserved⟩,
    joins.target.reserved⟩, form.session⟩, joins.session⟩,
    joins.source.numbered numbered form.session⟩, joins.target.numbered numbered target⟩,
    joins.distinct⟩

namespace OriginTraceIndex

/-! ## The invariant -/

/-- What an entry of each map says about its key. -/
structure Grounded (index : OriginTraceIndex) (seen : List EventRecord) : Prop where
  events : index.events.Holds fun ref _ => Seen seen ref
  requests : index.requests.Holds fun key ref => ref.sessionId = key.sessionId
  legacyRequests : index.legacyRequests.Holds fun key state =>
    state.event.sessionId = key.sessionId ∧
      (state.initiator.sessionId = 0 ∨ state.initiator.sessionId = key.sessionId)
  invocations : index.invocations.Holds fun key state => state.start.sessionId = key.sessionId
  pending : ∀ entry ∈ index.pendingInitiators, ∃ event,
    entry.2 = pendingEdge event ∧ event.header.sessionId = entry.1.sessionId

variable {index : OriginTraceIndex} {seen : List EventRecord} {event : EventRecord}

theorem Grounded.mono (h : Grounded index seen) (event : EventRecord) :
    Grounded index (seen ++ [event]) := by
  refine { h with events := ?_ }
  intro ref _ found
  obtain ⟨e, member, valid, eq⟩ := h.events ref _ found
  exact ⟨e, List.mem_append_left _ member, valid, eq⟩

theorem Grounded.contained_seen (h : Grounded index seen) {ref : OriginTraceEventReference}
    (contained : index.contains ref = true) : Seen seen ref := by
  obtain ⟨v, found⟩ := Option.isSome_iff_exists.1
    (AList.lookup_isSome.2 (of_decide_eq_true contained))
  exact h.events ref v found

/-! ## Lookups -/

/-- What a lookup finds is contained and of the session of its key. -/
def Finds (index : OriginTraceIndex) (sessionId : UInt64) (found : OriginTraceEventReference) :
    Prop :=
  found.sessionId ≠ 0 → index.contains found = true ∧ found.sessionId = sessionId

theorem Finds.none (index : OriginTraceIndex) (sessionId : UInt64) : Finds index sessionId {} :=
  fun nonzero => absurd rfl nonzero

theorem find_legacy_request_finds (h : Grounded index seen) (key : LegacyRequestKey) :
    Finds index key.sessionId (index.findLegacyRequest key) := by
  unfold findLegacyRequest
  split
  · exact .none index _
  · rename_i state found
    split
    · exact .none index _
    · rename_i usable
      simp only [Bool.or_eq_true, Bool.not_eq_true', not_or, Bool.not_eq_false] at usable
      exact fun _ => ⟨usable.2, (h.legacyRequests key state found).1⟩

theorem find_initiator_finds (h : Grounded index seen) (key : LegacyRequestKey) :
    Finds index key.sessionId (index.findInitiator key) := by
  unfold findInitiator
  split
  · exact .none index _
  · rename_i state found
    split
    · exact .none index _
    · rename_i usable
      simp only [Bool.or_eq_true, Bool.not_eq_true', not_or, Bool.not_eq_false] at usable
      exact fun nonzero =>
        ⟨usable.2, (h.legacyRequests key state found).2.resolve_left nonzero⟩

theorem find_request_finds (h : Grounded index seen) (event : EventRecord) :
    Finds index event.header.sessionId (index.findRequest event) := by
  unfold findRequest
  split
  · exact .none index _
  split
  · split
    · exact .none index _
    · rename_i ref found
      split
      · rename_i contained
        exact fun _ => ⟨contained, h.requests _ ref found⟩
      · exact .none index _
  · exact find_legacy_request_finds h _

theorem find_invocation_finds (h : Grounded index seen) (key : InvocationKey) :
    Finds index key.sessionId (index.findInvocation key) := by
  unfold findInvocation
  split
  · exact .none index _
  · rename_i state found
    split
    · exact .none index _
    · rename_i usable
      simp only [Bool.or_eq_true, Bool.not_eq_true', not_or, Bool.not_eq_false] at usable
      exact fun _ => ⟨usable.2, h.invocations key state found⟩

/-! ## Edges -/

/-- Every edge of the batch joins two of the events `seen`. -/
def BatchJoins (seen : List EventRecord) (batch : OriginTraceEdgeBatch) : Prop :=
  ∀ edge ∈ batch, WellFormed edge ∧ Joins seen edge

theorem BatchJoins.append {batch more : OriginTraceEdgeBatch} (h : BatchJoins seen batch)
    (new : BatchJoins seen more) : BatchJoins seen (batch ++ more) := by
  intro edge member
  rcases List.mem_append.1 member with old | added
  · exact h edge old
  · exact new edge added

theorem add_edge_joins (h : Grounded index seen) {batch : OriginTraceEdgeBatch}
    (joins : BatchJoins seen batch) (own : Seen seen (reference event))
    {target : OriginTraceEventReference}
    (session : target.sessionId ≠ 0 → target.sessionId = event.header.sessionId)
    {relation : OriginTraceRelation} (known : relation ≠ .kUnknown)
    {confidence : OriginTraceConfidence} (sure : confidence ≠ .kUnknown) :
    BatchJoins seen (index.addEdge batch event target relation confidence) := by
  unfold addEdge
  dsimp only
  split
  · exact joins
  rename_i usable
  split
  · exact joins
  split
  · exact joins
  simp only [Bool.or_eq_true, beq_iff_eq, Bool.not_eq_true', not_or, Bool.not_eq_false] at usable
  obtain ⟨⟨nonzero, other⟩, contained⟩ := usable
  have same := session nonzero
  refine joins.append fun edge member => ?_
  rw [List.mem_singleton] at member
  subst member
  exact ⟨⟨rfl, known, sure, rfl, fun zero => nonzero (same.trans zero)⟩,
    ⟨own, h.contained_seen contained, Ne.symm other, same.symm⟩⟩

theorem parent_edges_joins (h : Grounded index seen) (own : Seen seen (reference event)) :
    BatchJoins seen (index.parentEdges event) := by
  have empty : BatchJoins seen [] := fun edge member => absurd member List.not_mem_nil
  unfold parentEdges
  split
  · exact add_edge_joins h empty own (fun _ => rfl) (by decide) (by decide)
  · exact empty

theorem lifecycle_edges_joins (h : Grounded index seen) {batch : OriginTraceEdgeBatch}
    (joins : BatchJoins seen batch) (own : Seen seen (reference event)) :
    BatchJoins seen (index.lifecycleEdges event batch) := by
  have session : (index.findRequest event).sessionId ≠ 0 →
      (index.findRequest event).sessionId = event.header.sessionId :=
    fun nonzero => (find_request_finds h event nonzero).2
  unfold lifecycleEdges
  split
  · exact joins
  split
  · exact add_edge_joins h joins own session (by decide) (by decide)
  · exact add_edge_joins h joins own session (by decide) (by decide)

/-! ## The steps of a call -/

theorem remember_pending_initiator_grounded (h : Grounded index seen) (event : EventRecord)
    {key : LegacyRequestKey} (session : event.header.sessionId = key.sessionId) :
    Grounded (index.rememberPendingInitiator event key) seen := by
  have added : ∀ {pending : List (LegacyRequestKey × OriginTraceEdge)},
      (∀ entry ∈ pending, entry ∈ index.pendingInitiators) →
      ∀ entry ∈ pending ++ [(key, pendingEdge event)], ∃ e,
        entry.2 = pendingEdge e ∧ e.header.sessionId = entry.1.sessionId := by
    intro pending kept entry member
    rcases List.mem_append.1 member with old | new
    · exact h.pending entry (kept entry old)
    · rw [List.mem_singleton] at new
      subst new
      exact ⟨event, rfl, session⟩
  unfold rememberPendingInitiator
  split
  rename_i pending order expired
  refine { h with pending := added ?_ }
  split at expired
  · cases expired
    exact fun _ member => member
  · split at expired
    · cases expired
      exact fun _ member => List.mem_of_mem_eraseP member
    · cases expired
      exact fun _ member => member

theorem index_initiator_joins (h : Grounded index seen) {batch : OriginTraceEdgeBatch}
    (joins : BatchJoins seen batch) (own : Seen seen (reference event)) :
    Grounded (index.indexInitiator event batch).1 seen ∧
      BatchJoins seen (index.indexInitiator event batch).2 := by
  unfold indexInitiator
  split
  · have edges : BatchJoins seen (index.addEdge batch event
        (index.findInitiator (initiatorKey event)) .kRequestInitiator .kObserved) :=
      add_edge_joins h joins own
        (fun nonzero => (find_initiator_finds h (initiatorKey event) nonzero).2) (by decide)
        (by decide)
    refine ⟨?_, edges⟩
    dsimp only
    split
    · exact remember_pending_initiator_grounded h event rfl
    · exact h
  · exact ⟨h, joins⟩

theorem remember_event_grounded (h : Grounded index seen) (own : Seen seen (reference event)) :
    Grounded (index.rememberEvent (reference event)) seen :=
  { h with events := h.events.push own }

theorem update_session {state : LegacyRequestState} {sessionId : UInt64}
    {ref : OriginTraceEventReference} (session : ref.sessionId = sessionId)
    (held : state.event.sessionId = sessionId ∧
      (state.initiator.sessionId = 0 ∨ state.initiator.sessionId = sessionId)) :
    (LegacyRequestState.update state event ref).event.sessionId = sessionId ∧
      ((LegacyRequestState.update state event ref).initiator.sessionId = 0 ∨
        (LegacyRequestState.update state event ref).initiator.sessionId = sessionId) := by
  have settle : ∀ s : LegacyRequestState, (s.event.sessionId = sessionId ∧
      (s.initiator.sessionId = 0 ∨ s.initiator.sessionId = sessionId)) →
      ∀ next : LegacyRequestState, (next.event = s.event ∨ next.event = ref) →
      (next.initiator = s.initiator ∨ next.initiator = ref) →
      next.event.sessionId = sessionId ∧
        (next.initiator.sessionId = 0 ∨ next.initiator.sessionId = sessionId) := by
    intro s held next eventEq initiatorEq
    constructor
    · rcases eventEq with eq | eq
      · exact eq ▸ held.1
      · exact eq ▸ session
    · rcases initiatorEq with eq | eq
      · exact eq ▸ held.2
      · exact .inr (eq ▸ session)
  refine settle state held _ ?_ ?_
  all_goals
    unfold LegacyRequestState.update
    dsimp only
    repeat' split
    all_goals first | exact .inl rfl | exact .inr rfl

theorem remember_request_grounded (h : Grounded index seen) (event : EventRecord) :
    Grounded (index.rememberRequest event (reference event)) seen := by
  unfold rememberRequest
  split
  · exact h
  have exactly : Grounded (index.rememberExactRequest event (reference event)) seen := by
    unfold rememberExactRequest
    split
    · refine { h with requests := ?_ }
      dsimp only
      split
      · exact h.requests.set rfl
      · exact h.requests.push rfl
    · exact h
  refine { exactly with legacyRequests := ?_ }
  unfold rememberLegacyRequest
  dsimp only
  split
  · refine exactly.legacyRequests.push ⟨rfl, ?_⟩
    unfold newLegacyState
    dsimp only
    split
    · exact .inr rfl
    · exact .inl rfl
  · rename_i state found
    have held := exactly.legacyRequests _ state found
    have session : (reference event).sessionId = (legacyRequestKey event).sessionId := rfl
    exact exactly.legacyRequests.set (update_session session held)

theorem resolve_pending_initiators_joins (h : Grounded index seen) (event : EventRecord)
    {batch : OriginTraceEdgeBatch} (joins : BatchJoins seen batch) :
    Grounded (index.resolvePendingInitiators event batch).1 seen ∧
      BatchJoins seen (index.resolvePendingInitiators event batch).2 := by
  unfold resolvePendingInitiators
  split
  · exact ⟨h, joins⟩
  refine ⟨{ h with pending := fun entry member => h.pending entry (List.mem_of_mem_filter member) },
    joins.append fun edge member => ?_⟩
  -- an edge that waited, completed with the initiator that was found
  rw [List.mem_mergeSort, List.mem_map] at member
  obtain ⟨waited, kept, rfl⟩ := member
  obtain ⟨waits, usable⟩ := List.mem_filter.1 kept
  obtain ⟨entry, queued, rfl⟩ := List.mem_map.1 waits
  obtain ⟨pending, keyEq⟩ := List.mem_filter.1 queued
  obtain ⟨origin, edgeEq, session⟩ := h.pending entry pending
  simp only [Bool.and_eq_true, bne_iff_ne, ne_eq] at usable
  obtain ⟨⟨nonzero, contained⟩, other⟩ := usable
  obtain ⟨found, foundSession⟩ := find_initiator_finds h (legacyRequestKey event) nonzero
  have sourceSession : entry.2.source.sessionId = (legacyRequestKey event).sessionId := by
    rw [edgeEq, ← eq_of_beq keyEq]
    exact session
  have known : OriginTraceRelation.kRequestInitiator ≠ .kUnknown := by decide
  have sure : OriginTraceConfidence.kObserved ≠ .kUnknown := by decide
  refine ⟨⟨?_, ?_, ?_, ?_, ?_⟩, ⟨h.contained_seen contained, h.contained_seen found, other,
    sourceSession.trans foundSession.symm⟩⟩
  · rw [edgeEq]; rfl
  · rw [edgeEq]; exact known
  · rw [edgeEq]; exact sure
  · rw [edgeEq]; rfl
  · intro zero
    exact nonzero (foundSession.trans (sourceSession.symm.trans zero))

theorem remember_invocation_grounded (h : Grounded index seen) (event : EventRecord)
    (payload : JsInvocationStartPayload) :
    Grounded (index.rememberInvocation event payload) seen := by
  refine { h with invocations := ?_ }
  unfold rememberInvocation
  dsimp only
  split
  · rename_i state found
    exact h.invocations.set (h.invocations _ state found)
  · exact h.invocations.push rfl

theorem index_invocation_joins (h : Grounded index seen) {batch : OriginTraceEdgeBatch}
    (joins : BatchJoins seen batch) (own : Seen seen (reference event)) :
    Grounded (index.indexInvocation event batch).1 seen ∧
      BatchJoins seen (index.indexInvocation event batch).2 := by
  unfold indexInvocation
  dsimp only
  split
  · split
    · exact ⟨h, joins⟩
    · exact ⟨remember_invocation_grounded h event _, joins⟩
  · split
    · exact ⟨h, joins⟩
    · rename_i payload _
      exact ⟨h, add_edge_joins h joins own (fun nonzero => (find_invocation_finds h
        (invocationKey event payload.invocationId) nonzero).2) (by decide) (by decide)⟩
  · split
    · exact ⟨h, joins⟩
    · rename_i payload _
      split
      · exact ⟨h, joins⟩
      · rename_i usable
        simp only [Bool.or_eq_true, beq_iff_eq, not_or] at usable
        obtain ⟨⟨⟨-, request⟩, start⟩, other⟩ := usable
        obtain ⟨requestIn, requestSession⟩ :=
          find_initiator_finds h (legacyRequestKey event) request
        obtain ⟨startIn, startSession⟩ :=
          find_invocation_finds h (invocationKey event payload.invocationId) start
        have known : OriginTraceRelation.kIssuedDuringInvocation ≠ .kUnknown := by decide
        have sure : OriginTraceConfidence.kObserved ≠ .kUnknown := by decide
        refine ⟨h, joins.append fun edge member => ?_⟩
        rw [List.mem_singleton] at member
        subst member
        exact ⟨⟨rfl, known, sure, rfl, request⟩,
          ⟨h.contained_seen requestIn, h.contained_seen startIn, other, requestSession.trans startSession.symm⟩⟩
  · exact ⟨h, joins⟩

/-- One call: what it returns joins the events up to this one, and so does what it
keeps. -/
theorem ingest_joins (h : Grounded index seen) (event : EventRecord) :
    Grounded (index.ingest event).1 (seen ++ [event]) ∧
      BatchJoins (seen ++ [event]) (index.ingest event).2 := by
  have grown := h.mono event
  rcases refused_or_accepted index event with refused | ⟨valid, fresh⟩
  · obtain ⟨stats, eq⟩ := ingest_refused refused
    rw [eq]
    exact ⟨{ grown with }, fun edge member => absurd member List.not_mem_nil⟩
  · obtain ⟨initiated, requested, resolved, invoked, stats, one, two, three, four, eq⟩ :=
      ingest_steps index valid fresh
    have own : Seen (seen ++ [event]) (reference event) := ⟨event, by simp, valid, rfl⟩
    obtain ⟨first, firstJoins⟩ :=
      one ▸ index_initiator_joins grown (parent_edges_joins grown own) own
    have remembered := remember_event_grounded first own
    have second : Grounded requested (seen ++ [event]) := by
      rw [← two]
      split
      · exact remembered
      · exact remember_request_grounded remembered event
    obtain ⟨third, thirdJoins⟩ := three ▸ resolve_pending_initiators_joins second event
      (lifecycle_edges_joins first firstJoins own)
    obtain ⟨fourth, fourthJoins⟩ := four ▸ index_invocation_joins third thirdJoins own
    rw [eq]
    exact ⟨{ fourth with }, fourthJoins⟩

/-! ## Along a run -/

theorem Grounded.after (h : Grounded index seen) (run : List EventRecord) :
    Grounded (index.after run) (seen ++ run) := by
  induction run generalizing index seen with
  | nil => rwa [List.append_nil]
  | cons event rest ih =>
      have next := ih (ingest_joins h event).1
      rwa [List.append_assoc, List.singleton_append] at next

theorem construct_grounded {capacity : UInt64} (constructed : construct capacity = .ok index) :
    Grounded index [] := by
  obtain ⟨-, rfl⟩ := construct_eq constructed
  exact ⟨.empty, .empty, .empty, .empty, fun entry member => absurd member List.not_mem_nil⟩

/-- Every edge a run returns joins two different events of one session, ingested no
later than the call that returned it. -/
theorem edges_join {capacity : UInt64} {start : OriginTraceIndex}
    (constructed : construct capacity = .ok start) (past : List EventRecord) (event : EventRecord) :
    BatchJoins (past ++ [event]) ((start.after past).ingest event).2 := by
  have grounded := (construct_grounded constructed).after past
  rw [List.nil_append] at grounded
  exact (ingest_joins grounded event).2

/-- In a run of numbered events every returned edge is valid, and joins two different
events of one session ingested no later than the call. -/
theorem edges_valid {capacity : UInt64} {start : OriginTraceIndex}
    (constructed : construct capacity = .ok start) {past : List EventRecord} {event : EventRecord}
    (numbered : Numbered (past ++ [event])) :
    ∀ edge ∈ ((start.after past).ingest event).2,
      isValidOriginTraceEdge edge = true ∧ Joins (past ++ [event]) edge := by
  intro edge member
  obtain ⟨form, joins⟩ := edges_join constructed past event edge member
  exact ⟨valid_of_joins form joins numbered, joins⟩

/-- A record of one request's lifecycle. -/
def lifecycleRecord (type : EventType) (sequenceNumber : UInt64) : EventRecord :=
  { header :=
      { category := .network, type, sessionId := 1, sequenceNumber, processId := 2
        requestId := 5 } }

theorem edges_valid_lifecycle :
    ((after { capacity := 2 } [lifecycleRecord .requestStarted 1]).ingest
        (lifecycleRecord .responseStarted 2)).2.all isValidOriginTraceEdge = true ∧
      ((after { capacity := 2 } [lifecycleRecord .requestStarted 1]).ingest
        (lifecycleRecord .responseStarted 2)).2.length = 1 := by
  have numbered : Numbered
      ([lifecycleRecord .requestStarted 1] ++ [lifecycleRecord .responseStarted 2]) := by
    unfold Numbered
    decide
  have edges := edges_valid (show construct 2 = .ok { capacity := 2 } from rfl) numbered
  exact ⟨List.all_eq_true.2 fun edge member => (edges edge member).1, by decide +kernel⟩

/-- A response numbered zero is a valid event, and its edge to the request is not valid. -/
theorem unnumbered_edge_invalid :
    isValidEvent (lifecycleRecord .requestStarted 1) = true ∧
      isValidEvent (lifecycleRecord .responseStarted 0) = true ∧
      ∃ edge ∈ ((after { capacity := 2 } [lifecycleRecord .requestStarted 1]).ingest
        (lifecycleRecord .responseStarted 0)).2, isValidOriginTraceEdge edge = false := by
  decide +kernel

end OriginTraceIndex

end Reb.Evidence
