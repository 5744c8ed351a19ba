/-
# Evidence.InitiatorSteps -- what recording one event does

One lemma for each part of the state, and from them the step of a fresh valid
event (`ingest_fresh`): the invariants move on to the longer list, and the batch
holds exactly the pairs the event completes.
-/
import Reb.Evidence.InitiatorEdges

namespace Reb.Evidence.OriginTraceIndex

set_option autoImplicit false

open Reb.Capture Reb.Theory.FifoMap

variable {index : OriginTraceIndex} {recorded : List EventRecord} {event : EventRecord}

/-- No recorded event has this event's reference. -/
def Fresh (recorded : List EventRecord) (event : EventRecord) : Prop :=
  ∀ e ∈ recorded, reference e ≠ reference event

/-- With room for one more, and with the rules on keys still true of the longer
list. -/
structure Admissible (index : OriginTraceIndex) (recorded : List EventRecord)
    (event : EventRecord) : Prop where
  fresh : Fresh recorded event
  space : recorded.length < index.capacity.toNat
  unique : UniqueInitiators (recorded ++ [event])
  context : OneContext (recorded ++ [event])

/-- A fresh event's key has no earlier initiator if it is one itself. -/
theorem Admissible.no_earlier (admissible : Admissible index recorded event)
    (initiated : isRequestInitiated event = true) (nonzero : event.header.requestId ≠ 0) :
    ∀ i ∈ recorded, isRequestInitiated i = true → legacyRequestKey i ≠ legacyRequestKey event := by
  intro i member iInitiated same
  have eq : event = i := admissible.unique event (by simp) i (by simp [member]) initiated iInitiated
    nonzero same.symm
  exact admissible.fresh i member (by rw [eq])

theorem Admissible.unique_earlier (admissible : Admissible index recorded event) :
    UniqueInitiators recorded := fun a aMember b bMember =>
  admissible.unique a (by simp [aMember]) b (by simp [bMember])

/-! ## Contained references -/

theorem remember_event_of (events : EventsOf index.events recorded)
    (space : recorded.length < index.capacity.toNat) :
    EventsOf (index.rememberEvent (reference event)).events (recorded ++ [event]) := by
  have sizeLt : size index.events.map < index.capacity.toNat := events.size_le.trans_lt space
  constructor
  · intro ref
    rw [rememberEvent, Cache.map_push_of_lt sizeLt, AList.mem_insert, events.mem_iff]
    simp only [List.mem_append, List.mem_singleton, or_and_right, exists_or, exists_eq_left]
    rw [or_comm, eq_comm (a := ref)]
  · rw [rememberEvent, Cache.map_push_of_lt sizeLt, List.length_append, List.length_singleton]
    exact (Cache.size_insert_le _ _ _).trans (Nat.succ_le_succ events.size_le)

/-! ## Request states -/

/-- A later record of another key, or one that initiates nothing, leaves a state
correct. -/
theorem StateOf.mono {key : LegacyRequestKey} {state : LegacyRequestState}
    (spec : StateOf recorded key state)
    (other : isRequestInitiated event = true → legacyRequestKey event ≠ key) :
    StateOf (recorded ++ [event]) key state where
  nonzero := spec.nonzero
  unambiguous := spec.unambiguous
  initiator := by
    rcases spec.initiator with ⟨i, member, rest⟩ | ⟨eq, none⟩
    · exact .inl ⟨i, by simp [member], rest⟩
    · refine .inr ⟨eq, fun i member => ?_⟩
      rcases List.mem_append.1 member with old | new
      · exact none i old
      · rw [List.mem_singleton.1 new]; exact other
  context := by
    rcases spec.context with zero | ⟨e, member, rest⟩
    · exact .inl zero
    · exact .inr ⟨e, by simp [member], rest⟩

theorem new_legacy_state_of (legacy : LegacyOf index.legacyRequests recorded)
    (evidence : isRequestEvidence event = true)
    (absent : index.legacyRequests.map.lookup (legacyRequestKey event) = none) :
    StateOf (recorded ++ [event]) (legacyRequestKey event)
      (newLegacyState event (reference event)) := by
  have nonzero : event.header.requestId ≠ 0 := by
    simp only [isRequestEvidence, Bool.and_eq_true, bne_iff_ne, ne_eq] at evidence
    exact evidence.1
  refine ⟨nonzero, rfl, ?_, ?_⟩
  · by_cases initiated : isRequestInitiated event = true
    · exact .inl ⟨event, by simp, initiated, rfl, by simp [newLegacyState, initiated]⟩
    · refine .inr ⟨by simp [newLegacyState, initiated], fun i member iInitiated same => ?_⟩
      rcases List.mem_append.1 member with old | new
      · have iNonzero : i.header.requestId ≠ 0 := by
          rw [show i.header.requestId = event.header.requestId from
            congrArg LegacyRequestKey.requestId same]
          exact nonzero
        exact legacy.absent _ absent i old iInitiated iNonzero same
      · rw [List.mem_singleton.1 new] at iInitiated
        exact initiated iInitiated
  · by_cases context : hasBrowserContext event = true
    · exact .inr ⟨event, by simp, evidence, rfl, context, rfl, rfl⟩
    · simp only [hasBrowserContext, Bool.or_eq_true, bne_iff_ne, ne_eq, not_or, not_not] at context
      exact .inl context

/-- A later record of the key: its context agrees and it is no second initiator,
so the state stays unambiguous. -/
theorem update_state_of {state : LegacyRequestState} (admissible : Admissible index recorded event)
    (evidence : isRequestEvidence event = true)
    (spec : StateOf recorded (legacyRequestKey event) state) :
    StateOf (recorded ++ [event]) (legacyRequestKey event)
      (LegacyRequestState.update state event (reference event)) := by
  have agree : ((state.browserContextIdHigh != 0 || state.browserContextIdLow != 0) &&
      hasBrowserContext event &&
      (state.browserContextIdHigh != event.header.browserContextIdHigh ||
        state.browserContextIdLow != event.header.browserContextIdLow)) = false := by
    rcases spec.context with ⟨high, low⟩ | ⟨e, member, eEvidence, same, eContext, high, low⟩
    · simp [high, low]
    · by_cases context : hasBrowserContext event = true
      · obtain ⟨sameHigh, sameLow⟩ := admissible.context e (by simp [member]) event (by simp)
          eEvidence evidence same eContext context
        simp [high, low, sameHigh, sameLow]
      · simp [context]
  have first : isRequestInitiated event = true → state.initiator = {} := by
    intro initiated
    rcases spec.initiator with ⟨i, member, iInitiated, same, -⟩ | ⟨eq, -⟩
    · exact absurd same (admissible.no_earlier initiated spec.nonzero i member iInitiated)
    · exact eq
  unfold LegacyRequestState.update
  dsimp only
  rw [if_neg (by rw [agree]; exact Bool.false_ne_true)]
  by_cases initiated : isRequestInitiated event = true
  · have noConflict : (state.initiator.sessionId != 0 &&
        state.initiator != reference event) = false := by simp [first initiated]
    simp only [initiated, if_true, noConflict, Bool.false_eq_true, if_false, spec.unambiguous]
    split
    · rename_i context
      exact ⟨spec.nonzero, rfl, .inl ⟨event, by simp, initiated, rfl, rfl⟩,
        .inr ⟨event, by simp, evidence, rfl, context, rfl, rfl⟩⟩
    · refine ⟨spec.nonzero, rfl, .inl ⟨event, by simp, initiated, rfl, rfl⟩, ?_⟩
      rcases spec.context with zero | ⟨e, member, rest⟩
      · exact .inl zero
      · exact .inr ⟨e, by simp [member], rest⟩
  · have kept : StateOf (recorded ++ [event]) (legacyRequestKey event) state :=
      StateOf.mono spec fun yes => absurd yes initiated
    rw [if_neg initiated, if_neg (by simp [spec.unambiguous])]
    split
    · rename_i context
      exact ⟨kept.nonzero, kept.unambiguous, kept.initiator,
        .inr ⟨event, by simp, evidence, rfl, context, rfl, rfl⟩⟩
    · exact ⟨kept.nonzero, kept.unambiguous, kept.initiator, kept.context⟩

/-- A record that is not a request's evidence, or is a child, changes no state. -/
theorem legacy_of_skip (legacy : LegacyOf index.legacyRequests recorded)
    (skipped : isRequestChildRecord event = true ∨ isRequestEvidence event = false) :
    LegacyOf index.legacyRequests (recorded ++ [event]) := by
  have no : isRequestInitiated event = true → event.header.requestId = 0 := by
    intro initiated
    by_contra nonzero
    rcases skipped with child | other
    · rw [not_child_of_initiated initiated] at child; cases child
    · rw [evidence_of_initiated initiated nonzero] at other; cases other
  refine ⟨?_, ?_, ?_⟩
  · rw [List.length_append]; exact legacy.size_le.trans (Nat.le_add_right _ _)
  · intro key absent e member initiated nonzero
    rcases List.mem_append.1 member with old | new
    · exact legacy.absent key absent e old initiated nonzero
    · rw [List.mem_singleton.1 new] at initiated nonzero
      exact absurd (no initiated) nonzero
  · intro key state found
    have spec := legacy.present key state found
    refine StateOf.mono spec fun initiated same => spec.nonzero ?_
    rw [← same]; exact no initiated

theorem remember_legacy_request_of (legacy : LegacyOf index.legacyRequests recorded)
    (admissible : Admissible index recorded event) (evidence : isRequestEvidence event = true) :
    LegacyOf (index.rememberLegacyRequest event (reference event)).legacyRequests
      (recorded ++ [event]) := by
  have sizeLt : size index.legacyRequests.map < index.capacity.toNat :=
    legacy.size_le.trans_lt admissible.space
  -- Both branches write the event's key and leave every other lookup alone.
  obtain ⟨written, eq, writtenOf⟩ : ∃ written,
      (index.rememberLegacyRequest event (reference event)).legacyRequests.map =
        index.legacyRequests.map.insert (legacyRequestKey event) written ∧
      StateOf (recorded ++ [event]) (legacyRequestKey event) written := by
    cases found : index.legacyRequests.map.lookup (legacyRequestKey event) with
    | none =>
        refine ⟨_, ?_, new_legacy_state_of legacy evidence found⟩
        simp only [rememberLegacyRequest, found]
        exact Cache.map_push_of_lt sizeLt _ _
    | some state =>
        refine ⟨_, ?_, update_state_of admissible evidence (legacy.present _ _ found)⟩
        simp only [rememberLegacyRequest, found]
        rfl
  refine ⟨?_, ?_, ?_⟩
  · rw [eq, List.length_append, List.length_singleton]
    exact (Cache.size_insert_le _ _ _).trans (Nat.succ_le_succ legacy.size_le)
  · intro key absent e member initiated nonzero same
    rw [eq] at absent
    by_cases mine : key = legacyRequestKey event
    · rw [mine, AList.lookup_insert] at absent; cases absent
    · rw [AList.lookup_insert_ne mine] at absent
      rcases List.mem_append.1 member with old | new
      · exact legacy.absent key absent e old initiated nonzero same
      · rw [List.mem_singleton.1 new] at same
        exact mine same.symm
  · intro key state found
    rw [eq] at found
    by_cases mine : key = legacyRequestKey event
    · subst mine
      rw [AList.lookup_insert] at found
      cases found
      exact writtenOf
    · rw [AList.lookup_insert_ne mine] at found
      exact StateOf.mono (legacy.present _ _ found) fun _ => Ne.symm mine

/-- The request step of `Ingest`, with its frame. -/
theorem remember_request_of (legacy : LegacyOf index.legacyRequests recorded)
    (admissible : Admissible index recorded event) :
    let after :=
      if isRequestChildRecord event then index else index.rememberRequest event (reference event)
    LegacyOf after.legacyRequests (recorded ++ [event]) ∧ after.capacity = index.capacity ∧
      after.events = index.events ∧ after.pendingInitiators = index.pendingInitiators ∧
      after.pendingInitiatorOrder = index.pendingInitiatorOrder := by
  dsimp only
  split
  · rename_i child
    exact ⟨legacy_of_skip legacy (.inl child), rfl, rfl, rfl, rfl⟩
  unfold rememberRequest
  split
  · rename_i other
    exact ⟨legacy_of_skip legacy (.inr (by simpa using other)), rfl, rfl, rfl, rfl⟩
  rename_i evidence
  have exactFrame : ∀ ref, (index.rememberExactRequest event ref).legacyRequests =
      index.legacyRequests ∧ (index.rememberExactRequest event ref).capacity = index.capacity ∧
      (index.rememberExactRequest event ref).events = index.events ∧
      (index.rememberExactRequest event ref).pendingInitiators = index.pendingInitiators ∧
      (index.rememberExactRequest event ref).pendingInitiatorOrder =
        index.pendingInitiatorOrder := by
    intro ref
    unfold rememberExactRequest
    split <;> exact ⟨rfl, rfl, rfl, rfl, rfl⟩
  obtain ⟨sameLegacy, sameCapacity, sameEvents, samePending, sameOrder⟩ :=
    exactFrame (reference event)
  refine ⟨?_, sameCapacity, sameEvents, samePending, sameOrder⟩
  exact remember_legacy_request_of (by rw [sameLegacy]; exact legacy)
    ⟨admissible.fresh, by rw [sameCapacity]; exact admissible.space, admissible.unique,
      admissible.context⟩ (by simpa using evidence)

/-! ## Pending records -/

/-- The pairs a fresh record completes with an initiator recorded before it. -/
def backward (recorded : List EventRecord) (event : EventRecord) :
    Set (OriginTraceEventReference × OriginTraceEventReference) :=
  {p | ∃ i ∈ recorded, Initiates i event ∧
    ¬ (event.header.parentEventId ≠ 0 ∧ parentReference event = reference i) ∧
    p = (reference event, reference i)}

/-- The pairs a fresh initiator completes with the records waiting for it. -/
def forward (recorded : List EventRecord) (event : EventRecord) :
    Set (OriginTraceEventReference × OriginTraceEventReference) :=
  {p | ∃ e ∈ recorded, Initiates event e ∧ p = (reference e, reference event)}

/-- The parent step returns the parent's edge exactly when it is contained. -/
theorem parent_edges_shows (events : EventsOf index.events recorded) (fresh : Fresh recorded event)
    {i : EventRecord} (member : i ∈ recorded) (session : event.header.sessionId ≠ 0) :
    ((index.parentEdges event).any fun edge =>
        edge.source == reference event && edge.target == reference i) = true ↔
      event.header.parentEventId ≠ 0 ∧ parentReference event = reference i := by
  unfold parentEdges
  by_cases named : event.header.parentEventId = 0
  · simp [named]
  rw [if_pos (by simpa using named)]
  constructor
  · intro shown
    refine ⟨named, ?_⟩
    rcases add_edge_cases index [] event (parentReference event) .kParentEvent .kObserved
      with eq | ⟨eq, -⟩
    · rw [eq] at shown; simp at shown
    · rw [eq] at shown; simpa using shown
  · rintro ⟨-, same⟩
    have contained : index.contains (reference i) = true := (events.contains_iff _).2 ⟨i, member, rfl⟩
    have sameSession : (reference i).sessionId = event.header.sessionId := by rw [← same]; rfl
    have different : reference i ≠ reference event := fresh i member
    simp [addEdge, same, sameSession, session, different, contained,
      kMaxDirectOriginTraceEdgesPerEvent]

theorem parent_edges_length (index : OriginTraceIndex) (event : EventRecord) : (index.parentEdges event).length ≤ 1 := by
  unfold parentEdges
  split
  · rcases add_edge_cases index [] event (parentReference event) .kParentEvent .kObserved
      with eq | ⟨eq, -⟩ <;> simp [eq]
  · exact Nat.zero_le _

/-- The direct edge: returned when the initiator is recorded, unless the parent
edge already shows the pair. -/
theorem linksIn_direct_edge (events : EventsOf index.events recorded)
    (fresh : Fresh recorded event) {i : EventRecord} (member : i ∈ recorded)
    (session : event.header.sessionId ≠ 0)
    (sameSession : i.header.sessionId = event.header.sessionId) :
    linksIn (index.addEdge (index.parentEdges event) event (reference i) .kRequestInitiator
        .kObserved) =
      {p | ¬ (event.header.parentEventId ≠ 0 ∧ parentReference event = reference i) ∧
        p = (reference event, reference i)} := by
  have contained : index.contains (reference i) = true := (events.contains_iff _).2 ⟨i, member, rfl⟩
  have different : reference i ≠ reference event := fresh i member
  have usable : ((reference i).sessionId == 0 || reference i == reference event ||
      !index.contains (reference i)) = false := by
    simp [reference_session, sameSession, session, different, contained]
  have shows := parent_edges_shows events fresh member session
  unfold addEdge
  dsimp only
  rw [if_neg (by rw [usable]; exact Bool.false_ne_true)]
  split
  · rename_i shown
    rw [linksIn_parent_edges]
    ext p
    simp only [Set.mem_empty_iff_false, Set.mem_ofPred_eq, false_iff]
    exact fun h => h.1 (shows.1 shown)
  · rename_i notShown
    have short := parent_edges_length index event
    rw [if_neg (by rw [kMaxDirectOriginTraceEdgesPerEvent]; omega), linksIn_append,
      linksIn_parent_edges, Set.empty_union]
    ext p
    simp only [linksIn, List.mem_singleton, exists_eq_left, true_and, Set.mem_ofPred_eq]
    exact (and_iff_right (shows.not.1 notShown)).symm

/-- The initiator step returns the pairs completed backward. -/
theorem linksIn_initiator_edge (h : IndexOf index recorded)
    (admissible : Admissible index recorded event) (names : namesInitiator event = true) :
    linksIn (index.addEdge (index.parentEdges event) event
      (index.findInitiator (initiatorKey event)) .kRequestInitiator .kObserved) =
      backward recorded event := by
  have unique : UniqueInitiators recorded := admissible.unique_earlier
  rcases find_named_initiator h unique names with ⟨i, member, initiates, found⟩ | ⟨none, unusable⟩
  · have sameSession : i.header.sessionId = event.header.sessionId :=
      congrArg LegacyRequestKey.sessionId initiates.key
    rw [found, linksIn_direct_edge h.events admissible.fresh member initiates.session sameSession]
    ext p
    constructor
    · rintro ⟨notShown, eq⟩
      exact ⟨i, member, initiates, notShown, eq⟩
    · rintro ⟨j, jMember, jInitiates, notShown, eq⟩
      have same : i = j := unique i member j jMember initiates.initiated jInitiates.initiated
        initiates.request_ne_zero (initiates.key.trans jInitiates.key.symm)
      subst same
      exact ⟨notShown, eq⟩
  · have empty : backward recorded event = ∅ := by
      ext p
      simp only [backward, Set.mem_ofPred_eq, Set.mem_empty_iff_false, iff_false]
      rintro ⟨i, member, initiates, -⟩
      exact none i member initiates
    rw [empty]
    rcases add_edge_cases index (index.parentEdges event) event
      (index.findInitiator (initiatorKey event)) .kRequestInitiator .kObserved with eq | ⟨-, usable⟩
    · rw [eq, linksIn_parent_edges]
    · exact absurd unusable usable

/-- The entry of a fresh record is not there yet. -/
theorem PendingOf.not_mem_fresh {pending : List (LegacyRequestKey × OriginTraceEdge)}
    {order : List (LegacyRequestKey × OriginTraceEventReference)} {initiators : List EventRecord}
    (h : PendingOf pending order recorded initiators) (fresh : Fresh recorded event) :
    (initiatorKey event, pendingEdge event) ∉ pending := by
  intro there
  obtain ⟨e, member, -, eq⟩ := h.sound _ there
  exact fresh e member (congrArg OriginTraceEdge.source (Prod.mk.inj eq).2).symm

/-- A record that names no initiator never waits. -/
theorem PendingOf.skip {pending : List (LegacyRequestKey × OriginTraceEdge)}
    {order : List (LegacyRequestKey × OriginTraceEventReference)} {initiators : List EventRecord}
    (h : PendingOf pending order recorded initiators) (other : namesInitiator event = false) :
    PendingOf pending order (recorded ++ [event]) initiators := by
  refine ⟨?_, ?_, ?_⟩
  · rw [List.length_append]; exact h.order_le.trans (Nat.le_add_right _ _)
  · intro entry there
    obtain ⟨e, member, rest⟩ := h.sound entry there
    exact ⟨e, by simp [member], rest⟩
  · intro e member names session
    rcases List.mem_append.1 member with old | new
    · exact h.mem_iff e old names session
    · rw [List.mem_singleton.1 new, other] at names; cases names

/-- A record whose initiator is recorded does not start to wait. -/
theorem PendingOf.found {pending : List (LegacyRequestKey × OriginTraceEdge)}
    {order : List (LegacyRequestKey × OriginTraceEventReference)} {initiators : List EventRecord}
    (h : PendingOf pending order recorded initiators) (fresh : Fresh recorded event)
    {i : EventRecord} (member : i ∈ initiators) (initiates : Initiates i event) :
    PendingOf pending order (recorded ++ [event]) initiators := by
  refine ⟨?_, ?_, ?_⟩
  · rw [List.length_append]; exact h.order_le.trans (Nat.le_add_right _ _)
  · intro entry there
    obtain ⟨e, eMember, rest⟩ := h.sound entry there
    exact ⟨e, by simp [eMember], rest⟩
  · intro e eMember names session
    rcases List.mem_append.1 eMember with old | new
    · exact h.mem_iff e old names session
    · rw [List.mem_singleton.1 new]
      refine iff_of_false (h.not_mem_fresh fresh) fun none => ?_
      exact none i member initiates.initiated initiates.key

/-- A record without a recorded initiator starts to wait. -/
theorem PendingOf.wait {pending : List (LegacyRequestKey × OriginTraceEdge)}
    {order : List (LegacyRequestKey × OriginTraceEventReference)} {initiators : List EventRecord}
    (h : PendingOf pending order recorded initiators) (fresh : Fresh recorded event)
    (names : namesInitiator event = true) (none : ∀ i ∈ initiators, ¬ Initiates i event)
    (ref : OriginTraceEventReference) :
    PendingOf (pending ++ [(initiatorKey event, pendingEdge event)])
      (order ++ [(initiatorKey event, ref)]) (recorded ++ [event]) initiators := by
  refine ⟨?_, ?_, ?_⟩
  · rw [List.length_append, List.length_append]; exact Nat.add_le_add_right h.order_le _
  · intro entry there
    rcases List.mem_append.1 there with old | new
    · obtain ⟨e, member, rest⟩ := h.sound entry old
      exact ⟨e, by simp [member], rest⟩
    · exact ⟨event, by simp, names, List.mem_singleton.1 new⟩
  · intro e member eNames session
    rcases List.mem_append.1 member with old | new
    · rw [List.mem_append, List.mem_singleton, ← h.mem_iff e old eNames session]
      refine or_iff_left fun eq => fresh e old ?_
      exact congrArg OriginTraceEdge.source (Prod.mk.inj eq).2
    · rw [List.mem_singleton.1 new] at session ⊢
      refine iff_of_true (by simp) fun i iMember initiated key => ?_
      exact none i iMember ⟨initiated, names, key, session⟩

/-- The initiator step of `Ingest`. -/
theorem index_initiator_of (h : IndexOf index recorded)
    (admissible : Admissible index recorded event) :
    let after := index.indexInitiator event (index.parentEdges event)
    after.1.capacity = index.capacity ∧ after.1.events = index.events ∧
      after.1.legacyRequests = index.legacyRequests ∧
      linksIn after.2 = backward recorded event ∧
      PendingOf after.1.pendingInitiators after.1.pendingInitiatorOrder (recorded ++ [event])
        recorded := by
  unfold indexInitiator
  by_cases names : namesInitiator event = true
  · rw [if_pos (by exact names)]
    have direct := linksIn_initiator_edge h admissible names
    have notFull : index.pendingInitiatorOrder.length ≠ index.capacity.toNat :=
      (h.pending.order_le.trans_lt admissible.space).ne
    have kept : index.rememberPendingInitiator event (initiatorKey event) =
        { index with
          pendingInitiators :=
            index.pendingInitiators ++ [(initiatorKey event, pendingEdge event)]
          pendingInitiatorOrder :=
            index.pendingInitiatorOrder ++ [(initiatorKey event, reference event)] } := by
      unfold rememberPendingInitiator
      cases order : index.pendingInitiatorOrder with
      | nil => rfl
      | cons first rest =>
          rw [order] at notFull
          simp only [if_neg notFull]
    rcases find_named_initiator h admissible.unique_earlier names with
      ⟨i, member, initiates, found⟩ | ⟨none, unusable⟩
    · have usable : ((index.findInitiator (initiatorKey event)).sessionId == 0) = false := by
        rw [found, reference_session,
          show i.header.sessionId = event.header.sessionId from
            congrArg LegacyRequestKey.sessionId initiates.key]
        simpa using initiates.session
      simp only [usable, Bool.false_eq_true, if_false]
      exact ⟨trivial, trivial, trivial, direct, h.pending.found admissible.fresh member initiates⟩
    · simp only [unusable, beq_self_eq_true, if_true, kept]
      exact ⟨trivial, trivial, trivial, direct, h.pending.wait admissible.fresh names none _⟩
  · rw [if_neg (by exact names)]
    refine ⟨rfl, rfl, rfl, ?_, h.pending.skip (by simpa using names)⟩
    rw [linksIn_parent_edges]
    ext p
    simp only [backward, Set.mem_ofPred_eq, Set.mem_empty_iff_false, false_iff]
    rintro ⟨i, -, initiates, -⟩
    exact names initiates.names

/-! ## Resolving -/

/-- An event that initiates no request resolves nothing. -/
theorem PendingOf.no_initiator {pending : List (LegacyRequestKey × OriginTraceEdge)}
    {order : List (LegacyRequestKey × OriginTraceEventReference)} {records : List EventRecord}
    (h : PendingOf pending order records recorded)
    (other : isRequestInitiated event = true → event.header.requestId = 0) :
    PendingOf pending order records (recorded ++ [event]) := by
  refine ⟨h.order_le, h.sound, fun e member names session => ?_⟩
  rw [h.mem_iff e member names session]
  constructor
  · intro none i iMember initiated key
    rcases List.mem_append.1 iMember with old | new
    · exact none i old initiated key
    · rw [List.mem_singleton.1 new] at initiated key
      refine initiator_request_ne_zero names ?_
      rw [← key]; exact other initiated
  · exact fun none i iMember => none i (by simp [iMember])

/-- An initiator takes out the records waiting on its key. -/
theorem PendingOf.resolve {pending : List (LegacyRequestKey × OriginTraceEdge)}
    {order : List (LegacyRequestKey × OriginTraceEventReference)} {records : List EventRecord}
    (h : PendingOf pending order records recorded) (initiated : isRequestInitiated event = true) :
    PendingOf (pending.filter (·.1 != legacyRequestKey event)) order records
      (recorded ++ [event]) := by
  refine ⟨h.order_le, fun entry there => h.sound entry (List.mem_of_mem_filter there),
    fun e member names session => ?_⟩
  rw [List.mem_filter, h.mem_iff e member names session, bne_iff_ne]
  constructor
  · rintro ⟨none, other⟩ i iMember iInitiated key
    rcases List.mem_append.1 iMember with old | new
    · exact none i old iInitiated key
    · rw [List.mem_singleton.1 new] at key
      exact other key.symm
  · intro none
    exact ⟨fun i iMember => none i (by simp [iMember]), fun same =>
      none event (by simp) initiated same.symm⟩

/-- The resolving step of `Ingest`. -/
theorem resolve_pending_initiators_of (batch : OriginTraceEdgeBatch)
    (events : EventsOf index.events (recorded ++ [event]))
    (legacy : LegacyOf index.legacyRequests (recorded ++ [event]))
    (pending : PendingOf index.pendingInitiators index.pendingInitiatorOrder
      (recorded ++ [event]) recorded)
    (fresh : Fresh recorded event) (unique : UniqueInitiators (recorded ++ [event])) :
    let after := index.resolvePendingInitiators event batch
    after.1.capacity = index.capacity ∧
      IndexOf after.1 (recorded ++ [event]) ∧
      linksIn after.2 = linksIn batch ∪ forward recorded event := by
  unfold resolvePendingInitiators
  by_cases resolves : isRequestInitiated event = true ∧ event.header.requestId ≠ 0
  · obtain ⟨initiated, nonzero⟩ := resolves
    have target : index.findInitiator (legacyRequestKey event) = reference event :=
      find_initiator_of_mem events legacy unique (by simp) initiated nonzero
    have skip : (!isRequestInitiated event || event.header.requestId == 0) = false := by
      simp [initiated, nonzero]
    simp only [skip, Bool.false_eq_true, if_false, target]
    refine ⟨trivial, ⟨events, legacy, pending.resolve initiated⟩, ?_⟩
    rw [linksIn_append]
    congr 1
    ext p
    simp only [linksIn, List.mem_mergeSort, List.mem_map, List.mem_filter, beq_iff_eq,
      Bool.and_eq_true, bne_iff_ne, ne_eq, Set.mem_ofPred_eq]
    constructor
    · rintro ⟨-, ⟨edge, ⟨⟨entry, ⟨there, key⟩, rfl⟩, ⟨session, -⟩, -⟩, rfl⟩, -, rfl⟩
      obtain ⟨e, member, names, rfl⟩ := pending.sound entry there
      have old : e ∈ recorded := by
        rcases List.mem_append.1 member with old | new
        · exact old
        · rw [List.mem_singleton.1 new, not_names_of_initiated initiated] at names; cases names
      have sameSession : e.header.sessionId = event.header.sessionId :=
        congrArg LegacyRequestKey.sessionId key
      exact ⟨e, old, ⟨initiated, names, key.symm, sameSession ▸ session⟩, rfl⟩
    · rintro ⟨e, member, initiates, rfl⟩
      have there : (initiatorKey e, pendingEdge e) ∈ index.pendingInitiators := by
        refine (pending.mem_iff e (by simp [member]) initiates.names initiates.session).2 ?_
        intro i iMember iInitiated key
        have same : event = i := unique event (by simp) i (by simp [iMember]) initiated iInitiated
          nonzero (initiates.key.trans key.symm)
        exact fresh i iMember (by rw [same])
      have contained : index.contains (reference e) = true :=
        (events.contains_iff _).2 ⟨e, by simp [member], rfl⟩
      have sameSession : e.header.sessionId = event.header.sessionId :=
        (congrArg LegacyRequestKey.sessionId initiates.key).symm
      refine ⟨_, ⟨pendingEdge e, ⟨⟨_, ⟨there, initiates.key.symm⟩, rfl⟩, ⟨?_, contained⟩, ?_⟩, rfl⟩,
        rfl, rfl⟩
      · rw [reference_session, ← sameSession]; exact initiates.session
      · exact fresh e member
  · have skip : (!isRequestInitiated event || event.header.requestId == 0) = true := by
      by_cases initiated : isRequestInitiated event = true
      · have zero : event.header.requestId = 0 := by
          by_contra nonzero; exact resolves ⟨initiated, nonzero⟩
        simp [zero]
      · simp [initiated]
    rw [if_pos skip]
    refine ⟨rfl, ⟨events, legacy, pending.no_initiator fun initiated => ?_⟩, ?_⟩
    · by_contra nonzero; exact resolves ⟨initiated, nonzero⟩
    · have empty : forward recorded event = ∅ := by
        ext p
        simp only [forward, Set.mem_ofPred_eq, Set.mem_empty_iff_false, iff_false]
        rintro ⟨e, -, initiates, -⟩
        exact resolves ⟨initiates.initiated, initiates.request_ne_zero⟩
      rw [empty, Set.union_empty]

/-! ## One event -/

/-- **A fresh valid event** moves the invariants to the longer list, and its
batch holds exactly the pairs it completes. -/
theorem ingest_fresh (h : IndexOf index recorded) (admissible : Admissible index recorded event)
    (valid : isValidEvent event = true) :
    let after := index.ingest event
    after.1.capacity = index.capacity ∧ IndexOf after.1 (recorded ++ [event]) ∧
      linksIn after.2 = backward recorded event ∪ forward recorded event := by
  have notContained : index.contains (reference event) = false := by
    rw [Bool.eq_false_iff, Ne, h.events.contains_iff]
    rintro ⟨e, member, same⟩
    exact admissible.fresh e member same
  unfold ingest
  simp only [valid, notContained, Bool.not_true, Bool.false_eq_true, if_false]
  obtain ⟨capacity₁, events₁, legacy₁, links₁, pending₁⟩ := index_initiator_of h admissible
  generalize index.indexInitiator event (index.parentEdges event) = first at *
  have lifecycle : linksIn (first.1.lifecycleEdges event first.2) = backward recorded event :=
    (linksIn_lifecycle_edges event first.2).trans links₁
  generalize first.1.lifecycleEdges event first.2 = batch at *
  have events₂ : EventsOf (first.1.rememberEvent (reference event)).events (recorded ++ [event]) :=
    remember_event_of (by rw [events₁]; exact h.events) (by rw [capacity₁]; exact admissible.space)
  obtain ⟨legacy₃, capacity₃, sameEvents, samePending, sameOrder⟩ :=
    @remember_request_of (first.1.rememberEvent (reference event)) recorded event
      (show LegacyOf first.1.legacyRequests recorded by rw [legacy₁]; exact h.legacy)
      ⟨admissible.fresh, by
        show recorded.length < first.1.capacity.toNat
        rw [capacity₁]; exact admissible.space, admissible.unique, admissible.context⟩
  generalize (if isRequestChildRecord event then first.1.rememberEvent (reference event)
    else (first.1.rememberEvent (reference event)).rememberRequest event (reference event)) =
    third at *
  obtain ⟨capacity₄, indexOf₄, links₄⟩ := resolve_pending_initiators_of batch
    (by rw [sameEvents]; exact events₂) legacy₃
    (by rw [samePending, sameOrder]; exact pending₁) admissible.fresh admissible.unique
  generalize third.resolvePendingInitiators event batch = fourth at *
  obtain ⟨capacity₅, events₅, legacy₅, pending₅, order₅, links₅⟩ :=
    index_invocation_frame fourth.1 event fourth.2
  refine ⟨?_, ⟨?_, ?_, ?_⟩, ?_⟩
  · exact capacity₅.trans (capacity₄.trans (capacity₃.trans capacity₁))
  · show EventsOf (fourth.1.indexInvocation event fourth.2).1.events _
    rw [events₅]; exact indexOf₄.events
  · show LegacyOf (fourth.1.indexInvocation event fourth.2).1.legacyRequests _
    rw [legacy₅]; exact indexOf₄.legacy
  · show PendingOf (fourth.1.indexInvocation event fourth.2).1.pendingInitiators
      (fourth.1.indexInvocation event fourth.2).1.pendingInitiatorOrder _ _
    rw [pending₅, order₅]; exact indexOf₄.pending
  · exact links₅.trans (links₄.trans (by rw [lifecycle]))

end Reb.Evidence.OriginTraceIndex
