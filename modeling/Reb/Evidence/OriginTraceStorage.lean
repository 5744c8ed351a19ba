/-
# Evidence.OriginTraceStorage -- the index stays within its capacity

Each call makes at most one change to each of the four caches (`ingest_changes`), so
`Cache.Bounded.run` carries their bound and the order of their queues along a run.

The pending multimap and its queue are tied by counting: an initiator waits in the
multimap no more often than the queue lists it (`Queued`).  Resolving a request empties
its key in the multimap and leaves the queue alone, and expiry takes one entry from
both, so the queue may list what no longer waits and never the other way round.
-/
import Reb.Evidence.OriginTrace

namespace Reb.Evidence.OriginTraceIndex

set_option autoImplicit false

open Reb.Capture Reb.Theory.FifoMap

variable {index : OriginTraceIndex}

/-! ## The caches -/

/-- What one call does to the caches. -/
structure Changes (index after : OriginTraceIndex) : Prop where
  capacity : after.capacity = index.capacity
  events : Cache.Change index.capacity.toNat index.events after.events
  requests : Cache.Change index.capacity.toNat index.requests after.requests
  legacyRequests : Cache.Change index.capacity.toNat index.legacyRequests after.legacyRequests
  invocations : Cache.Change index.capacity.toNat index.invocations after.invocations

theorem index_initiator_eq (index : OriginTraceIndex) (event : EventRecord)
    (batch : OriginTraceEdgeBatch) :
    ∃ pending order, (index.indexInitiator event batch).1 =
      { index with pendingInitiators := pending, pendingInitiatorOrder := order } := by
  unfold indexInitiator
  split
  · dsimp only
    split
    · exact ⟨_, _, rfl⟩
    · exact ⟨_, _, rfl⟩
  · exact ⟨_, _, rfl⟩

theorem resolve_pending_initiators_eq (index : OriginTraceIndex) (event : EventRecord)
    (batch : OriginTraceEdgeBatch) :
    ∃ pending, (index.resolvePendingInitiators event batch).1 =
      { index with pendingInitiators := pending } := by
  unfold resolvePendingInitiators
  split
  · exact ⟨_, rfl⟩
  · exact ⟨_, rfl⟩

theorem remember_exact_request_eq (index : OriginTraceIndex) (event : EventRecord)
    (ref : OriginTraceEventReference) :
    ∃ requests, index.rememberExactRequest event ref = { index with requests } ∧
      Cache.Change index.capacity.toNat index.requests requests := by
  unfold rememberExactRequest
  split
  · refine ⟨_, rfl, ?_⟩
    split
    · rename_i present
      exact .set present ref
    · rename_i absent
      exact .push absent ref
  · exact ⟨_, rfl, .keep⟩

theorem remember_legacy_request_eq (index : OriginTraceIndex) (event : EventRecord)
    (ref : OriginTraceEventReference) :
    ∃ legacyRequests, index.rememberLegacyRequest event ref = { index with legacyRequests } ∧
      Cache.Change index.capacity.toNat index.legacyRequests legacyRequests := by
  refine ⟨_, rfl, ?_⟩
  split
  · rename_i absent
    exact .push (AList.lookup_eq_none.1 absent) _
  · rename_i found
    exact .set (AList.lookup_isSome.1 (by rw [found]; rfl)) _

theorem remember_request_eq (index : OriginTraceIndex) (event : EventRecord)
    (ref : OriginTraceEventReference) :
    ∃ requests legacyRequests,
      index.rememberRequest event ref = { index with requests, legacyRequests } ∧
      Cache.Change index.capacity.toNat index.requests requests ∧
      Cache.Change index.capacity.toNat index.legacyRequests legacyRequests := by
  unfold rememberRequest
  split
  · exact ⟨_, _, rfl, .keep, .keep⟩
  · obtain ⟨requests, exact, requestsChange⟩ := remember_exact_request_eq index event ref
    obtain ⟨legacy, eq, legacyChange⟩ :=
      remember_legacy_request_eq (index.rememberExactRequest event ref) event ref
    rw [exact] at eq legacyChange
    exact ⟨requests, legacy, by rw [exact, eq], requestsChange, legacyChange⟩

theorem index_invocation_eq (index : OriginTraceIndex) (event : EventRecord)
    (batch : OriginTraceEdgeBatch) :
    ∃ invocations, (index.indexInvocation event batch).1 = { index with invocations } ∧
      Cache.Change index.capacity.toNat index.invocations invocations := by
  unfold indexInvocation
  dsimp only
  split
  · split
    · exact ⟨_, rfl, .keep⟩
    · refine ⟨_, rfl, ?_⟩
      split
      · rename_i found
        exact .set (AList.lookup_isSome.1 (by rw [found]; rfl)) _
      · rename_i absent
        exact .push (AList.lookup_eq_none.1 absent) _
  · split <;> exact ⟨_, rfl, .keep⟩
  · split
    · exact ⟨_, rfl, .keep⟩
    · split <;> exact ⟨_, rfl, .keep⟩
  · exact ⟨_, rfl, .keep⟩

/-- The steps of a call that is not refused. -/
theorem ingest_steps (index : OriginTraceIndex) {event : EventRecord}
    (valid : isValidEvent event = true) (fresh : index.contains (reference event) = false) :
    ∃ initiated requested resolved invoked stats,
      index.indexInitiator event (index.parentEdges event) = initiated ∧
      (if isRequestChildRecord event then initiated.1.rememberEvent (reference event)
        else (initiated.1.rememberEvent (reference event)).rememberRequest event
          (reference event)) = requested ∧
      requested.resolvePendingInitiators event
        (initiated.1.lifecycleEdges event initiated.2) = resolved ∧
      resolved.1.indexInvocation event resolved.2 = invoked ∧
      index.ingest event = ({ invoked.1 with stats }, invoked.2) := by
  refine ⟨_, _, _, _, ?_, rfl, rfl, rfl, rfl, ?_⟩
  rotate_left
  · unfold ingest
    rw [valid, fresh]
    exact rfl

/-- A refused call returns no edge and changes at most a counter. -/
theorem ingest_refused {event : EventRecord}
    (refused : isValidEvent event = false ∨ index.contains (reference event) = true) :
    ∃ stats, index.ingest event = ({ index with stats }, []) := by
  unfold ingest
  rcases refused with invalid | duplicate
  · rw [invalid]
    exact ⟨index.stats, rfl⟩
  · rw [duplicate]
    split
    · exact ⟨index.stats, rfl⟩
    · exact ⟨_, rfl⟩

/-- Request evidence is remembered unless the record is a child of another. -/
theorem remember_evidence_eq (index : OriginTraceIndex) (event : EventRecord)
    (ref : OriginTraceEventReference) :
    ∃ requests legacyRequests,
      (if isRequestChildRecord event then index else index.rememberRequest event ref) =
        { index with requests, legacyRequests } ∧
      Cache.Change index.capacity.toNat index.requests requests ∧
      Cache.Change index.capacity.toNat index.legacyRequests legacyRequests := by
  split
  · exact ⟨_, _, rfl, .keep, .keep⟩
  · exact remember_request_eq index event ref

theorem refused_or_accepted (index : OriginTraceIndex) (event : EventRecord) :
    (isValidEvent event = false ∨ index.contains (reference event) = true) ∨
      (isValidEvent event = true ∧ index.contains (reference event) = false) := by
  cases isValidEvent event <;> cases index.contains (reference event) <;> simp

theorem ingest_changes (index : OriginTraceIndex) (event : EventRecord) :
    Changes index (index.ingest event).1 := by
  rcases refused_or_accepted index event with refused | ⟨valid, fresh⟩
  · obtain ⟨stats, eq⟩ := ingest_refused refused
    rw [eq]
    exact ⟨rfl, .keep, .keep, .keep, .keep⟩
  · have absent : reference event ∉ index.events.map := of_decide_eq_false fresh
    obtain ⟨initiated, requested, resolved, invoked, stats, one, two, three, four, eq⟩ :=
      ingest_steps index valid fresh
    obtain ⟨pending, order, initiatedEq⟩ :=
      index_initiator_eq index event (index.parentEdges event)
    obtain ⟨requests, legacyRequests, requestedEq, requestsChange, legacyChange⟩ :=
      remember_evidence_eq (initiated.1.rememberEvent (reference event)) event (reference event)
    obtain ⟨waiting, resolvedEq⟩ := resolve_pending_initiators_eq requested event
      (initiated.1.lifecycleEdges event initiated.2)
    obtain ⟨invocations, invokedEq, invocationsChange⟩ :=
      index_invocation_eq resolved.1 event resolved.2
    rw [one] at initiatedEq
    rw [two] at requestedEq
    rw [three] at resolvedEq
    rw [four] at invokedEq
    rw [resolvedEq, requestedEq, initiatedEq] at invocationsChange
    rw [initiatedEq] at requestsChange legacyChange
    rw [eq, invokedEq, resolvedEq, requestedEq, initiatedEq]
    exact ⟨rfl, .push absent (), requestsChange, legacyChange, invocationsChange⟩

/-! ## The pending initiators -/

/-- What the queue records of a pending initiator. -/
def slot (entry : LegacyRequestKey × OriginTraceEdge) :
    LegacyRequestKey × OriginTraceEventReference := (entry.1, entry.2.source)

/-- Each initiator waits no more often than the queue lists it, and the queue fits. -/
structure Queued (index : OriginTraceIndex) : Prop where
  order_le : index.pendingInitiatorOrder.length ≤ index.capacity.toNat
  listed : (index.pendingInitiators.map slot).Subperm index.pendingInitiatorOrder

theorem Queued.pending_le (h : Queued index) :
    index.pendingInitiators.length ≤ index.capacity.toNat := by
  have := h.listed.length_le
  rw [List.length_map] at this
  exact this.trans h.order_le

/-- Expiring the front of the queue expires its initiator if it still waits. -/
theorem map_slot_expire (pending : List (LegacyRequestKey × OriginTraceEdge))
    (key : LegacyRequestKey) (event : OriginTraceEventReference) :
    (pending.eraseP fun entry => entry.1 == key && entry.2.source == event).map slot =
      (pending.map slot).erase (key, event) := by
  have same : (fun entry : LegacyRequestKey × OriginTraceEdge =>
      entry.1 == key && entry.2.source == event) = (· == (key, event)) ∘ slot := by
    funext entry
    rfl
  rw [same, List.erase_eq_eraseP', List.eraseP_map]

theorem Queued.remember (h : Queued index) (positive : 0 < index.capacity.toNat)
    (event : EventRecord) (key : LegacyRequestKey) :
    Queued (index.rememberPendingInitiator event key) := by
  have added : ∀ {pending order}, (List.map slot pending).Subperm order →
      ((pending ++ [(key, pendingEdge event)]).map slot).Subperm
        (order ++ [(key, reference event)]) := by
    intro pending order listed
    rw [List.map_append]
    exact listed.append (List.Perm.subperm (List.Perm.refl _))
  have orderLe := h.order_le
  unfold rememberPendingInitiator
  split
  rename_i pending order expired
  split at expired
  · rename_i empty
    cases expired
    exact ⟨positive, added (empty ▸ h.listed)⟩
  · rename_i expiredKey expiredEvent rest front
    split at expired
    · rename_i full
      cases expired
      refine ⟨?_, added ?_⟩
      · rw [front, List.length_cons] at orderLe
        simpa using orderLe
      · have listed := h.listed.erase (expiredKey, expiredEvent)
        rw [front, List.erase_cons_head] at listed
        rwa [map_slot_expire]
    · rename_i space
      cases expired
      refine ⟨?_, added h.listed⟩
      simp only [List.length_append, List.length_cons, List.length_nil]
      omega

theorem Queued.initiate (h : Queued index) (positive : 0 < index.capacity.toNat)
    (event : EventRecord) (batch : OriginTraceEdgeBatch) :
    Queued (index.indexInitiator event batch).1 := by
  unfold indexInitiator
  split
  · dsimp only
    split
    · exact h.remember positive event _
    · exact h
  · exact h

theorem Queued.resolve (h : Queued index) (event : EventRecord) (batch : OriginTraceEdgeBatch) :
    Queued (index.resolvePendingInitiators event batch).1 := by
  unfold resolvePendingInitiators
  split
  · exact h
  · exact ⟨h.order_le, ((List.filter_sublist.map slot).subperm).trans h.listed⟩

theorem Queued.ingest (h : Queued index) (positive : 0 < index.capacity.toNat)
    (event : EventRecord) : Queued (index.ingest event).1 := by
  rcases refused_or_accepted index event with refused | ⟨valid, fresh⟩
  · obtain ⟨stats, eq⟩ := ingest_refused refused
    rw [eq]
    exact ⟨h.order_le, h.listed⟩
  · obtain ⟨initiated, requested, resolved, invoked, stats, one, two, three, four, eq⟩ :=
      ingest_steps index valid fresh
    have first : Queued initiated.1 := one ▸ h.initiate positive event _
    obtain ⟨requests, legacyRequests, requestedEq, -, -⟩ :=
      remember_evidence_eq (initiated.1.rememberEvent (reference event)) event (reference event)
    have second : Queued requested := by
      rw [← two, requestedEq]
      exact ⟨first.order_le, first.listed⟩
    have third : Queued resolved.1 := three ▸ second.resolve event _
    obtain ⟨invocations, invokedEq, -⟩ := index_invocation_eq resolved.1 event resolved.2
    rw [eq, ← four, invokedEq]
    exact ⟨third.order_le, third.listed⟩

/-! ## Along a run -/

/-- The index after a run. -/
def after (index : OriginTraceIndex) (events : List EventRecord) : OriginTraceIndex :=
  (index.ingestAll events).1

theorem after_eq_foldl (index : OriginTraceIndex) (events : List EventRecord) :
    index.after events = events.foldl (fun index event => (index.ingest event).1) index := by
  induction events generalizing index with
  | nil => rfl
  | cons event rest ih => exact ih (index.ingest event).1

/-- The keys a run inserts into one of the caches, oldest first. -/
def insertedKeys {κ ν : Type} [DecidableEq κ] (view : OriginTraceIndex → Cache κ ν)
    (index : OriginTraceIndex) (events : List EventRecord) : List κ :=
  Cache.insertions (fun index event => (index.ingest event).1) view index events

/-- What the storage of an index looks like after a run from `start`. -/
structure StorageConsistent (start : OriginTraceIndex) (run : List EventRecord) : Prop where
  events : (start.after run).events.Bounded start.capacity.toNat
    (start.insertedKeys (·.events) run)
  requests : (start.after run).requests.Bounded start.capacity.toNat
    (start.insertedKeys (·.requests) run)
  legacyRequests : (start.after run).legacyRequests.Bounded start.capacity.toNat
    (start.insertedKeys (·.legacyRequests) run)
  invocations : (start.after run).invocations.Bounded start.capacity.toNat
    (start.insertedKeys (·.invocations) run)
  pending_le : (start.after run).pendingInitiators.length ≤ start.capacity.toNat
  order_le : (start.after run).pendingInitiatorOrder.length ≤ start.capacity.toNat
  listed : ((start.after run).pendingInitiators.map slot).Subperm
    (start.after run).pendingInitiatorOrder

theorem construct_eq {capacity : UInt64} (constructed : construct capacity = .ok index) :
    0 < capacity.toNat ∧ index = { capacity } := by
  unfold construct at constructed
  split at constructed
  · cases constructed
  · rename_i nonzero
    cases constructed
    refine ⟨?_, rfl⟩
    rw [beq_iff_eq, ← UInt64.toNat_inj] at nonzero
    exact Nat.pos_of_ne_zero nonzero

theorem Queued.after (h : Queued index) (positive : 0 < index.capacity.toNat)
    (run : List EventRecord) :
    Queued (index.after run) ∧ (index.after run).capacity = index.capacity := by
  induction run generalizing index with
  | nil => exact ⟨h, rfl⟩
  | cons event rest ih =>
      have same := (ingest_changes index event).capacity
      obtain ⟨queued, capacity⟩ := ih (h.ingest positive event) (by rwa [same])
      exact ⟨queued, capacity.trans same⟩

/-- Every index a run reaches keeps its storage bounded and its queues in step. -/
theorem storage_consistent {capacity : UInt64} {start : OriginTraceIndex}
    (constructed : construct capacity = .ok start) (run : List EventRecord) :
    start.StorageConsistent run := by
  obtain ⟨positive, rfl⟩ := construct_eq constructed
  have bounded : ∀ {κ ν : Type} [DecidableEq κ] (view : OriginTraceIndex → Cache κ ν),
      view { capacity } = {} →
      (∀ index event, Cache.Change index.capacity.toNat (view index)
        (view (index.ingest event).1)) →
      (view (after { capacity } run)).Bounded capacity.toNat (insertedKeys view { capacity } run) := by
    intro κ ν _ view empty changes
    rw [after_eq_foldl]
    have fixed : ∀ (index : OriginTraceIndex) (event : EventRecord),
        (index.ingest event).1.capacity.toNat = index.capacity.toNat :=
      fun index event => congrArg UInt64.toNat (ingest_changes index event).capacity
    exact Cache.Bounded.run fixed changes run positive (empty ▸ Cache.Bounded.empty)
  have queued : Queued { capacity } := ⟨Nat.zero_le _, List.nil_subperm⟩
  obtain ⟨pending, same⟩ := queued.after positive run
  refine ⟨bounded (·.events) rfl fun index event => (ingest_changes index event).events,
    bounded (·.requests) rfl fun index event => (ingest_changes index event).requests,
    bounded (·.legacyRequests) rfl fun index event => (ingest_changes index event).legacyRequests,
    bounded (·.invocations) rfl fun index event => (ingest_changes index event).invocations,
    ?_, ?_, pending.listed⟩
  · exact same ▸ pending.pending_le
  · exact same ▸ pending.order_le

/-- A browser record that waits for its initiator. -/
def waitingRecord (sequenceNumber : UInt64) : EventRecord :=
  { header :=
      { category := .network, type := .requestStarted, sessionId := 1, sequenceNumber
        processId := 2, requestId := 5, initiatorProcessId := 3, initiatorRequestId := 9 } }

/-- Three waiting records in an index for two. -/
theorem storage_consistent_two :
    StorageConsistent { capacity := 2 } [waitingRecord 1, waitingRecord 2, waitingRecord 3] :=
  storage_consistent (show construct 2 = .ok { capacity := 2 } from rfl) _

end Reb.Evidence.OriginTraceIndex
