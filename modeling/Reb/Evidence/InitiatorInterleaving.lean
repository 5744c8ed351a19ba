/-
# Evidence.InitiatorInterleaving -- initiator edges do not depend on arrival order

A run returns, over all its batches, exactly the `links` of the events it recorded
(`ingest_all_links`).  What is recorded is a function of the process streams, and
so is the one part of `links` that reads an order: whether a parent edge came
first is a question about two records of one stream.  Any interleaving of the
same streams therefore returns the same pairs.
-/
import Reb.Evidence.InitiatorSteps

namespace Reb.Evidence

set_option autoImplicit false

open Reb.Capture Reb.Theory.FifoMap

/-! ## Recorded events -/

/-- A valid event with a new reference is recorded. -/
def record (recorded : List EventRecord) (event : EventRecord) : List EventRecord :=
  if isValidEvent event && recorded.all (fun e => reference e != reference event) then
    recorded ++ [event]
  else recorded

/-- The process stream of an event: session and process. -/
def inStream (sessionId : UInt64) (processId : UInt32) (event : EventRecord) : Bool :=
  event.header.sessionId == sessionId && event.header.processId == processId

/-- Two runs carry the same events in the same order on every process stream. -/
def SameStreams (events reordered : List EventRecord) : Prop :=
  ∀ sessionId processId,
    events.filter (inStream sessionId processId) = reordered.filter (inStream sessionId processId)

theorem inStream_own (event : EventRecord) :
    inStream event.header.sessionId event.header.processId event = true := by simp [inStream]

/-- Recording commutes with keeping one stream: an equal reference is in it. -/
theorem foldl_record_filter (sessionId : UInt64) (processId : UInt32) (events : List EventRecord)
    (recorded : List EventRecord) :
    (events.foldl record recorded).filter (inStream sessionId processId) =
      (events.filter (inStream sessionId processId)).foldl record
        (recorded.filter (inStream sessionId processId)) := by
  induction events generalizing recorded with
  | nil => rfl
  | cons event rest ih =>
      rw [List.foldl_cons, ih, List.filter_cons]
      by_cases own : inStream sessionId processId event = true
      · rw [if_pos own, List.foldl_cons]
        congr 1
        have sameFresh : (recorded.filter (inStream sessionId processId)).all
            (fun e => reference e != reference event) =
            recorded.all (fun e => reference e != reference event) := by
          rw [Bool.eq_iff_iff, List.all_eq_true, List.all_eq_true]
          constructor
          · intro fresh e member
            by_cases eOwn : inStream sessionId processId e = true
            · exact fresh e (List.mem_filter.2 ⟨member, eOwn⟩)
            · rw [bne_iff_ne]
              intro same
              refine eOwn ?_
              simp only [inStream, Bool.and_eq_true, beq_iff_eq] at own ⊢
              exact ⟨(congrArg OriginTraceEventReference.sessionId same).trans own.1,
                (congrArg OriginTraceEventReference.processId same).trans own.2⟩
          · exact fun fresh e member => fresh e (List.mem_of_mem_filter member)
        unfold record
        rw [sameFresh]
        split
        · rw [List.filter_append, List.filter_cons, if_pos own, List.filter_nil]
        · rfl
      · rw [if_neg own]
        congr 1
        unfold record
        split
        · rw [List.filter_append, List.filter_cons, if_neg own, List.filter_nil, List.append_nil]
        · rfl

theorem SameStreams.record {events reordered : List EventRecord}
    (same : SameStreams events reordered) :
    SameStreams (events.foldl record []) (reordered.foldl record []) := by
  intro sessionId processId
  rw [foldl_record_filter, foldl_record_filter, same sessionId processId]

theorem SameStreams.perm {events reordered : List EventRecord}
    (same : SameStreams events reordered) : events.Perm reordered := by
  rw [List.perm_iff_count]
  intro event
  have own := inStream_own event
  rw [← List.count_filter own, same, List.count_filter own]

theorem SameStreams.symm {events reordered : List EventRecord}
    (same : SameStreams events reordered) : SameStreams reordered events :=
  fun sessionId processId => (same sessionId processId).symm

/-! ## The specification reads only the streams -/

/-- Which of two records of one stream comes first is the same. -/
theorem SameStreams.pair_sublist {events reordered : List EventRecord}
    (same : SameStreams events reordered) {first second : EventRecord}
    (session : first.header.sessionId = second.header.sessionId)
    (process : first.header.processId = second.header.processId)
    (ordered : [first, second].Sublist events) : [first, second].Sublist reordered := by
  have own : [first, second].filter (inStream first.header.sessionId first.header.processId) =
      [first, second] := by
    simp [inStream, session, process]
  have filtered := ordered.filter (inStream first.header.sessionId first.header.processId)
  rw [own, same] at filtered
  exact filtered.trans List.filter_sublist

theorem SameStreams.links_subset {events reordered : List EventRecord}
    (same : SameStreams events reordered) : links events ⊆ links reordered := by
  rintro p ⟨i, iMember, e, eMember, initiates, notShown, eq⟩
  refine ⟨i, same.perm.mem_iff.1 iMember, e, same.perm.mem_iff.1 eMember, initiates, ?_, eq⟩
  rintro ⟨named, parent, ordered⟩
  have session : i.header.sessionId = e.header.sessionId :=
    (congrArg OriginTraceEventReference.sessionId parent).symm
  have process : i.header.processId = e.header.processId :=
    (congrArg OriginTraceEventReference.processId parent).symm
  exact notShown ⟨named, parent, same.symm.pair_sublist session process ordered⟩

theorem SameStreams.links_eq {events reordered : List EventRecord}
    (same : SameStreams events reordered) : links events = links reordered :=
  Set.Subset.antisymm same.links_subset same.symm.links_subset

/-! ## The specification grows by what the event completes -/

/-- A pair in a list with one more element at the end. -/
theorem pair_sublist_concat {first second last : EventRecord} {events : List EventRecord} :
    [first, second].Sublist (events ++ [last]) ↔
      [first, second].Sublist events ∨ (first ∈ events ∧ second = last) := by
  constructor
  · intro ordered
    obtain ⟨front, back, split, inFront, inBack⟩ := List.sublist_append_iff.1 ordered
    rcases List.sublist_singleton.1 inBack with rfl | rfl
    · rw [List.append_nil] at split
      exact .inl (split ▸ inFront)
    · have two : front = [first] ∧ [last] = [second] :=
        List.append_inj' (show front ++ [last] = [first] ++ [second] from split.symm) rfl
      rw [two.1, List.singleton_sublist] at inFront
      exact .inr ⟨inFront, by simpa using two.2.symm⟩
  · rintro (ordered | ⟨member, rfl⟩)
    · exact ordered.trans (List.sublist_append_left _ _)
    · exact (List.singleton_sublist.2 member).append (List.Sublist.refl [second])

namespace OriginTraceIndex

theorem links_concat {recorded : List EventRecord} {event : EventRecord}
    (fresh : Fresh recorded event) :
    links (recorded ++ [event]) =
      links recorded ∪ (backward recorded event ∪ forward recorded event) := by
  have new : event ∉ recorded := fun member => fresh event member rfl
  ext p
  constructor
  · rintro ⟨i, iMember, e, eMember, initiates, notShown, eq⟩
    rcases List.mem_append.1 iMember with iOld | iNew <;>
      rcases List.mem_append.1 eMember with eOld | eNew
    · exact .inl ⟨i, iOld, e, eOld, initiates, fun shown =>
        notShown ⟨shown.1, shown.2.1, pair_sublist_concat.2 (.inl shown.2.2)⟩, eq⟩
    · obtain rfl := List.mem_singleton.1 eNew
      exact .inr (.inl ⟨i, iOld, initiates, fun shown =>
        notShown ⟨shown.1, shown.2, pair_sublist_concat.2 (.inr ⟨iOld, rfl⟩)⟩, eq⟩)
    · obtain rfl := List.mem_singleton.1 iNew
      exact .inr (.inr ⟨e, eOld, initiates, eq⟩)
    · -- a browser record is no renderer record
      obtain rfl := List.mem_singleton.1 iNew
      obtain rfl := List.mem_singleton.1 eNew
      have := initiates.names
      rw [not_names_of_initiated initiates.initiated] at this
      cases this
  · rintro (⟨i, iOld, e, eOld, initiates, notShown, eq⟩ | ⟨i, iOld, initiates, notShown, eq⟩ |
      ⟨e, eOld, initiates, eq⟩)
    · refine ⟨i, by simp [iOld], e, by simp [eOld], initiates, ?_, eq⟩
      rintro ⟨named, parent, ordered⟩
      rcases pair_sublist_concat.1 ordered with old | ⟨-, rfl⟩
      · exact notShown ⟨named, parent, old⟩
      · exact new eOld
    · exact ⟨i, by simp [iOld], event, by simp, initiates,
        fun shown => notShown ⟨shown.1, shown.2.1⟩, eq⟩
    · refine ⟨event, by simp, e, by simp [eOld], initiates, ?_, eq⟩
      rintro ⟨-, -, ordered⟩
      rcases pair_sublist_concat.1 ordered with old | ⟨member, -⟩
      · exact new (old.subset (by simp))
      · exact new member

/-! ## Runs -/

/-- The initiator pairs over all returned batches. -/
def initiatorLinks (batches : List OriginTraceEdgeBatch) :
    Set (OriginTraceEventReference × OriginTraceEventReference) :=
  {p | ∃ batch ∈ batches, p ∈ linksIn batch}

theorem initiatorLinks_cons (batch : OriginTraceEdgeBatch) (rest : List OriginTraceEdgeBatch) :
    initiatorLinks (batch :: rest) = linksIn batch ∪ initiatorLinks rest := by
  ext p; simp [initiatorLinks]

/-- An invalid or repeated event changes a counter only. -/
theorem ingest_skipped {index : OriginTraceIndex} {recorded : List EventRecord}
    (h : IndexOf index recorded) {event : EventRecord}
    (skipped : (isValidEvent event &&
      recorded.all fun e => reference e != reference event) = false) :
    (index.ingest event).1.capacity = index.capacity ∧
      IndexOf (index.ingest event).1 recorded ∧ (index.ingest event).2 = [] := by
  unfold ingest
  by_cases valid : isValidEvent event = true
  · have contained : index.contains (reference event) = true := by
      rw [valid, Bool.true_and, List.all_eq_false] at skipped
      obtain ⟨e, member, same⟩ := skipped
      exact (h.events.contains_iff _).2 ⟨e, member, by simpa using same⟩
    simp only [valid, contained, Bool.not_true, Bool.false_eq_true, if_false, if_true]
    exact ⟨trivial, ⟨h.events, h.legacy, h.pending⟩, trivial⟩
  · rw [if_pos (by simpa using valid)]
    exact ⟨rfl, h, rfl⟩

/-- **A run returns the links of what it recorded**, given room for every event
and keys that never become ambiguous. -/
theorem ingest_all_links {index : OriginTraceIndex} {recorded events : List EventRecord}
    (h : IndexOf index recorded)
    (fits : recorded.length + events.length ≤ index.capacity.toNat)
    (unique : UniqueInitiators (recorded ++ events)) (context : OneContext (recorded ++ events)) :
    links recorded ∪ initiatorLinks (index.ingestAll events).2 =
      links (events.foldl record recorded) := by
  induction events generalizing index recorded with
  | nil =>
      ext p
      simp [ingestAll, initiatorLinks]
  | cons event rest ih =>
      rw [List.length_cons] at fits
      simp only [ingestAll, initiatorLinks_cons, List.foldl_cons]
      cases records : (isValidEvent event &&
          recorded.all fun e => reference e != reference event) with
      | true =>
          simp only [Bool.and_eq_true, List.all_eq_true, bne_iff_ne, ne_eq] at records
          obtain ⟨valid, fresh⟩ := records
          have earlier : ∀ e ∈ recorded ++ [event], e ∈ recorded ++ event :: rest := by
            intro e member
            simp only [List.mem_append, List.mem_cons, List.not_mem_nil, or_false] at member ⊢
            tauto
          have admissible : Admissible index recorded event :=
            ⟨fresh, by omega, fun a aMember b bMember =>
                unique a (earlier a aMember) b (earlier b bMember),
              fun a aMember b bMember => context a (earlier a aMember) b (earlier b bMember)⟩
          obtain ⟨capacity, indexOf, completed⟩ := ingest_fresh h admissible valid
          have tail := ih indexOf
            (by rw [capacity, List.length_append, List.length_singleton]; omega)
            (by rw [List.append_assoc]; exact unique) (by rw [List.append_assoc]; exact context)
          rw [links_concat fresh] at tail
          have recordsIt : record recorded event = recorded ++ [event] := by
            rw [record, if_pos (by simpa using ⟨valid, fresh⟩)]
          rw [recordsIt, ← tail, ← completed, Set.union_assoc]
      | false =>
          obtain ⟨capacity, indexOf, empty⟩ := ingest_skipped h records
          have fewer : ∀ e ∈ recorded ++ rest, e ∈ recorded ++ event :: rest := by
            intro e member
            simp only [List.mem_append, List.mem_cons] at member ⊢
            tauto
          have tail := ih indexOf (by rw [capacity]; omega)
            (fun a aMember b bMember => unique a (fewer a aMember) b (fewer b bMember))
            (fun a aMember b bMember => context a (fewer a aMember) b (fewer b bMember))
          rw [empty, linksIn_nil, Set.empty_union, record, records, tail]
          rfl

/-- **Initiator edges do not depend on interleaving.**  Two interleavings of the
same process streams, each into an index with room for every event, return the
same pairs of browser record and renderer initiator. -/
theorem initiator_edges_independent_of_interleaving {capacity capacity' : UInt64}
    {index index' : OriginTraceIndex} (constructed : construct capacity = .ok index)
    (constructed' : construct capacity' = .ok index') {events reordered : List EventRecord}
    (interleaved : SameStreams events reordered) (fits : events.length ≤ capacity.toNat)
    (fits' : events.length ≤ capacity'.toNat) (unique : UniqueInitiators events)
    (context : OneContext events) :
    initiatorLinks (index.ingestAll events).2 = initiatorLinks (index'.ingestAll reordered).2 := by
  obtain ⟨empty, sameCapacity⟩ := construct_index_of constructed
  obtain ⟨empty', sameCapacity'⟩ := construct_index_of constructed'
  have noLinks : links [] = ∅ := by simp [links]
  have perm := interleaved.perm
  have first := @ingest_all_links index [] events empty (by rw [sameCapacity]; simpa using fits)
    (by simpa using unique) (by simpa using context)
  have second := @ingest_all_links index' [] reordered empty'
    (by rw [sameCapacity', ← perm.length_eq]; simpa using fits')
    (fun a aMember b bMember => unique a (perm.mem_iff.2 (by simpa using aMember)) b
      (perm.mem_iff.2 (by simpa using bMember)))
    (fun a aMember b bMember => context a (perm.mem_iff.2 (by simpa using aMember)) b
      (perm.mem_iff.2 (by simpa using bMember)))
  rw [noLinks, Set.empty_union] at first second
  rw [first, second, interleaved.record.links_eq]

/-- A browser process reports the start of a request a renderer initiated. -/
def browserRecord : EventRecord :=
  { header :=
      { category := .network, type := .requestStarted, sessionId := 1, processId := 1
        sequenceNumber := 1, requestId := 7, initiatorRequestId := 3, initiatorProcessId := 2 } }

def rendererRecord : EventRecord :=
  { header :=
      { category := .network, type := .requestInitiated, sessionId := 1, processId := 2
        sequenceNumber := 1, requestId := 3 } }

/-- The direct edge and the delayed edge are the same pair. -/
theorem initiator_edges_independent_of_interleaving_pair :
    initiatorLinks (ingestAll { capacity := 2 } [browserRecord, rendererRecord]).2 =
      initiatorLinks (ingestAll { capacity := 2 } [rendererRecord, browserRecord]).2 := by
  refine @initiator_edges_independent_of_interleaving 2 2 _ _ rfl rfl _ _ ?_ (by decide)
    (by decide) ?_ ?_
  · intro sessionId processId
    have browser : inStream sessionId processId browserRecord =
        (1 == sessionId && 1 == processId) := rfl
    have renderer : inStream sessionId processId rendererRecord =
        (1 == sessionId && 2 == processId) := rfl
    simp only [List.filter_cons, List.filter_nil]
    by_cases first : processId = 1
    · subst first
      simp [renderer]
    · simp [browser, Ne.symm first]
  · unfold UniqueInitiators
    decide +kernel
  · unfold OneContext
    decide +kernel

end OriginTraceIndex

end Reb.Evidence
