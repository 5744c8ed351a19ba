/-
# Evidence.RequestSignalValidity -- every returned profile is valid

A profile is assembled from three places: the parent walk, the counters of a context and
the profile kept for another request.  Each keeps the same promise about the events it
names (`Names`): they are earlier events of the run, of the session and the process of
the profile's first root.  A copied profile changes its root, and its signals stay with
the initiator, which is what the validity check expects of it.

`Built` is a profile as `buildProfile` leaves it, `Tracked` what the index holds between
two calls.
-/
import Reb.Evidence.RequestSignalProfile

namespace Reb.Evidence

set_option autoImplicit false

open Reb.Capture Reb.Theory.FifoMap

variable {past : List EventRecord} {sessionId : UInt64} {processId : UInt32}

/-- `ref` names a valid event of the run so far. -/
def Earlier (past : List EventRecord) (ref : RequestSignalEventReference) : Prop :=
  ∃ event ∈ past, isValidEvent event = true ∧ signalReference event = ref

/-- An earlier event of one session and process, as a signal may name it. -/
structure Names (past : List EventRecord) (sessionId : UInt64) (processId : UInt32)
    (ref : RequestSignalEventReference) : Prop where
  earlier : Earlier past ref
  isSet : referenceIsSet ref = true
  session : ref.sessionId = sessionId
  process : ref.processId = processId

structure SignalOk (past : List EventRecord) (sessionId : UInt64) (processId : UInt32)
    (signal : RequestSignalEvidence) : Prop where
  category : isFingerprintSignalCategory signal.category = true
  relation : signal.relation ≠ .kUnknown
  count : signal.eventCount ≠ 0
  first : Names past sessionId processId signal.firstEvent
  last : Names past sessionId processId signal.lastEvent

/-- Good signals, at most one of each category. -/
structure SignalsOk (past : List EventRecord) (sessionId : UInt64) (processId : UInt32)
    (signals : List RequestSignalEvidence) : Prop where
  each : ∀ signal ∈ signals, SignalOk past sessionId processId signal
  distinct : (signals.map (·.category)).Nodup

theorem fingerprint_iff (category : EventCategory) :
    isFingerprintSignalCategory category = true ↔
      ∃ i, kSignalCategories.get i = category := by
  simp only [isFingerprintSignalCategory, signalCategoryIndex, List.find?_isSome,
    List.mem_finRange, true_and, beq_iff_eq]
  exact Iff.rfl

theorem Earlier.mono {ref : RequestSignalEventReference} (h : Earlier past ref)
    (event : EventRecord) : Earlier (past ++ [event]) ref := by
  obtain ⟨e, member, valid, eq⟩ := h
  exact ⟨e, List.mem_append_left _ member, valid, eq⟩

theorem Earlier.reserved {ref : RequestSignalEventReference} (h : Earlier past ref) :
    ref.reserved = 0 := by
  obtain ⟨event, -, -, rfl⟩ := h
  rfl

theorem Names.mono {ref : RequestSignalEventReference} (h : Names past sessionId processId ref)
    (event : EventRecord) : Names (past ++ [event]) sessionId processId ref :=
  { h with earlier := h.earlier.mono event }

theorem SignalsOk.mono {signals : List RequestSignalEvidence}
    (h : SignalsOk past sessionId processId signals) (event : EventRecord) :
    SignalsOk (past ++ [event]) sessionId processId signals := by
  refine { h with each := fun signal member => ?_ }
  have ok := h.each signal member
  exact { ok with first := ok.first.mono event, last := ok.last.mono event }

theorem SignalsOk.nil : SignalsOk past sessionId processId [] :=
  ⟨fun _ member => absurd member List.not_mem_nil, List.nodup_nil⟩

/-- There are no more signals than categories. -/
theorem SignalsOk.length_le {signals : List RequestSignalEvidence}
    (h : SignalsOk past sessionId processId signals) :
    signals.length ≤ kRequestSignalProfileCategoryCount := by
  have known : signals.map (·.category) ⊆ kSignalCategories.toList := by
    intro category member
    obtain ⟨signal, inSignals, rfl⟩ := List.mem_map.1 member
    obtain ⟨i, eq⟩ := (fingerprint_iff _).1 (h.each signal inSignals).category
    exact Vector.mem_toList_iff.2 (eq ▸ Vector.getElem_mem i.isLt)
  have fits := (h.distinct.subperm known).length_le
  rwa [List.length_map, Vector.length_toList] at fits

/-! ## Adding a signal -/

section AddSignal

variable {signals : List RequestSignalEvidence} {category : EventCategory}
  {relation : RequestSignalRelation} {write : RequestSignalEvidence → RequestSignalEvidence}

theorem findSignal_none (absent : ¬ (findSignal signals category).isSome = true) :
    category ∉ signals.map (·.category) := by
  intro member
  obtain ⟨signal, inSignals, same⟩ := List.mem_map.1 member
  apply absent
  rw [findSignal, List.find?_isSome]
  exact ⟨signal, inSignals, beq_iff_eq.2 same⟩

/-- What is in the list after adding: an old signal, or a written one. -/
theorem mem_addSignal {signal : RequestSignalEvidence}
    (member : signal ∈ addSignal signals category relation write) :
    signal ∈ signals ∨ ∃ old, (old ∈ signals ∧ old.category = category ∨
      old = { category, relation }) ∧ signal = write old := by
  unfold addSignal at member
  split at member
  · rename_i found
    rw [findSignal, List.find?_isSome] at found
    obtain ⟨j, inside, eq⟩ := List.mem_iff_getElem.1 member
    rw [List.length_modify] at inside
    rw [List.getElem_modify] at eq
    split at eq
    · rename_i here
      subst here
      refine .inr ⟨_, .inl ⟨List.getElem_mem inside, ?_⟩, eq.symm⟩
      have matching := List.findIdx_getElem (w := inside)
      exact beq_iff_eq.1 matching
    · exact .inl (eq ▸ List.getElem_mem inside)
  split at member
  · exact .inl member
  · rcases List.mem_append.1 member with old | new
    · exact .inl old
    · exact .inr ⟨_, .inr rfl, List.mem_singleton.1 new⟩

theorem addSignal_categories (keeps : ∀ signal, (write signal).category = signal.category)
    (distinct : (signals.map (·.category)).Nodup) :
    ((addSignal signals category relation write).map (·.category)).Nodup := by
  unfold addSignal
  split
  · have same : (signals.modify (signals.findIdx (·.category == category)) write).map (·.category) =
        signals.map (·.category) := by
      apply List.ext_getElem
      · rw [List.length_map, List.length_map, List.length_modify]
      · intro j _ inside
        rw [List.getElem_map, List.getElem_map, List.getElem_modify]
        split
        · exact keeps _
        · rfl
    rwa [same]
  · rename_i absent
    split
    · exact distinct
    · rw [List.map_append, List.map_singleton, keeps, ← List.concat_eq_append]
      exact distinct.concat (findSignal_none absent)

theorem SignalsOk.addSignal (h : SignalsOk past sessionId processId signals)
    (keeps : ∀ signal, (write signal).category = signal.category)
    (writes : ∀ signal, signal ∈ signals ∧ signal.category = category ∨
      signal = { category, relation } → SignalOk past sessionId processId (write signal)) :
    SignalsOk past sessionId processId (addSignal signals category relation write) := by
  refine ⟨fun signal member => ?_, addSignal_categories keeps h.distinct⟩
  rcases mem_addSignal member with old | ⟨source, origin, eq⟩
  · exact h.each signal old
  · exact eq ▸ writes source origin

end AddSignal

/-! ## Sorting -/

theorem sortSignals_eq (signals : List RequestSignalEvidence) :
    sortSignals signals = ((signals.reverse).insertionSort fun a b =>
      b.category.toUInt16 ≤ a.category.toUInt16).reverse := by
  rw [sortSignals, List.insertionSort, List.foldr_reverse]
  rfl

theorem sortSignals_perm (signals : List RequestSignalEvidence) :
    (sortSignals signals).Perm signals := by
  rw [sortSignals_eq]
  exact (List.reverse_perm _).trans ((List.perm_insertionSort _ _).trans (List.reverse_perm _))

theorem sortSignals_le (signals : List RequestSignalEvidence) :
    (sortSignals signals).Pairwise fun a b => a.category.toUInt16 ≤ b.category.toUInt16 := by
  have total : Std.Total fun a b : RequestSignalEvidence =>
      b.category.toUInt16 ≤ a.category.toUInt16 := ⟨fun _ _ => UInt16.le_total _ _⟩
  have transitive : IsTrans RequestSignalEvidence fun a b =>
      b.category.toUInt16 ≤ a.category.toUInt16 := ⟨fun _ _ _ first second => UInt16.le_trans second first⟩
  rw [sortSignals_eq, List.pairwise_reverse]
  exact List.pairwise_insertionSort _ _

theorem SignalsOk.sort {signals : List RequestSignalEvidence}
    (h : SignalsOk past sessionId processId signals) :
    SignalsOk past sessionId processId (sortSignals signals) := by
  have perm := sortSignals_perm signals
  exact ⟨fun signal member => h.each signal (perm.mem_iff.1 member),
    ((perm.map _).nodup_iff).2 h.distinct⟩

/-- The categories of a fingerprint have different numbers. -/
theorem category_of_toUInt16 {a b : EventCategory} (aKnown : isFingerprintSignalCategory a = true)
    (bKnown : isFingerprintSignalCategory b = true) (same : a.toUInt16 = b.toUInt16) : a = b := by
  have table : ∀ i j, (kSignalCategories.get i).toUInt16 = (kSignalCategories.get j).toUInt16 →
      i = j := by decide
  obtain ⟨i, rfl⟩ := (fingerprint_iff a).1 aKnown
  obtain ⟨j, rfl⟩ := (fingerprint_iff b).1 bKnown
  rw [table i j same]

/-- Sorted signals of different categories are strictly increasing. -/
theorem SignalsOk.strict {signals : List RequestSignalEvidence}
    (h : SignalsOk past sessionId processId signals) :
    (sortSignals signals).Pairwise fun a b => a.category.toUInt16 < b.category.toUInt16 := by
  have sorted := h.sort
  have different := List.pairwise_map.1 sorted.distinct
  refine ((sortSignals_le signals).and different).imp_of_mem ?_
  intro a b aMember bMember both
  refine UInt16.lt_of_le_of_ne both.1 fun same => both.2 ?_
  exact category_of_toUInt16 (sorted.each a aMember).category (sorted.each b bMember).category same

/-! ## Building a profile -/

/-- What the parent walk promises after `depth` records. -/
structure Walked (past : List EventRecord) (sessionId : UInt64) (processId : UInt32)
    (root : RequestSignalProfile) (depth : Nat) (profile : RequestSignalProfile) : Prop where
  parentDepth : profile.parentDepth.toNat = depth
  signals : SignalsOk past sessionId processId profile.signals
  counts : ∀ signal ∈ profile.signals, signal.eventCount.toNat ≤ depth
  rest : { profile with
    parentDepth := 0, signals := [], retentionTruncated := false } = root

/-- What does not depend on the root a profile is given. -/
structure Body (past : List EventRecord) (sessionId : UInt64) (processId : UInt32)
    (profile : RequestSignalProfile) : Prop where
  protocolVersion : profile.protocolVersion = kRequestSignalProfileProtocolVersion
  reserved : profile.reserved = 0
  depth : profile.parentDepth.toNat ≤ kRequestSignalProfileParentDepthLimit
  limited : profile.parentDepthLimited = true →
    profile.parentDepth.toNat = kRequestSignalProfileParentDepthLimit
  signals : SignalsOk past sessionId processId profile.signals
  saturated : profile.countSaturated = true →
    ∃ signal ∈ profile.signals, signal.eventCount = 0xffffffffffffffff

/-- A profile before its signals are sorted. -/
structure Assembled (past : List EventRecord) (sessionId : UInt64) (processId : UInt32)
    (profile : RequestSignalProfile) : Prop extends Body past sessionId processId profile where
  root : referenceIsSet profile.rootEvent = true ∧ profile.rootEvent.reserved = 0 ∧
    profile.rootEvent.sessionId = sessionId ∧ profile.rootEvent.processId = processId
  initiator : profile.initiatorEvent = {} ∧ profile.copiedFromInitiator = false
  request : profile.requestId ≠ 0

/-- A profile as `buildProfile` returns it. -/
structure Built (past : List EventRecord) (sessionId : UInt64) (processId : UInt32)
    (profile : RequestSignalProfile) : Prop extends Assembled past sessionId processId profile where
  sorted : profile.signals.Pairwise fun a b => a.category.toUInt16 < b.category.toUInt16

/-- A counter of a context names its first and last event once it has counted. -/
structure CountOk (past : List EventRecord) (key : SignalContextKey) (state : ContextSignalState) :
    Prop where
  names : state.eventCount ≠ 0 → Names past key.sessionId key.processId state.firstEvent ∧
    Names past key.sessionId key.processId state.lastEvent
  saturated : state.countSaturated = true → state.eventCount = 0xffffffffffffffff

theorem Assembled.mono {profile : RequestSignalProfile}
    (h : Assembled past sessionId processId profile) (event : EventRecord) :
    Assembled (past ++ [event]) sessionId processId profile :=
  { h with signals := h.signals.mono event }

theorem Built.mono {profile : RequestSignalProfile} (h : Built past sessionId processId profile)
    (event : EventRecord) : Built (past ++ [event]) sessionId processId profile :=
  ⟨h.toAssembled.mono event, h.sorted⟩

theorem CountOk.mono {key : SignalContextKey} {state : ContextSignalState}
    (h : CountOk past key state) (event : EventRecord) : CountOk (past ++ [event]) key state := by
  refine { h with names := fun counted => ?_ }
  obtain ⟨first, last⟩ := h.names counted
  exact ⟨first.mono event, last.mono event⟩

theorem CountOk.zero (past : List EventRecord) (key : SignalContextKey) : CountOk past key {} :=
  ⟨fun counted => absurd rfl counted, fun saturated => absurd saturated Bool.false_ne_true⟩

/-- What a returned profile promises. -/
structure Returned (past : List EventRecord) (profile : RequestSignalProfile) : Prop where
  valid : isValidRequestSignalProfile profile = true
  sorted : profile.signals.Pairwise fun a b => a.category.toUInt16 < b.category.toUInt16
  earlier : ∀ signal ∈ profile.signals, Earlier past signal.firstEvent ∧ Earlier past signal.lastEvent

theorem Built.returned {profile built : RequestSignalProfile} (h : Built past sessionId processId built)
    (same : profile.signals = built.signals) (valid : isValidRequestSignalProfile profile = true) :
    Returned past profile := by
  refine ⟨valid, same ▸ h.sorted, fun signal member => ?_⟩
  have ok := h.signals.each signal (same ▸ member)
  exact ⟨ok.first.earlier, ok.last.earlier⟩

namespace RequestSignalProfileIndex

/-- What the index holds between two calls. -/
structure Tracked (index : RequestSignalProfileIndex) (past : List EventRecord) : Prop where
  events : index.events.Holds fun ref state => state.reference = ref ∧ Earlier past ref
  contexts : index.contexts.Holds fun key context =>
    ∀ i, CountOk past key (context.signals.get i)
  requestProfiles : index.requestProfiles.Holds fun key profile =>
    Built past key.sessionId key.processId profile

variable {index : RequestSignalProfileIndex} {event : EventRecord}

theorem chainSignal_ok {signal : RequestSignalEvidence} {ref : RequestSignalEventReference}
    (refOk : Names past sessionId processId ref)
    (category : isFingerprintSignalCategory signal.category = true)
    (relation : signal.relation ≠ .kUnknown) (small : signal.eventCount.toNat < 32)
    (last : signal.lastEvent = {} ∨ Names past sessionId processId signal.lastEvent) :
    SignalOk past sessionId processId (chainSignal ref signal) := by
  refine ⟨category, relation, ?_, refOk, ?_⟩
  · intro zero
    have value := congrArg UInt64.toNat zero
    rw [chainSignal, UInt64.toNat_add] at value
    have one : (1 : UInt64).toNat = 1 := rfl
    have none : (0 : UInt64).toNat = 0 := rfl
    omega
  · unfold chainSignal
    dsimp only
    split
    · rename_i isSet
      rcases last with empty | named
      · rw [empty] at isSet
        exact absurd isSet (by decide)
      · exact named
    · exact refOk

theorem addParent_walked {root profile : RequestSignalProfile} {depth : Nat} {state : EventState}
    (h : Walked past sessionId processId root depth profile) (more : depth < 32)
    (refOk : Names past sessionId processId state.reference) :
    Walked past sessionId processId root (depth + 1) (addParent profile state) := by
  have deeper : (profile.parentDepth + 1).toNat = depth + 1 := by
    rw [UInt32.toNat_add, h.parentDepth]
    show (depth + 1) % 2 ^ 32 = depth + 1
    omega
  unfold addParent
  dsimp only
  split
  · rename_i fingerprint
    have origin : ∀ signal, signal ∈ profile.signals ∧ signal.category = state.category ∨
        signal = { category := state.category, relation := .kParentChain } →
        signal.eventCount.toNat ≤ depth ∧
          SignalOk past sessionId processId (chainSignal state.reference signal) := by
      intro signal chosen
      rcases chosen with ⟨member, -⟩ | rfl
      · have small := h.counts signal member
        have ok := h.signals.each signal member
        exact ⟨small, chainSignal_ok refOk ok.category ok.relation (by omega) (.inr ok.last)⟩
      · have known : RequestSignalRelation.kParentChain ≠ .kUnknown := by decide
        have none : (0 : UInt64).toNat < 32 := by decide
        exact ⟨Nat.zero_le _, chainSignal_ok refOk fingerprint known none (.inl rfl)⟩
    refine ⟨deeper, h.signals.addSignal (fun _ => rfl) fun signal chosen => (origin signal chosen).2,
      ?_, h.rest⟩
    intro signal member
    rcases mem_addSignal member with old | ⟨source, chosen, rfl⟩
    · exact (h.counts signal old).trans (Nat.le_succ depth)
    · have small := (origin source chosen).1
      show (source.eventCount + 1).toNat ≤ depth + 1
      rw [UInt64.toNat_add]
      have one : (1 : UInt64).toNat = 1 := rfl
      omega
  · exact ⟨deeper, h.signals, fun signal member => (h.counts signal member).trans (Nat.le_succ depth),
      h.rest⟩

theorem walkParents_walked (h : Tracked index past) (session : event.header.sessionId ≠ 0)
    {root : RequestSignalProfile} (turns : Nat) (parentEventId : UInt64)
    {profile : RequestSignalProfile} {depth : Nat} (limit : depth + turns = 32)
    (walked : Walked past event.header.sessionId event.header.processId root depth profile) :
    ∃ last ≤ 32, Walked past event.header.sessionId event.header.processId root last
      (index.walkParents event turns parentEventId profile).2 := by
  induction turns generalizing parentEventId profile depth with
  | zero => exact ⟨depth, by omega, walked⟩
  | succ turns ih =>
      rw [walkParents]
      split
      · exact ⟨depth, by omega, walked⟩
      · rename_i nonzero
        split
        · exact ⟨depth, by omega, { walked with }⟩
        · rename_i state found
          obtain ⟨same, earlier⟩ := h.events _ state found
          have isSet : referenceIsSet state.reference = true := by
            rw [same, referenceIsSet, Bool.and_eq_true, bne_iff_ne, bne_iff_ne]
            exact ⟨session, fun zero => nonzero (beq_iff_eq.2 zero)⟩
          have named : Names past event.header.sessionId event.header.processId state.reference :=
            ⟨same ▸ earlier, isSet, same ▸ rfl, same ▸ rfl⟩
          exact ih state.parentEventId (by omega) (addParent_walked walked (by omega) named)

theorem addParentSignals_assembled (h : Tracked index past) (root : isRequestProfileRoot event = true)
    {profile : RequestSignalProfile} (start : profile =
      { rootEvent := signalReference event, requestId := event.header.requestId
        navigationId := event.header.navigationId, frameId := event.header.frameId }) :
    Assembled past event.header.sessionId event.header.processId
      (index.addParentSignals event profile) := by
  simp only [isRequestProfileRoot, Bool.and_eq_true, bne_iff_ne, ne_eq] at root
  obtain ⟨⟨⟨⟨-, session⟩, sequence⟩, request⟩, -⟩ := root
  have isSet : referenceIsSet (signalReference event) = true := by
    rw [referenceIsSet, Bool.and_eq_true, bne_iff_ne, bne_iff_ne]
    exact ⟨session, sequence⟩
  have begins : Walked past event.header.sessionId event.header.processId profile 0 profile := by
    subst start
    exact ⟨rfl, SignalsOk.nil, fun _ member => absurd member List.not_mem_nil, rfl⟩
  have zero : profile.parentDepth.toNat = 0 := by
    subst start
    rfl
  obtain ⟨depth, limit, walked⟩ := walkParents_walked h session
    kRequestSignalProfileParentDepthLimit event.header.parentEventId (Nat.zero_add _) begins
  unfold addParentSignals
  rw [zero, Nat.sub_zero]
  generalize index.walkParents event kRequestSignalProfileParentDepthLimit
    event.header.parentEventId profile = result at walked
  obtain ⟨parentEventId, walkedProfile⟩ := result
  have same : ∀ {α : Type} (f : RequestSignalProfile → α), f { walkedProfile with
      parentDepth := 0, signals := [], retentionTruncated := false } = f profile :=
    fun f => congrArg f walked.rest
  subst start
  have unlimited : walkedProfile.parentDepthLimited = false := same (·.parentDepthLimited)
  have exactly : walkedProfile.countSaturated = false := same (·.countSaturated)
  have requestId : walkedProfile.requestId = event.header.requestId := same (·.requestId)
  have rootEvent : walkedProfile.rootEvent = signalReference event := same (·.rootEvent)
  have whole : Assembled past event.header.sessionId event.header.processId walkedProfile := by
    refine ⟨⟨same (·.protocolVersion), same (·.reserved), walked.parentDepth ▸ limit, ?_,
      walked.signals, ?_⟩, ?_, ⟨same (·.initiatorEvent), same (·.copiedFromInitiator)⟩, ?_⟩
    · rw [unlimited]
      exact fun limited => absurd limited Bool.false_ne_true
    · rw [exactly]
      exact fun saturated => absurd saturated Bool.false_ne_true
    · rw [rootEvent]
      exact ⟨isSet, rfl, rfl, rfl⟩
    · rw [requestId]
      exact request
  dsimp only
  split
  · rename_i limited
    rw [Bool.and_eq_true, beq_iff_eq] at limited
    exact { whole with limited := fun _ => limited.2 }
  · exact whole

theorem addSignal_absent {signals : List RequestSignalEvidence} {category : EventCategory}
    {relation : RequestSignalRelation} {write : RequestSignalEvidence → RequestSignalEvidence}
    (absent : ¬ (findSignal signals category).isSome = true)
    (room : ¬ signals.length = kRequestSignalProfileCategoryCount) :
    addSignal signals category relation write = signals ++ [write { category, relation }] := by
  rw [addSignal, if_neg absent, if_neg room]

theorem addContextSignal_assembled {key : SignalContextKey}
    {context : ContextState}
    (counts : ∀ i, CountOk past key (context.signals.get i))
    {profile : RequestSignalProfile} (assembled : Assembled past key.sessionId key.processId profile)
    (i : Fin kRequestSignalProfileCategoryCount) :
    Assembled past key.sessionId key.processId (index.addContextSignal context profile i) := by
  unfold addContextSignal
  dsimp only
  split
  · exact assembled
  rename_i fresh
  split
  · exact { assembled with }
  split
  · exact { assembled with }
  rename_i contained room
  rw [Bool.or_eq_true, not_or, beq_iff_eq] at fresh
  rw [Bool.not_eq_true', Bool.not_eq_false] at contained
  have count := counts i
  obtain ⟨first, last⟩ := count.names fresh.1
  have known : RequestSignalRelation.kSameContext ≠ .kUnknown := by decide
  refine { assembled with
    signals := ?_
    saturated := fun saturated => ?_ }
  · dsimp only
    refine assembled.signals.addSignal (fun _ => rfl) fun signal chosen => ?_
    rcases chosen with ⟨member, same⟩ | rfl
    · -- the category has no signal yet
      exact absurd (List.mem_map.2 ⟨signal, member, same⟩) (findSignal_none fresh.2)
    · refine ⟨(fingerprint_iff _).2 ⟨i, rfl⟩, known, fresh.1, ?_, last⟩
      dsimp only
      split
      · exact first
      · exact last
  · rw [addSignal_absent fresh.2 room]
    rcases Bool.or_eq_true_iff.1 saturated with old | new
    · obtain ⟨signal, member, full⟩ := assembled.saturated old
      exact ⟨signal, List.mem_append_left _ member, full⟩
    · exact ⟨_, List.mem_append_right _ (List.mem_singleton.2 rfl), count.saturated new⟩

theorem addContextSignals_assembled (h : Tracked index past) {profile : RequestSignalProfile}
    (assembled : Assembled past event.header.sessionId event.header.processId profile) :
    Assembled past event.header.sessionId event.header.processId
      (index.addContextSignals event profile) := by
  unfold addContextSignals
  split
  · exact assembled
  · rename_i context found
    have counts := h.contexts _ context found
    generalize List.finRange kRequestSignalProfileCategoryCount = turns
    induction turns generalizing profile with
    | nil => exact assembled
    | cons i rest ih => exact ih (addContextSignal_assembled counts assembled i)

theorem buildProfile_built (h : Tracked index past) (root : isRequestProfileRoot event = true) :
    Built past event.header.sessionId event.header.processId (index.buildProfile event) := by
  have whole := addContextSignals_assembled h (addParentSignals_assembled h root rfl)
  unfold buildProfile
  refine ⟨{ whole with signals := whole.signals.sort, saturated := fun saturated => ?_ },
    whole.signals.strict⟩
  obtain ⟨signal, member, full⟩ := whole.saturated saturated
  exact ⟨signal, (sortSignals_perm _).mem_iff.2 member, full⟩

/-! ## Remembering -/

theorem Tracked.mono (h : Tracked index past) (event : EventRecord) :
    Tracked index (past ++ [event]) := by
  refine ⟨?_, ?_, ?_⟩
  · intro ref state found
    obtain ⟨same, earlier⟩ := h.events ref state found
    exact ⟨same, earlier.mono event⟩
  · intro key context found i
    exact (h.contexts key context found i).mono event
  · intro key profile found
    exact (h.requestProfiles key profile found).mono event

theorem rememberEvent_tracked (h : Tracked index past) (own : Earlier past (signalReference event)) :
    Tracked (index.rememberEvent event) past :=
  { h with events := h.events.push ⟨rfl, own⟩ }

/-- Counting one more event keeps a counter's promise. -/
theorem count_ok {key : SignalContextKey} {state : ContextSignalState}
    {ref : RequestSignalEventReference} (h : CountOk past key state)
    (named : Names past key.sessionId key.processId ref) :
    CountOk past key (ContextSignalState.count state ref) := by
  unfold ContextSignalState.count
  refine ⟨fun _ => ⟨?_, named⟩, fun saturated => ?_⟩
  · dsimp only
    split
    · exact named
    · rename_i counted
      exact (h.names fun zero => counted (beq_iff_eq.2 zero)).1
  · dsimp only at saturated ⊢
    split
    · rename_i room
      rw [if_pos room] at saturated
      exact absurd (h.saturated saturated) (bne_iff_ne.1 room)
    · rename_i full
      simpa using full

theorem rememberContextSignal_tracked (h : Tracked index past)
    (own : Earlier past (signalReference event)) :
    Tracked (index.rememberContextSignal event) past := by
  unfold rememberContextSignal
  split
  · exact h
  rename_i i _
  dsimp only
  split
  · exact h
  rename_i isSet
  rw [Bool.not_eq_true', Bool.not_eq_false] at isSet
  have named : Names past (signalContextKey event).sessionId (signalContextKey event).processId
      (signalReference event) := ⟨own, isSet, rfl, rfl⟩
  have counted : ∀ context : ContextState, (∀ j : Fin kRequestSignalProfileCategoryCount,
      CountOk past (signalContextKey event) context.signals[j]) →
      ∀ j : Fin kRequestSignalProfileCategoryCount, CountOk past (signalContextKey event)
        (context.signals.set i
          (ContextSignalState.count context.signals[i] (signalReference event)))[j] := by
    intro context counts j
    by_cases same : i = j
    · subst same
      rw [Fin.getElem_fin, Vector.getElem_set_self]
      exact count_ok (counts i) named
    · rw [Fin.getElem_fin, Vector.getElem_set_ne _ _ fun eq => same (Fin.ext eq)]
      exact counts j
  split
  · rename_i context found
    exact { h with contexts := h.contexts.set (counted context (h.contexts _ context found)) }
  · refine { h with contexts := h.contexts.push (counted {} fun j => ?_) }
    show CountOk past _ (Vector.replicate kRequestSignalProfileCategoryCount _)[j]
    rw [Fin.getElem_fin, Vector.getElem_replicate]
    exact CountOk.zero past _

/-- Only the profile of an initiating request is kept, and that one was built. -/
theorem rememberRequestProfile_tracked (h : Tracked index past) {profile : RequestSignalProfile}
    (built : event.header.type = .requestInitiated →
      Built past event.header.sessionId event.header.processId profile) :
    Tracked (index.rememberRequestProfile event profile) past := by
  unfold rememberRequestProfile
  split
  · exact h
  rename_i initiated
  have kept := built (by simpa using initiated)
  dsimp only
  split
  · exact { h with requestProfiles := h.requestProfiles.set kept }
  · exact { h with requestProfiles := h.requestProfiles.push kept }

/-! ## Validity -/

theorem validSignals_of_ok {signals : List RequestSignalEvidence} {categories : List EventCategory}
    (ok : SignalsOk past sessionId processId signals)
    (apart : ∀ signal ∈ signals, signal.category ∉ categories) :
    validSignals sessionId processId signals categories = true := by
  induction signals generalizing categories with
  | nil => rfl
  | cons signal rest ih =>
      have head := ok.each signal List.mem_cons_self
      obtain ⟨alone, distinct⟩ := List.nodup_cons.1 ok.distinct
      have tail : validSignals sessionId processId rest (signal.category :: categories) = true := by
        refine ih ⟨fun s member => ok.each s (List.mem_cons_of_mem _ member), distinct⟩ ?_
        intro s member inCategories
        rcases List.mem_cons.1 inCategories with same | seen
        · exact alone (List.mem_map.2 ⟨s, member, same⟩)
        · exact apart s (List.mem_cons_of_mem _ member) seen
      have unseen : categories.contains signal.category = false := by
        rw [Bool.eq_false_iff, ne_eq, List.contains_iff_mem]
        exact apart signal List.mem_cons_self
      have related : (signal.relation == .kParentChain || signal.relation == .kSameContext) = true := by
        have := head.relation
        cases relation : signal.relation <;> first | rfl | exact absurd relation this
      rw [validSignals, head.category, unseen, related, head.first.isSet, head.last.isSet, tail,
        head.first.session, head.last.session, head.first.process, head.last.process,
        head.first.earlier.reserved, head.last.earlier.reserved]
      simp [head.count]

/-- Where a profile has its signals from: its own root, or the initiator it was copied
from. -/
inductive SignalsFrom (profile : RequestSignalProfile) : UInt32 → Prop where
  | root (initiator : profile.initiatorEvent = {} ∧ profile.copiedFromInitiator = false) :
      SignalsFrom profile profile.rootEvent.processId
  | initiator (isSet : referenceIsSet profile.initiatorEvent = true)
      (reserved : profile.initiatorEvent.reserved = 0)
      (session : profile.initiatorEvent.sessionId = profile.rootEvent.sessionId)
      (copied : profile.copiedFromInitiator = true) :
      SignalsFrom profile profile.initiatorEvent.processId

theorem isValid_of_body {profile : RequestSignalProfile} (request : profile.requestId ≠ 0)
    (root : referenceIsSet profile.rootEvent = true) (reserved : profile.rootEvent.reserved = 0)
    (origin : SignalsFrom profile processId)
    (body : Body past profile.rootEvent.sessionId processId profile) :
    isValidRequestSignalProfile profile = true := by
  have signals : validSignals profile.rootEvent.sessionId processId profile.signals [] = true :=
    validSignals_of_ok body.signals fun _ _ => List.not_mem_nil
  have limited : (profile.parentDepthLimited &&
      profile.parentDepth.toNat != kRequestSignalProfileParentDepthLimit) = false := by
    rw [Bool.and_eq_false_iff]
    by_cases limited : profile.parentDepthLimited = true
    · exact .inr (by simp [body.limited limited])
    · exact .inl (Bool.eq_false_iff.2 limited)
  have saturated : (!profile.countSaturated ||
      profile.signals.any (·.eventCount == 0xffffffffffffffff)) = true := by
    rw [Bool.or_eq_true, Bool.not_eq_true', List.any_eq_true]
    by_cases saturated : profile.countSaturated = true
    · obtain ⟨signal, member, full⟩ := body.saturated saturated
      exact .inr ⟨signal, member, beq_iff_eq.2 full⟩
    · exact .inl (Bool.eq_false_iff.2 saturated)
  have none : referenceIsSet {} = false := rfl
  cases origin with
  | root initiator =>
      simp [isValidRequestSignalProfile, body.protocolVersion, body.reserved, body.signals.length_le,
        request, root, reserved, body.depth, limited, initiator.1, initiator.2, none, signals,
        saturated]
  | initiator isSet initiatorReserved session copied =>
      simp [isValidRequestSignalProfile, body.protocolVersion, body.reserved, body.signals.length_le,
        request, root, reserved, body.depth, limited, isSet, initiatorReserved, session, copied,
        signals, saturated]

/-! ## One event -/

/-- The profile of a root event, copied or built. -/
theorem rootProfile_returned (h : Tracked index past) (root : isRequestProfileRoot event = true) :
    Tracked (index.rootProfile event).1 past ∧ Returned past (index.rootProfile event).2 ∧
      (event.header.type = .requestInitiated →
        Built past event.header.sessionId event.header.processId (index.rootProfile event).2) := by
  have parts := root
  simp only [isRequestProfileRoot, Bool.and_eq_true, bne_iff_ne, ne_eq] at parts
  obtain ⟨⟨⟨⟨-, session⟩, sequence⟩, request⟩, -⟩ := parts
  have isSet : referenceIsSet (signalReference event) = true := by
    rw [referenceIsSet, Bool.and_eq_true, bne_iff_ne, bne_iff_ne]
    exact ⟨session, sequence⟩
  unfold rootProfile
  split
  · rename_i profile found
    unfold findInitiatorProfile at found
    split at found
    · rename_i names
      have built := h.requestProfiles _ profile found
      obtain ⟨initiatorSet, reserved, sameSession, -⟩ := built.root
      have process : profile.rootEvent.processId = event.header.initiatorProcessId := built.root.2.2.2
      have origin : SignalsFrom (copyProfile event profile) profile.rootEvent.processId :=
        .initiator initiatorSet reserved sameSession rfl
      have valid : isValidRequestSignalProfile (copyProfile event profile) = true :=
        isValid_of_body request isSet rfl (process ▸ origin) { built.toBody with }
      refine ⟨{ h with }, built.returned rfl valid, fun initiated => ?_⟩
      -- only a started request copies
      simp [namesProfileInitiator, initiated] at names
    · cases found
  · have built := buildProfile_built h root
    have whole : ∀ truncated : Bool, Built past event.header.sessionId event.header.processId
        { index.buildProfile event with retentionTruncated := truncated } :=
      fun _ => ⟨{ built.toAssembled with }, built.sorted⟩
    have chosen : ∃ truncated, (if namesProfileInitiator event && index.stats.evictedProfiles != 0
        then { index.buildProfile event with retentionTruncated := true }
        else index.buildProfile event) =
        { index.buildProfile event with retentionTruncated := truncated } := by
      split
      · exact ⟨true, rfl⟩
      · exact ⟨(index.buildProfile event).retentionTruncated, rfl⟩
    obtain ⟨truncated, eq⟩ := chosen
    dsimp only
    rw [eq]
    have kept := whole truncated
    refine ⟨h, kept.returned rfl ?_, fun _ => kept⟩
    have rootSession := built.root.2.2.1
    have body := kept.toBody
    rw [← rootSession, ← built.root.2.2.2] at body
    exact isValid_of_body built.request built.root.1 built.root.2.1 (.root built.initiator) body

theorem ingest_tracked (h : Tracked index past) (event : EventRecord) :
    Tracked (index.ingest event).1 (past ++ [event]) ∧
      ∀ profile, (index.ingest event).2 = some profile → Returned past profile := by
  unfold ingest
  split
  · exact ⟨h.mono event, fun profile none => by cases none⟩
  rename_i valid
  rw [Bool.not_eq_true', Bool.not_eq_false] at valid
  split
  · exact ⟨{ h.mono event with }, fun profile none => by cases none⟩
  have own : Earlier (past ++ [event]) (signalReference event) := ⟨event, by simp, valid, rfl⟩
  have remembered : ∀ {index : RequestSignalProfileIndex}, Tracked index past →
      Tracked ((index.rememberEvent event).rememberContextSignal event) (past ++ [event]) :=
    fun tracked =>
      rememberContextSignal_tracked (rememberEvent_tracked (tracked.mono event) own) own
  by_cases root : isRequestProfileRoot event = true
  · obtain ⟨tracked, returned, built⟩ := rootProfile_returned h root
    simp only [root, if_true]
    refine ⟨?_, fun profile eq => ?_⟩
    · exact { rememberRequestProfile_tracked (remembered tracked)
        (fun initiated => (built initiated).mono event) with }
    · cases eq
      exact returned
  · simp only [root]
    exact ⟨{ remembered h with }, fun profile none => by cases none⟩

/-! ## Along a run -/

theorem Tracked.after (h : Tracked index past) (run : List EventRecord) :
    Tracked (index.after run) (past ++ run) := by
  induction run generalizing index past with
  | nil => rwa [List.append_nil]
  | cons event rest ih =>
      have next := ih (ingest_tracked h event).1
      rwa [List.append_assoc, List.singleton_append] at next

theorem construct_tracked {capacity : UInt64} (constructed : construct capacity = .ok index) :
    Tracked index [] := by
  unfold construct at constructed
  split at constructed
  · cases constructed
  · cases constructed
    exact ⟨.empty, .empty, .empty⟩

/-- Every profile a run returns is valid, lists its signals by rising category, and names
events ingested before it. -/
theorem returned_profile_valid {capacity : UInt64} {start : RequestSignalProfileIndex}
    (constructed : construct capacity = .ok start) {past : List EventRecord} {event : EventRecord}
    {profile : RequestSignalProfile}
    (returned : ((start.after past).ingest event).2 = some profile) :
    isValidRequestSignalProfile profile = true ∧
      (profile.signals.Pairwise fun a b => a.category.toUInt16 < b.category.toUInt16) ∧
      ∀ signal ∈ profile.signals, Earlier past signal.firstEvent ∧ Earlier past signal.lastEvent := by
  have tracked := (construct_tracked constructed).after past
  rw [List.nil_append] at tracked
  obtain ⟨valid, sorted, earlier⟩ := (ingest_tracked tracked event).2 profile returned
  exact ⟨valid, sorted, earlier⟩

/-- A canvas read in a frame. -/
def canvasRead : EventRecord :=
  { header :=
      { category := .canvas, type := .apiCall, sessionId := 1, sequenceNumber := 1, processId := 2
        frameId := 5 } }

/-- A request the frame starts after it. -/
def frameRequest : EventRecord :=
  { header :=
      { category := .network, type := .requestInitiated, sessionId := 1, sequenceNumber := 2
        processId := 2, frameId := 5, parentEventId := 1, requestId := 7 } }

theorem returned_profile_valid_canvas :
    ∃ profile, ((after { capacity := 2 } [canvasRead]).ingest frameRequest).2 = some profile ∧
      isValidRequestSignalProfile profile = true ∧ profile.signals ≠ [] := by
  have some : ∃ profile, ((after { capacity := 2 } [canvasRead]).ingest frameRequest).2 =
      some profile ∧ profile.signals ≠ [] := ⟨_, rfl, by decide +kernel⟩
  obtain ⟨profile, returned, signals⟩ := some
  exact ⟨profile, returned, (returned_profile_valid
    (show construct 2 = .ok { capacity := 2 } from rfl) returned).1, signals⟩

end RequestSignalProfileIndex

end Reb.Evidence
