/-
# Analysis.SnapshotAgreement -- when the probe answers for the search

The two walks mark the same nodes in the same order (`walk_alike`), so the probe's
match is the search's first.  They disagree only in what they refuse: a snapshot
without nodes whose edges the search does not count, and edge counts that need more
than 32 bits, which the probe of all nodes does not index (`probe_agrees_iff`).
-/
import Reb.Analysis.SnapshotWalk
import Reb.Analysis.SnapshotSearch
import Reb.Analysis.SnapshotShape

namespace Reb.Analysis.Snapshot

open Reb.Theory.Worklist

set_option autoImplicit false

/-! ## The walks -/

/-- The same nodes are pending, and those that have a parent are marked. -/
structure Alike (walk : Walk) (marks : Marks) : Prop where
  pending : walk.pending = marks.pending
  size : walk.parents.length = marks.reachable.length
  marked : ∀ node, (walk.parents.getD node none).isSome = marks.reachable.getD node false

namespace Loaded

variable (s : Loaded)

theorem walkEdge_alike (source edge : Nat) {walk : Walk} {marks : Marks} (alike : Alike walk marks) :
    Alike (s.walkEdge source walk edge) (s.markEdge marks edge) := by
  unfold walkEdge markEdge
  cases s.edgeTarget edge with
  | none => exact alike
  | some target =>
      simp only [alike.marked target]
      split_ifs with seen
      · exact alike
      · exact {
          pending := by rw [alike.pending]
          size := by simp [alike.size]
          marked := fun node => by
            have before := alike.marked node
            simp only [List.getD_eq_getElem?_getD, List.getElem?_set, alike.size] at before ⊢
            by_cases here : target = node
            · by_cases inside : node < marks.reachable.length
              · simp [here, inside]
              · simp [here, inside]
            · simpa [here] using before }

theorem walkNode_alike (starts : List Nat) (source : Nat) {walk : Walk} {marks : Marks}
    (alike : Alike walk marks) : Alike (s.walkNode starts walk source) (s.markNode starts marks source) := by
  unfold walkNode markNode
  induction s.edgeRun starts source generalizing walk marks with
  | nil => exact alike
  | cons edge edges ih => exact ih (s.walkEdge_alike source edge alike)

theorem walk_alike (starts : List Nat) : Alike (s.walkFrom starts) (s.markFrom starts) := by
  refine drain_simulates (fun _ _ alike => alike.pending)
    (fun _ _ source alike _ => s.walkNode_alike starts source alike) _ _ _ _ ?_
  exact {
    pending := rfl
    size := by simp [walkStart, markStart]
    marked := fun node => by
      simp only [walkStart, markStart, List.getD_eq_getElem?_getD, List.getElem?_set,
        List.getElem?_replicate, List.length_replicate]
      by_cases root : 0 = node
      · by_cases inside : 0 < s.layout.storedNodes
        · simp [← root, inside]
        · simp [← root, inside]
      · by_cases inside : node < s.layout.storedNodes
        · simp [root, inside]
        · simp [root, inside] }

/-! ## The matches -/

theorem matchNodes_eq (needle : List UInt8) (caseSensitive : Bool) (scope : SearchScope) (limit : Nat)
    (walk : Walk) : ∀ (ordinals : List Nat) (found : Matching), found.matchNodes.length ≤ limit →
      ordinals.foldl (s.matchNode needle caseSensitive scope limit walk) found = {
        analyzedNodes := found.analyzedNodes + ordinals.length
        matchedNodes := found.matchedNodes
          + (ordinals.filter (s.isMatch needle caseSensitive scope walk)).length
        matchNodes := (found.matchNodes
          ++ ordinals.filter (s.isMatch needle caseSensitive scope walk)).take limit }
  | [], found, short => by
      simp [List.take_of_length_le short]
  | ordinal :: ordinals, found, short => by
      rw [List.foldl_cons]
      by_cases accepted : s.isMatch needle caseSensitive scope walk ordinal = true
      · by_cases room : found.matchNodes.length ≥ limit
        · rw [matchNodes_eq needle caseSensitive scope limit walk ordinals _ (by simp [matchNode, accepted, room, short])]
          have full : found.matchNodes.length = limit := by omega
          simp only [matchNode, accepted, room, if_true, List.filter_cons, List.length_cons]
          rw [List.take_append_of_le_length full.ge, List.take_append_of_le_length full.ge]
          simp only [Matching.mk.injEq, and_true]
          omega
        · have fits : (found.matchNodes ++ [ordinal]).length ≤ limit := by
            rw [List.length_append, List.length_singleton]; omega
          rw [matchNodes_eq needle caseSensitive scope limit walk ordinals _ (by simpa [matchNode, accepted, room] using fits)]
          simp only [matchNode, accepted, room, if_true, if_false, List.filter_cons, List.length_cons,
            List.append_assoc, List.singleton_append, Matching.mk.injEq, and_true]
          omega
      · rw [matchNodes_eq needle caseSensitive scope limit walk ordinals _
          (by simp [matchNode, accepted, short])]
        simp only [matchNode, accepted, List.filter_cons, List.length_cons, Matching.mk.injEq]
        simp
        omega

theorem matching_eq (needle : List UInt8) (caseSensitive : Bool) (scope : SearchScope) (limit : Nat)
    (walk : Walk) :
    s.matching needle caseSensitive scope limit walk = {
      analyzedNodes := s.layout.storedNodes
      matchedNodes :=
        ((List.range s.layout.storedNodes).filter (s.isMatch needle caseSensitive scope walk)).length
      matchNodes :=
        ((List.range s.layout.storedNodes).filter
          (s.isMatch needle caseSensitive scope walk)).take limit } := by
  rw [matching, matchNodes_eq s needle caseSensitive scope limit walk _ {} (Nat.zero_le limit)]
  simp

theorem probeNodes_snd (accept : Nat → Bool) : ∀ (ordinals : List Nat) (analyzed : Nat),
    (probeNodes accept ordinals analyzed).2 = (ordinals.filter accept).head?
  | [], _ => rfl
  | ordinal :: ordinals, analyzed => by
      rw [probeNodes, List.filter_cons]
      split_ifs
      · rfl
      · exact probeNodes_snd accept ordinals (analyzed + 1)

theorem referenceEdge_length (matchNodes : List Nat) (source edge : Nat) (table : List Incoming) :
    (s.referenceEdge matchNodes source table edge).length = table.length := by
  unfold referenceEdge
  split
  · rfl
  · split
    · rfl
    · exact List.length_modify ..

theorem references_length (starts matchNodes : List Nat) :
    (s.references starts matchNodes).length = matchNodes.length := by
  have run (source : Nat) : ∀ (edges : List Nat) (table : List Incoming),
      (edges.foldl (s.referenceEdge matchNodes source) table).length = table.length := by
    intro edges
    induction edges with
    | nil => exact fun _ => rfl
    | cons edge edges ih =>
        intro table
        rw [List.foldl_cons, ih, referenceEdge_length]
  unfold references
  generalize List.range s.layout.storedNodes = sources
  generalize start : matchNodes.map (fun _ => ({} : Incoming)) = table
  have size : table.length = matchNodes.length := by rw [← start, List.length_map]
  clear start
  induction sources generalizing table with
  | nil => exact size
  | cons source sources ih => exact ih _ ((run source _ table).trans size)

end Loaded

/-! ## The answers -/

/-- What the probe would report of a match. -/
def SnapshotMatch.probed (found : SnapshotMatch) : ProbeMatch where
  nodeId := found.nodeId
  selfSize := found.selfSize
  nodeType := found.nodeType
  nodeName := found.nodeName

/-- A search and a probe that say the same of a snapshot. -/
structure Agree (scope : SearchScope) (search : SearchResult) (probe : ProbeResult) : Prop where
  found : probe.matchFound = true ↔ 0 < search.matchedNodes
  first : probe.matchFound = true → search.found.head?.map SnapshotMatch.probed = some probe.found
  reachable : scope ≠ .all → probe.reachableNodes = search.reachableNodes

/-- Both fail, or both succeed and agree. -/
inductive SameAnswer (scope : SearchScope) :
    Except Failure SearchResult → Except Failure ProbeResult → Prop where
  | refused {failure failure' : Failure} : SameAnswer scope (.error failure) (.error failure')
  | answered {search : SearchResult} {probe : ProbeResult} (agree : Agree scope search probe) :
      SameAnswer scope (.ok search) (.ok probe)

/-- A snapshot that only one of the two refuses: no node owns the edges that it has, or
their counts only fit 64 bits. -/
def Loaded.Divided (s : Loaded) (scope : SearchScope) : Prop :=
  (s.layout.storedNodes = 0 ∧ s.layout.storedEdges ≠ 0 ∧ s.data.edgeValuesTruncated = false)
    ∨ (scope = .all ∧ s.layout.storedNodes ≠ 0 ∧ s.data.edgeValuesTruncated = true
      ∧ 2 ^ 32 ≤ s.ownedEdges ∧ s.ownedEdges < 2 ^ 64)

/-- A document and a query on which the two part. -/
def Divides (document query : List UInt8) (scope : SearchScope) : Prop :=
  query ≠ [] ∧ query.length ≤ 512
    ∧ ∃ s, loadSnapshot .program document = .ok s ∧ s.Divided scope

namespace Loaded

variable {s : Loaded}

/-- With the same marks, the reports agree. -/
theorem report_agree {walk : Walk} {marks : Marks} {scope : SearchScope} {limit : Nat}
    (positive : 0 < limit) (starts : List Nat) (query : List UInt8) (caseSensitive : Bool)
    (elapsed elapsed' : Nat)
    (accepts : ∀ needle, s.isMarked needle caseSensitive scope marks
      = s.isMatch needle caseSensitive scope walk)
    (reached : scope ≠ .all → walk.pending = marks.pending) :
    Agree scope (s.report starts walk query caseSensitive scope limit elapsed)
      (s.probeReport marks query caseSensitive scope elapsed') := by
  have first : (probeNodes (s.isMarked (searchQuery query caseSensitive) caseSensitive scope marks)
      (List.range s.layout.storedNodes) 0).2
      = ((List.range s.layout.storedNodes).filter
          (s.isMatch (searchQuery query caseSensitive) caseSensitive scope walk)).head? := by
    rw [probeNodes_snd, accepts]
  have sized := s.references_length starts
    (s.matching (searchQuery query caseSensitive) caseSensitive scope limit walk).matchNodes
  obtain ⟨room, rfl⟩ := Nat.exists_eq_succ_of_ne_zero positive.ne'
  unfold report probeReport
  rw [matching_eq] at sized ⊢
  simp only at sized
  generalize (List.range s.layout.storedNodes).filter
    (s.isMatch (searchQuery query caseSensitive) caseSensitive scope walk) = accepted at first sized ⊢
  cases accepted with
  | nil =>
      exact {
        found := by simp [first]
        first := by simp [first]
        reachable := fun needed => by simp [reached needed] }
  | cons node others =>
      rw [List.take_succ_cons, List.length_cons] at sized
      obtain ⟨incoming, rest, same⟩ := List.exists_cons_of_length_eq_add_one sized
      exact {
        found := by simp [first]
        first := fun _ => by
          simp only [first, List.head?_cons, List.take_succ_cons, same, List.zipWith_cons_cons,
            Option.map_some, Option.elim_some]
          rfl
        reachable := fun needed => by simp [reached needed] }

/-- What the two answer once the snapshot is loaded. -/
def Answers (s : Loaded) (query : List UInt8) (caseSensitive : Bool) (scope : SearchScope)
    (limit elapsed elapsed' : Nat) : Prop :=
  SameAnswer scope
    (s.indexReferences.map fun (starts, walk) =>
      s.report starts walk query caseSensitive scope limit elapsed)
    (match s.validateEdgeCounts with
      | .error failure => .error failure
      | .ok _ => (s.indexReachable scope).map fun marks =>
          s.probeReport marks query caseSensitive scope elapsed')

variable {scope : SearchScope} {limit : Nat}

theorem answers_empty (empty : s.layout.storedNodes = 0) (positive : 0 < limit) (query : List UInt8)
    (caseSensitive : Bool) (elapsed elapsed' : Nat) :
    s.Answers query caseSensitive scope limit elapsed elapsed' ↔ ¬ s.Divided scope := by
  have owned : s.ownedEdges = 0 := by simp [ownedEdges, edgeCounts, empty]
  have divided : s.Divided scope ↔ ¬ s.Balanced := by
    constructor
    · rintro (⟨-, some, whole⟩ | ⟨-, nodes, -⟩)
      · rintro (truncated | same)
        · rw [whole] at truncated
          cases truncated
        · exact some (same.symm.trans owned)
      · exact absurd empty nodes
    · intro unbalanced
      exact .inl ⟨empty, fun none => unbalanced (.inr (owned.trans none.symm)),
        Bool.eq_false_iff.2 fun truncated => unbalanced (.inl truncated)⟩
  rw [Answers, divided, not_not, validateEdgeCounts_eq, owned, if_neg (by decide), indexReferences,
    if_pos empty]
  by_cases balanced : s.Balanced
  · rw [if_pos balanced, indexReachable, if_pos (.inr empty)]
    refine iff_of_true (.answered (report_agree positive _ _ _ _ _ (fun needle => ?_) fun _ => rfl)) balanced
    funext ordinal
    simp [isMarked, isMatch]
  · rw [if_neg balanced]
    refine iff_of_false (fun answered => ?_) balanced
    cases answered

theorem answers_wide (nodes : s.layout.storedNodes ≠ 0) (wide : s.ownedEdges > maxGraphIndex)
    (few : s.layout.storedEdges ≤ maxGraphIndex) (query : List UInt8) (caseSensitive : Bool)
    (elapsed elapsed' : Nat) :
    s.Answers query caseSensitive scope limit elapsed elapsed' ↔ ¬ s.Divided scope := by
  have starts : s.buildEdgeStarts = .error .edgeOverflow := by rw [buildEdgeStarts_eq, if_pos wide]
  have wide' : 2 ^ 32 ≤ s.ownedEdges := wide
  have divided : s.Divided scope
      ↔ scope = .all ∧ s.data.edgeValuesTruncated = true ∧ s.ownedEdges < 2 ^ 64 := by
    simp only [Divided, nodes, wide', false_and, false_or, ne_eq, not_false_eq_true, true_and]
  have unequal : s.ownedEdges ≠ s.layout.storedEdges := by omega
  rw [Answers, divided, validateEdgeCounts_eq, indexReferences, if_neg nodes, starts]
  by_cases huge : s.ownedEdges > 2 ^ 64 - 1
  · rw [if_pos huge]
    refine iff_of_true .refused ?_
    rintro ⟨-, -, small⟩
    omega
  · rw [if_neg huge]
    have small : s.ownedEdges < 2 ^ 64 := by omega
    by_cases truncated : s.data.edgeValuesTruncated = true
    · rw [if_pos (.inl truncated), indexReachable]
      by_cases all : scope = .all
      · rw [if_pos (.inl all)]
        refine iff_of_false (fun answered => ?_) fun none => none ⟨all, truncated, small⟩
        cases answered
      · rw [if_neg (by simp [all, nodes]), starts]
        exact iff_of_true .refused fun divides => all divides.1
    · have unbalanced : ¬ s.Balanced := by simp [Balanced, truncated, unequal]
      rw [if_neg unbalanced]
      exact iff_of_true .refused fun divides => truncated divides.2.1

theorem answers_narrow (nodes : s.layout.storedNodes ≠ 0) (narrow : ¬ s.ownedEdges > maxGraphIndex)
    (positive : 0 < limit) (query : List UInt8) (caseSensitive : Bool) (elapsed elapsed' : Nat) :
    s.Answers query caseSensitive scope limit elapsed elapsed' ↔ ¬ s.Divided scope := by
  have narrow' : s.ownedEdges < 2 ^ 32 := by
    rw [maxGraphIndex] at narrow
    omega
  have united : ¬ s.Divided scope := by
    rintro (⟨none, -⟩ | ⟨-, -, -, wide, -⟩)
    · exact nodes none
    · omega
  refine iff_of_true ?_ united
  rw [Answers, validateEdgeCounts_eq, if_neg (by omega), indexReferences, if_neg nodes,
    buildEdgeStarts_eq, if_neg narrow]
  by_cases balanced : s.Balanced
  · rw [if_pos balanced, if_pos balanced, indexReachable]
    by_cases all : scope = .all
    · rw [if_pos (.inl all)]
      refine .answered (report_agree positive _ _ _ _ _ (fun needle => ?_) fun needed => absurd all needed)
      funext ordinal
      simp [isMarked, isMatch, all, matchesSearchScope]
    · rw [if_neg (by simp [all, nodes]), buildEdgeStarts_eq, if_neg narrow, if_pos balanced]
      have alike := s.walk_alike (firstEdges s.edgeCounts 0)
      refine .answered (report_agree positive _ _ _ _ _ (fun needle => ?_) fun _ => alike.pending)
      funext ordinal
      rw [isMarked, isMatch, alike.marked]
  · rw [if_neg balanced, if_neg balanced]
    exact .refused

end Loaded

/-- The probe answers for the search, but for the snapshots that only one refuses. -/
theorem probe_agrees_iff (document query : List UInt8) (caseSensitive : Bool) (scope : SearchScope)
    {limit : Nat} (positive : 1 ≤ limit) (elapsed elapsed' : Nat) :
    SameAnswer scope (searchV8HeapSnapshot document query caseSensitive scope limit elapsed)
        (probeV8HeapSnapshot document query caseSensitive scope elapsed')
      ↔ ¬ Divides document query scope := by
  have room : 0 < min limit kHeapSnapshotMaxResults := lt_min positive (by decide)
  unfold searchV8HeapSnapshot probeV8HeapSnapshot Divides
  by_cases invalid : query = [] ∨ query.length > 512
  · rw [if_pos (by tauto), if_pos invalid]
    refine iff_of_true .refused ?_
    rintro ⟨some, short, -⟩
    exact invalid.elim some fun long => by omega
  rw [if_neg (by simp only [not_or] at invalid ⊢; exact ⟨invalid.1, invalid.2, room.ne'⟩), if_neg invalid]
  have valid : query ≠ [] ∧ query.length ≤ 512 := ⟨fun empty => invalid (.inl empty), by omega⟩
  cases loaded : loadSnapshot .program document with
  | error failure => exact iff_of_true .refused fun divides => by simpa using divides.2.2
  | ok s =>
      obtain ⟨-, nodes, edges⟩ := loadSnapshot_program loaded
      have indexed : ¬ (s.layout.storedNodes ≥ Loaded.maxGraphIndex
          ∨ s.layout.storedEdges ≥ Loaded.maxGraphIndex) := by
        have fewNodes : kHeapSnapshotMaxNodes < Loaded.maxGraphIndex := by decide
        have fewEdges : kHeapSnapshotMaxEdges < Loaded.maxGraphIndex := by decide
        omega
      have divided : (query ≠ [] ∧ query.length ≤ 512
          ∧ ∃ s', Except.ok s = (Except.ok s' : Except Failure Loaded) ∧ s'.Divided scope)
          ↔ s.Divided scope := by
        simp [valid.1, valid.2]
      simp only [if_neg indexed]
      rw [divided]
      by_cases empty : s.layout.storedNodes = 0
      · exact s.answers_empty empty room query caseSensitive elapsed elapsed'
      · by_cases wide : s.ownedEdges > Loaded.maxGraphIndex
        · exact s.answers_wide empty wide (by omega) query caseSensitive elapsed elapsed'
        · exact s.answers_narrow empty wide room query caseSensitive elapsed elapsed'

/-! ## Samples -/

/-- A document of a plain layout. -/
def sampleDocument (nodeCount edgeCount nodes edges strings : String) : List UInt8 :=
  text ("\x7b\"snapshot\":\x7b\"meta\":\x7b\"node_fields\":[\"type\",\"name\",\"id\",\"self_size\",\"edge_count\"],"
    ++ "\"node_types\":[[\"object\"]],\"edge_fields\":[\"type\",\"name_or_index\",\"to_node\"],"
    ++ "\"edge_types\":[[\"property\"]]\x7d,\"node_count\":" ++ nodeCount ++ ",\"edge_count\":" ++ edgeCount
    ++ "\x7d,\"nodes\":[" ++ nodes ++ "],\"edges\":[" ++ edges ++ "],\"strings\":[" ++ strings ++ "]\x7d")

/-- A snapshot without nodes; its only edge has no owner. -/
def orphanedEdge : List UInt8 := sampleDocument "0" "1" "" "0,0,0" ""

/-- Two nodes, of which the root names the other one. -/
def namedChild : List UInt8 := sampleDocument "2" "1" "0,0,1,0,1,0,1,3,8,0" "0,1,5" "\"\",\"a\""

theorem probe_agrees_sample :
    SameAnswer .reachable (searchV8HeapSnapshot namedChild (text "A") false .reachable 1 0)
      (probeV8HeapSnapshot namedChild (text "A") false .reachable 0)
      ↔ ¬ Divides namedChild (text "A") .reachable :=
  probe_agrees_iff namedChild (text "A") false .reachable (by decide) 0 0

/-- The search passes the edge over, the probe refuses the snapshot. -/
theorem orphaned_edge_divides :
    ¬ ∀ (document query : List UInt8) (caseSensitive : Bool) (scope : SearchScope) (limit : Nat),
      1 ≤ limit → SameAnswer scope (searchV8HeapSnapshot document query caseSensitive scope limit 0)
        (probeV8HeapSnapshot document query caseSensitive scope 0) := by
  intro same
  have answered := same orphanedEdge (text "a") true .all 1 le_rfl
  have refused : probeV8HeapSnapshot orphanedEdge (text "a") true .all 0 = .error .edgeMismatch := by
    decide +kernel
  have found : (searchV8HeapSnapshot orphanedEdge (text "a") true .all 1 0).isOk = true := by
    decide +kernel
  rw [refused] at answered
  cases searched : searchV8HeapSnapshot orphanedEdge (text "a") true .all 1 0 with
  | error failure => simp [searched, Except.isOk, Except.toBool] at found
  | ok result =>
      rw [searched] at answered
      cases answered

end Reb.Analysis.Snapshot
