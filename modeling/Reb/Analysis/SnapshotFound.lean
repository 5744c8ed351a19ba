/-
# Analysis.SnapshotFound -- what a search reports

The report of a search in the terms of the snapshot: which nodes are reached, which are matches,
how each is retained and what points at it (`searchV8HeapSnapshot_exact`).
-/
import Reb.Analysis.SnapshotAgreement
import Reb.Analysis.SnapshotLevels
import Reb.Analysis.SnapshotReferences

namespace Reb.Analysis.Snapshot

open Reb.Theory Loaded

set_option autoImplicit false

/-! ## The answer -/

/-- The query is found in a name; without case, letters are folded. -/
def Names (query : List UInt8) (caseSensitive : Bool) (name : List UInt8) : Prop :=
  if caseSensitive then query <:+: name else query.map asciiFold <:+: name.map asciiFold

namespace Loaded

variable (s : Loaded)

def InScope (node : Nat) : SearchScope → Prop
  | .all => True
  | .reachable => s.Reaches node
  | .unreachable => ¬ s.Reaches node

open Classical in
/-- The nodes of the scope that the query names, in order. -/
noncomputable def wantedNodes (query : List UInt8) (caseSensitive : Bool) (scope : SearchScope) :
    List Nat :=
  (List.range s.layout.storedNodes).filter fun node =>
    decide (s.InScope node scope ∧ Names query caseSensitive (s.nodeName node))

/-- What is reported of a match. -/
structure Reported (node : Nat) (found : SnapshotMatch) : Prop where
  nodeId : found.nodeId = s.nodeId node
  selfSize : found.selfSize = s.selfSize node
  nodeType : found.nodeType = boundedText (s.nodeType node) 64
  nodeName : found.nodeName = boundedText (s.nodeName node) 256
  reachable : found.reachable = true ↔ s.Reaches node
  path : found.retainingPathComplete = true → Retains s 0 found.retainingPath node
    ∧ ∀ other, Retains s 0 other node → found.retainingPath.length ≤ other.length
  complete : found.retainingPathComplete = true
    ↔ ∃ other, Retains s 0 other node ∧ other.length ≤ kHeapSnapshotMaxRetainingDepth
  references : found.incomingReferences
    = ((TopK.ranked better (s.incoming node)).take kHeapSnapshotMaxIncomingReferences).map
        s.incomingReference
  count : found.incomingReferenceCount = (s.incoming node).length

/-- The report of a search, of at most `limit` matches. -/
structure Answered (query : List UInt8) (caseSensitive : Bool) (scope : SearchScope) (limit : Nat)
    (result : SearchResult) : Prop where
  reachableNodes :
    result.reachableNodes = Set.ncard {node | node < s.layout.storedNodes ∧ s.Reaches node}
  matchedNodes : result.matchedNodes = (s.wantedNodes query caseSensitive scope).length
  found : List.Forall₂ s.Reported ((s.wantedNodes query caseSensitive scope).take limit) result.found

variable {s}

theorem Retains.reaches {source node : Nat} {path : List RetainingStep}
    (retains : Retains s source path node) : Relation.ReflTransGen s.Points source node := by
  induction retains with
  | here node => exact .refl
  | step owns points rest ih => exact ih.head ⟨_, owns, points⟩

theorem reportMatch_reported (nodes : s.layout.storedNodes ≠ 0) (node : Nat) :
    s.Reported node (s.reportMatch (s.walkFrom (firstEdges s.edgeCounts 0)) node {
      count := (s.incoming node).length
      candidates := (s.incoming node).foldl
        (fun kept next => TopK.keep better kHeapSnapshotMaxIncomingReferences next kept) [] }) := by
  have reaches := walkFrom_reaches nodes node
  refine ⟨rfl, rfl, rfl, rfl, reaches, ?_, ?_, ?_, rfl⟩
  · intro complete
    obtain ⟨marked, back⟩ := Bool.and_eq_true_iff.1 complete
    have shortest := (retainingPath_shortest nodes kHeapSnapshotMaxRetainingDepth
      (reaches.1 marked)).1 (beq_iff_eq.1 back)
    dsimp only [reportMatch]
    rwa [if_pos marked]
  · constructor
    · intro complete
      obtain ⟨marked, back⟩ := Bool.and_eq_true_iff.1 complete
      exact (retainingPath_shortest nodes _ (reaches.1 marked)).2.1 (beq_iff_eq.1 back)
    · rintro ⟨other, retains, short⟩
      have reached : s.Reaches node := retains.reaches
      refine Bool.and_eq_true_iff.2 ⟨reaches.2 reached, beq_iff_eq.2 ?_⟩
      exact (retainingPath_shortest nodes _ reached).2.2 ⟨other, retains, short⟩
  · exact congrArg (List.map s.incomingReference) (incomingReferences_eq node)

theorem isMatch_iff (nodes : s.layout.storedNodes ≠ 0) (query : List UInt8) (caseSensitive : Bool)
    (scope : SearchScope) (node : Nat) :
    s.isMatch (searchQuery query caseSensitive) caseSensitive scope
        (s.walkFrom (firstEdges s.edgeCounts 0)) node = true
      ↔ s.InScope node scope ∧ Names query caseSensitive (s.nodeName node) := by
  have reaches := walkFrom_reaches nodes node
  rw [isMatch, Bool.and_eq_true]
  refine and_congr ?_ ?_
  · cases scope with
    | all => exact iff_of_true rfl trivial
    | reachable => exact reaches
    | unreachable =>
        rw [matchesSearchScope, InScope, ← reaches]
        simp
  · cases caseSensitive
    · exact decide_eq_true_iff
    · exact decide_eq_true_iff

theorem filter_isMatch (nodes : s.layout.storedNodes ≠ 0) (query : List UInt8)
    (caseSensitive : Bool) (scope : SearchScope) :
    (List.range s.layout.storedNodes).filter (s.isMatch (searchQuery query caseSensitive)
        caseSensitive scope (s.walkFrom (firstEdges s.edgeCounts 0)))
      = s.wantedNodes query caseSensitive scope := by
  classical
  refine List.filter_congr fun node _ => ?_
  rw [Bool.eq_iff_iff, isMatch_iff nodes, decide_eq_true_iff]

theorem wantedNodes_nodup (query : List UInt8) (caseSensitive : Bool) (scope : SearchScope) :
    (s.wantedNodes query caseSensitive scope).Nodup := List.nodup_range.filter _

theorem report_answered (nodes : s.layout.storedNodes ≠ 0) (query : List UInt8) (caseSensitive : Bool)
    (scope : SearchScope) (limit elapsed : Nat) :
    s.Answered query caseSensitive scope limit
      (s.report (firstEdges s.edgeCounts 0) (s.walkFrom (firstEdges s.edgeCounts 0)) query
        caseSensitive scope limit elapsed) := by
  have wanted := filter_isMatch nodes query caseSensitive scope
  rw [report, matching_eq, wanted]
  refine ⟨walkFrom_count nodes, rfl, ?_⟩
  have nodup := (wantedNodes_nodup query caseSensitive scope).sublist
    (List.take_sublist limit (s.wantedNodes query caseSensitive scope))
  dsimp only
  generalize (s.wantedNodes query caseSensitive scope).take limit = matchNodes at nodup
  have sizes := references_length s (firstEdges s.edgeCounts 0) matchNodes
  rw [List.forall₂_iff_get]
  refine ⟨by rw [List.length_zipWith, sizes, Nat.min_self], ?_⟩
  intro index first second
  have row := @references_getElem? s matchNodes nodup index matchNodes[index]
    (List.getElem?_eq_getElem first)
  obtain ⟨inside, same⟩ := List.getElem?_eq_some_iff.1 row
  rw [List.get_eq_getElem, List.get_eq_getElem, List.getElem_zipWith, same]
  exact reportMatch_reported nodes _

/-- A snapshot without nodes has no matches. -/
theorem report_answered_empty (empty : s.layout.storedNodes = 0) (query : List UInt8)
    (caseSensitive : Bool) (scope : SearchScope) (limit elapsed : Nat) :
    s.Answered query caseSensitive scope limit
      (s.report [] { parents := [], parentEdges := [], pending := [] } query caseSensitive scope limit
        elapsed) := by
  have none : s.wantedNodes query caseSensitive scope = [] := by
    rw [wantedNodes, empty]
    rfl
  rw [report, matching_eq, empty]
  constructor
  · simp [empty]
  · simp [none]
  · rw [none]
    simp

end Loaded

/-- A search that succeeds reports the matches as they are in the snapshot. -/
theorem searchV8HeapSnapshot_exact (document query : List UInt8) (caseSensitive : Bool)
    (scope : SearchScope) (requestedResultLimit elapsed : Nat) (result : SearchResult)
    (found : searchV8HeapSnapshot document query caseSensitive scope requestedResultLimit elapsed
      = .ok result) :
    ∃ s, loadSnapshot .program document = .ok s
      ∧ s.Answered query caseSensitive scope (min requestedResultLimit kHeapSnapshotMaxResults)
          result := by
  rw [searchV8HeapSnapshot] at found
  dsimp only at found
  split at found
  · cases found
  split at found
  · cases found
  next s loaded =>
  refine ⟨s, loaded, ?_⟩
  split at found
  · cases found
  rw [Loaded.indexReferences] at found
  by_cases empty : s.layout.storedNodes = 0
  · rw [if_pos empty] at found
    cases found
    exact Loaded.report_answered_empty empty query caseSensitive scope _ elapsed
  · rw [if_neg empty, Loaded.buildEdgeStarts_eq] at found
    split at found
    · cases found
    split at found
    · cases found
      exact Loaded.report_answered empty query caseSensitive scope _ elapsed
    · cases found

theorem searchV8HeapSnapshot_child :
    ∃ result s, searchV8HeapSnapshot namedChild (text "A") false .reachable 1 0 = .ok result
      ∧ loadSnapshot .program namedChild = .ok s ∧ s.Answered (text "A") false .reachable 1 result := by
  have succeeds : (searchV8HeapSnapshot namedChild (text "A") false .reachable 1 0).isOk = true := by
    decide +kernel
  cases found : searchV8HeapSnapshot namedChild (text "A") false .reachable 1 0 with
  | error failure => simp [found, Except.isOk, Except.toBool] at succeeds
  | ok result =>
      obtain ⟨s, loaded, answered⟩ :=
        searchV8HeapSnapshot_exact namedChild (text "A") false .reachable 1 0 result found
      exact ⟨result, s, rfl, loaded, answered⟩

end Reb.Analysis.Snapshot
