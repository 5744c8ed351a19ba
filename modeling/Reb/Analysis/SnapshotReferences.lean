/-
# Analysis.SnapshotReferences -- the references that a search keeps

A search counts all edges that point at a match (`references_getElem?`) and keeps the first twelve
of them in the order of `better` (`incomingReferences_eq`): no two edges into a node are equally
good.
-/
import Reb.Analysis.SnapshotWalk
import Reb.Theory.TopK

namespace Reb.Analysis.Snapshot

open Reb.Theory

set_option autoImplicit false

namespace Loaded

/-! ## The order -/

theorem better_iff (left right : Candidate) :
    better left right = true ↔ left.priority < right.priority ∨ left.priority = right.priority
      ∧ (left.sourceNodeId < right.sourceNodeId
        ∨ left.sourceNodeId = right.sourceNodeId ∧ left.edge < right.edge) := by
  unfold better
  split_ifs <;> rw [decide_eq_true_iff] <;> omega

theorem better_ranks : TopK.Ranks better where
  asymm {a b} ahead := by
    rw [better_iff] at ahead
    rw [Bool.eq_false_iff, ne_eq, better_iff]
    omega
  trans {a b c} first second := by
    rw [Bool.eq_false_iff, ne_eq, better_iff] at first second ⊢
    omega

theorem keepTop_eq (candidate : Candidate) (references : List Candidate) :
    keepTop candidate references
      = TopK.keep better kHeapSnapshotMaxIncomingReferences candidate references := by
  cases references <;> rfl

variable (s : Loaded)

/-- Every node with every edge of its run, in order. -/
def ownedPairs : List (Nat × Nat) :=
  (List.range s.layout.storedNodes).flatMap fun source =>
    (s.edgeRun (firstEdges s.edgeCounts 0) source).map fun edge => (source, edge)

def pointsAt (node : Nat) (pair : Nat × Nat) : Bool := s.storedTarget pair.2 == some node

/-- All edges that point at a node. -/
def incoming (node : Nat) : List Candidate :=
  (s.ownedPairs.filter (s.pointsAt node)).map fun pair => s.candidate pair.1 pair.2

variable {s}

theorem mem_ownedPairs {pair : Nat × Nat} : pair ∈ s.ownedPairs ↔ s.Owns pair.1 pair.2 := by
  rw [ownedPairs, List.mem_flatMap]
  constructor
  · rintro ⟨source, stored, member⟩
    obtain ⟨edge, run, rfl⟩ := List.mem_map.1 member
    exact mem_edgeRun_owns (List.mem_range.1 stored) run
  · intro owns
    refine ⟨pair.1, List.mem_range.2 owns.node, List.mem_map.2 ⟨pair.2, ?_, rfl⟩⟩
    exact (s.mem_edgeRun owns.node).2 ⟨owns.first, owns.last, owns.stored⟩

/-- An edge is in the run of one node only. -/
theorem Owns.source_eq {edge source other : Nat} (owns : s.Owns source edge)
    (another : s.Owns other edge) : source = other := by
  have grows : Monotone s.firstEdge := fun first second le =>
    List.Sublist.sum_le_sum (List.take_sublist_take_left le) (fun _ _ => Nat.zero_le _)
  have first := owns.first
  have last := owns.last
  have first' := another.first
  have last' := another.last
  by_contra apart
  rcases Nat.lt_or_gt_of_ne apart with before | after
  · have le : s.firstEdge (source + 1) ≤ s.firstEdge other := grows before
    omega
  · have le : s.firstEdge (other + 1) ≤ s.firstEdge source := grows after
    omega

/-- No two edges into a node are equally good. -/
theorem incoming_strict (node : Nat) :
    ∀ a ∈ s.incoming node, ∀ b ∈ s.incoming node,
      better a b = false → better b a = false → a = b := by
  intro a first b second ahead behind
  obtain ⟨pair, inside, rfl⟩ := List.mem_map.1 first
  obtain ⟨pair', inside', rfl⟩ := List.mem_map.1 second
  have owns := mem_ownedPairs.1 (List.mem_filter.1 inside).1
  have owns' := mem_ownedPairs.1 (List.mem_filter.1 inside').1
  rw [Bool.eq_false_iff, ne_eq, better_iff] at ahead behind
  have edges : pair.2 = pair'.2 := by
    simp only [candidate] at ahead behind
    omega
  rw [edges] at owns
  rw [owns.source_eq owns', edges]

/-! ## The table -/

theorem referenceEdge_getElem? {matchNodes : List Nat} (nodup : matchNodes.Nodup) {index node : Nat}
    (here : matchNodes[index]? = some node) {table : List Incoming} {incoming : Incoming}
    (there : table[index]? = some incoming) (source edge : Nat) :
    (s.referenceEdge matchNodes source table edge)[index]?
      = some (if s.pointsAt node (source, edge) then {
          count := incoming.count + 1
          candidates := TopK.keep better kHeapSnapshotMaxIncomingReferences (s.candidate source edge)
            incoming.candidates }
        else incoming) := by
  unfold referenceEdge
  cases points : s.storedTarget edge with
  | none =>
      have away : s.pointsAt node (source, edge) = false := by simp [pointsAt, points]
      simpa [away] using there
  | some target =>
      dsimp only
      cases found : matchNodes.findIdx? (· == target) with
      | none =>
          have away : s.pointsAt node (source, edge) = false := by
            have absent := List.findIdx?_eq_none_iff.1 found node (List.mem_of_getElem? here)
            rw [pointsAt, points, Bool.eq_false_iff]
            intro same
            exact Bool.eq_false_iff.1 absent (beq_iff_eq.2 (Option.some.inj (eq_of_beq same)).symm)
          simpa [away] using there
      | some place =>
          obtain ⟨inside, looked, -⟩ := List.findIdx?_eq_some_iff_getElem.1 found
          have looked : matchNodes[place] = target := by simpa using looked
          rw [List.getElem?_modify, there]
          by_cases same : place = index
          · subst same
            rw [List.getElem?_eq_getElem inside, looked] at here
            have hits : s.pointsAt node (source, edge) = true := by
              rw [pointsAt, points, here]
              exact beq_self_eq_true _
            rw [if_pos hits, ← keepTop_eq]
            exact congrArg some (if_pos rfl)
          · have away : s.pointsAt node (source, edge) = false := by
              have other : target ≠ node := by
                rintro rfl
                obtain ⟨inside', looked'⟩ := List.getElem?_eq_some_iff.1 here
                exact same ((nodup.getElem_inj_iff).1 (looked.trans looked'.symm))
              simpa [pointsAt, points] using other
            simp [same, away]

theorem references_eq (starts matchNodes : List Nat) :
    s.references starts matchNodes
      = ((List.range s.layout.storedNodes).flatMap fun source =>
          (s.edgeRun starts source).map fun edge => (source, edge)).foldl
          (fun table pair => s.referenceEdge matchNodes pair.1 table pair.2)
          (matchNodes.map fun _ => {}) := by
  rw [references, List.foldl_flatMap]
  simp only [List.foldl_map]

/-- A match's row after all edges. -/
theorem references_getElem? {matchNodes : List Nat} (nodup : matchNodes.Nodup) {index node : Nat}
    (here : matchNodes[index]? = some node) :
    (s.references (firstEdges s.edgeCounts 0) matchNodes)[index]? = some {
      count := (s.incoming node).length
      candidates := (s.incoming node).foldl
        (fun kept next => TopK.keep better kHeapSnapshotMaxIncomingReferences next kept) [] } := by
  have run : ∀ (pairs : List (Nat × Nat)) (table : List Incoming) (incoming : Incoming),
      table[index]? = some incoming →
      (pairs.foldl (fun table pair => s.referenceEdge matchNodes pair.1 table pair.2) table)[index]?
        = some {
          count := incoming.count + (pairs.filter (s.pointsAt node)).length
          candidates := ((pairs.filter (s.pointsAt node)).map
            fun pair => s.candidate pair.1 pair.2).foldl
              (fun kept next => TopK.keep better kHeapSnapshotMaxIncomingReferences next kept)
              incoming.candidates } := by
    intro pairs
    induction pairs with
    | nil => exact fun table incoming there => there
    | cons pair pairs ih =>
        intro table incoming there
        rw [List.foldl_cons, ih _ _ (referenceEdge_getElem? nodup here there pair.1 pair.2)]
        by_cases points : s.pointsAt node pair = true
        · rw [if_pos points, List.filter_cons_of_pos points, List.length_cons, List.map_cons,
            List.foldl_cons, Nat.add_assoc, Nat.add_comm 1]
        · rw [if_neg points, List.filter_cons_of_neg points]
  rw [references_eq, ← ownedPairs, run _ _ {} (by rw [List.getElem?_map, here]; rfl), incoming,
    List.length_map, Nat.zero_add]

/-- The references of a match: the first edges into it. -/
theorem incomingReferences_eq (node : Nat) :
    TopK.ranked better ((s.incoming node).foldl
        (fun kept next => TopK.keep better kHeapSnapshotMaxIncomingReferences next kept) [])
      = (TopK.ranked better (s.incoming node)).take kHeapSnapshotMaxIncomingReferences :=
  TopK.sorted_keep better_ranks _ _ (incoming_strict node)

end Loaded

end Reb.Analysis.Snapshot
