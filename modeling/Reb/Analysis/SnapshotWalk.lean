/-
# Analysis.SnapshotWalk -- what a search reports is in the snapshot

Both checks of the edge counts add those of the stored nodes; they differ in where the sum
overflows (`buildEdgeStarts_eq`, `validateEdgeCounts_eq`).  The run of a node begins
where the ones before it end (`edgeRun_eq`).

The walk comes only to nodes that the root reaches, and remembers for each an edge
that points at it (`walkFrom_sound`).  So a retaining path follows edges of the
snapshot to the match (`retainingPath_retains`), and every reference that is kept is
an edge that points there (`references_sound`).
-/
import Reb.Analysis.Snapshot
import Reb.Analysis.SnapshotSearch

namespace Reb.Analysis.Snapshot

set_option autoImplicit false

namespace Loaded

/-- Where each of some runs begins. -/
def firstEdges : List Nat → Nat → List Nat
  | [], _ => []
  | count :: counts, cursor => cursor :: firstEdges counts (cursor + count)

@[simp] theorem firstEdges_length : ∀ (counts : List Nat) (cursor : Nat),
    (firstEdges counts cursor).length = counts.length
  | [], _ => rfl
  | count :: counts, cursor => by simp [firstEdges, firstEdges_length counts]

theorem firstEdges_getD : ∀ (counts : List Nat) (cursor index : Nat), index < counts.length →
    (firstEdges counts cursor).getD index 0 = cursor + (counts.take index).sum
  | count :: counts, cursor, 0, _ => by simp [firstEdges]
  | count :: counts, cursor, index + 1, inside => by
      have next := firstEdges_getD counts (cursor + count) index (by simpa using inside)
      rw [firstEdges, List.getD_cons_succ, next, List.take_succ_cons, List.sum_cons]
      omega

theorem edgeStarts_eq : ∀ (counts starts : List Nat) (cursor : Nat), cursor ≤ maxGraphIndex →
    edgeStarts counts starts cursor
      = if cursor + counts.sum ≤ maxGraphIndex then
          .ok (starts ++ firstEdges counts cursor, cursor + counts.sum)
        else .error .edgeOverflow
  | [], starts, cursor, within => by simp [edgeStarts, firstEdges, within]
  | count :: counts, starts, cursor, within => by
      rw [edgeStarts, List.sum_cons]
      split_ifs with excess fits fits
      · omega
      · rfl
      · rw [edgeStarts_eq counts _ _ (by omega), if_pos (by omega), firstEdges]
        simp [Nat.add_assoc]
      · rw [edgeStarts_eq counts _ _ (by omega), if_neg (by omega)]

theorem countEdges_eq : ∀ (counts : List Nat) (cursor : Nat), cursor ≤ 2 ^ 64 - 1 →
    countEdges counts cursor
      = if cursor + counts.sum ≤ 2 ^ 64 - 1 then .ok (cursor + counts.sum) else .error .edgeOverflow
  | [], cursor, within => by rw [countEdges, List.sum_nil, Nat.add_zero, if_pos within]
  | count :: counts, cursor, within => by
      rw [countEdges, List.sum_cons]
      split_ifs with excess fits fits
      · omega
      · rfl
      · rw [countEdges_eq counts _ (by omega), if_pos (by omega), Nat.add_assoc]
      · rw [countEdges_eq counts _ (by omega), if_neg (by omega)]

variable (s : Loaded)

/-- The edges that the stored nodes own. -/
def ownedEdges : Nat := s.edgeCounts.sum

/-- The edges are those that the nodes own, unless edges were left out. -/
def Balanced : Prop := s.data.edgeValuesTruncated = true ∨ s.ownedEdges = s.layout.storedEdges

instance : Decidable s.Balanced := inferInstanceAs (Decidable (_ ∨ _))

private theorem unbalanced_iff : (!s.data.edgeValuesTruncated ∧ s.ownedEdges ≠ s.layout.storedEdges)
    ↔ ¬ s.Balanced := by
  rw [Balanced, not_or, Bool.not_eq_true, Bool.not_eq_true']

theorem buildEdgeStarts_eq :
    s.buildEdgeStarts
      = if s.ownedEdges > maxGraphIndex then .error .edgeOverflow
        else if s.Balanced then .ok (firstEdges s.edgeCounts 0) else .error .edgeMismatch := by
  have unbalanced := s.unbalanced_iff
  unfold ownedEdges at *
  rw [buildEdgeStarts, edgeStarts_eq _ _ _ (Nat.zero_le _), Nat.zero_add]
  by_cases fits : s.edgeCounts.sum ≤ maxGraphIndex
  · rw [if_pos fits, if_neg (Nat.not_lt.2 fits)]
    by_cases balanced : s.Balanced
    · rw [if_pos balanced]
      exact if_neg fun wrong => unbalanced.1 wrong balanced
    · rw [if_neg balanced]
      exact if_pos (unbalanced.2 balanced)
  · rw [if_neg fits, if_pos (Nat.not_le.1 fits)]

theorem validateEdgeCounts_eq :
    s.validateEdgeCounts
      = if s.ownedEdges > 2 ^ 64 - 1 then .error .edgeOverflow
        else if s.Balanced then .ok () else .error .edgeMismatch := by
  have unbalanced := s.unbalanced_iff
  unfold ownedEdges at *
  rw [validateEdgeCounts, countEdges_eq _ _ (Nat.zero_le _), Nat.zero_add]
  by_cases fits : s.edgeCounts.sum ≤ 2 ^ 64 - 1
  · rw [if_pos fits, if_neg (Nat.not_lt.2 fits)]
    by_cases balanced : s.Balanced
    · rw [if_pos balanced]
      exact if_neg fun wrong => unbalanced.1 wrong balanced
    · rw [if_neg balanced]
      exact if_pos (unbalanced.2 balanced)
  · rw [if_neg fits, if_pos (Nat.not_le.1 fits)]

/-- The number of the first edge of a node. -/
def firstEdge (ordinal : Nat) : Nat := (s.edgeCounts.take ordinal).sum

theorem edgeCounts_length : s.edgeCounts.length = s.layout.storedNodes := by
  simp [edgeCounts]

theorem firstEdge_succ {ordinal : Nat} (stored : ordinal < s.layout.storedNodes) :
    s.firstEdge (ordinal + 1) = s.firstEdge ordinal + s.edgeCount ordinal := by
  have inside : ordinal < s.edgeCounts.length := by rwa [edgeCounts_length]
  rw [firstEdge, List.sum_take_succ _ _ inside]
  simp [firstEdge, edgeCounts]

theorem mem_edgeRun {ordinal edge : Nat} (stored : ordinal < s.layout.storedNodes) :
    edge ∈ s.edgeRun (firstEdges s.edgeCounts 0) ordinal
      ↔ s.firstEdge ordinal ≤ edge ∧ edge < s.firstEdge (ordinal + 1) ∧ edge < s.layout.storedEdges := by
  have inside : ordinal < s.edgeCounts.length := by rwa [edgeCounts_length]
  rw [edgeRun, firstEdges_getD _ _ _ inside, Nat.zero_add, firstEdge_succ s stored, List.mem_range'_1,
    firstEdge]
  omega

end Loaded

end Reb.Analysis.Snapshot

namespace Reb.Analysis.Snapshot

open Reb.Theory.Worklist

/-! # The walk -/

section Lists

universe u

variable {α : Type u} {list : List α} {index other : Nat} {value default : α}

theorem getD_set_self (inside : index < list.length) : (list.set index value).getD index default = value := by
  simp [List.getD_eq_getElem?_getD, inside]

theorem getD_set_ne (apart : index ≠ other) :
    (list.set index value).getD other default = list.getD other default := by
  simp [List.getD_eq_getElem?_getD, apart]

end Lists

namespace Loaded

variable (s : Loaded)

/-- A stored edge in the run of a stored node. -/
structure Owns (source edge : Nat) : Prop where
  node : source < s.layout.storedNodes
  first : s.firstEdge source ≤ edge
  last : edge < s.firstEdge (source + 1)
  stored : edge < s.layout.storedEdges

/-- An edge that is followed, from one node to another. -/
def Points (source target : Nat) : Prop := ∃ edge, s.Owns source edge ∧ s.edgeTarget edge = some target

/-- The root reaches a node. -/
def Reaches (node : Nat) : Prop := Relation.ReflTransGen s.Points 0 node

variable {s}

theorem mem_edgeRun_owns {source edge : Nat} (stored : source < s.layout.storedNodes)
    (member : edge ∈ s.edgeRun (firstEdges s.edgeCounts 0) source) : s.Owns source edge := by
  obtain ⟨first, last, inside⟩ := (s.mem_edgeRun stored).1 member
  exact ⟨stored, first, last, inside⟩

theorem edgeTarget_some {edge target : Nat} (points : s.edgeTarget edge = some target) :
    edge < s.layout.storedEdges ∧ s.isWeakEdge edge = false ∧ s.storedTarget edge = some target
      ∧ target < maxGraphIndex := by
  unfold edgeTarget at points
  split_ifs at points with past weak
  obtain ⟨found, small⟩ := Option.filter_eq_some_iff.1 points
  exact ⟨Nat.lt_of_not_le past, Bool.eq_false_iff.2 weak, found, by simpa using small⟩

theorem storedTarget_lt {edge target : Nat} (points : s.storedTarget edge = some target) :
    target < s.layout.storedNodes := by
  unfold storedTarget at points
  simp only at points
  split_ifs at points
  cases points
  omega

/-! ## The walk -/

/-- What the walk remembers is true of the snapshot. -/
structure WalkSound (s : Loaded) (walk : Walk) : Prop where
  parents : walk.parents.length = s.layout.storedNodes
  parentEdges : walk.parentEdges.length = s.layout.storedNodes
  pending : ∀ node ∈ walk.pending, node < s.layout.storedNodes ∧ s.Reaches node
  reached : ∀ node, (walk.parents.getD node none).isSome = true → s.Reaches node
  edges : ∀ node edge, walk.parentEdges.getD node none = some edge →
    ∃ source, walk.parents.getD node none = some source ∧ s.Owns source edge
      ∧ s.edgeTarget edge = some node

theorem getD_replicate_none (length node : Nat) :
    (List.replicate length (none : Option Nat)).getD node none = none := by
  rw [List.getD_eq_getElem?_getD, List.getElem?_replicate]
  split_ifs <;> rfl

theorem walkStart_sound (nodes : s.layout.storedNodes ≠ 0) : WalkSound s s.walkStart where
  parents := by simp [walkStart]
  parentEdges := by simp [walkStart]
  pending node member := by
    obtain rfl : node = 0 := by simpa [walkStart] using member
    exact ⟨Nat.pos_of_ne_zero nodes, .refl⟩
  reached node marked := by
    by_cases root : 0 = node
    · rw [← root]
      exact .refl
    · rw [walkStart, getD_set_ne root, getD_replicate_none] at marked
      cases marked
  edges node edge kept := by
    rw [walkStart, getD_replicate_none] at kept
    cases kept

theorem walkEdge_sound {walk : Walk} (sound : WalkSound s walk) {source edge : Nat}
    (comes : s.Reaches source) (owns : s.Owns source edge) : WalkSound s (s.walkEdge source walk edge) := by
  unfold walkEdge
  cases points : s.edgeTarget edge with
  | none => exact sound
  | some target =>
      simp only
      split_ifs with seen
      · exact sound
      · have stored := storedTarget_lt (edgeTarget_some points).2.2.1
        have reaches : s.Reaches target := comes.tail ⟨edge, owns, points⟩
        have inside : target < walk.parents.length := by rwa [sound.parents]
        have inside' : target < walk.parentEdges.length := by rwa [sound.parentEdges]
        exact {
          parents := by rw [List.length_set, sound.parents]
          parentEdges := by rw [List.length_set, sound.parentEdges]
          pending := fun node member => by
            obtain before | here := List.mem_append.1 member
            · exact sound.pending node before
            · obtain rfl : node = target := by simpa using here
              exact ⟨stored, reaches⟩
          reached := fun node marked => by
            by_cases here : target = node
            · rw [← here]
              exact reaches
            · rw [getD_set_ne here] at marked
              exact sound.reached node marked
          edges := fun node other kept => by
            by_cases here : target = node
            · subst here
              rw [getD_set_self inside'] at kept
              cases kept
              exact ⟨source, getD_set_self inside, owns, points⟩
            · rw [getD_set_ne here] at kept
              obtain ⟨parent, before⟩ := sound.edges node other kept
              exact ⟨parent, by rwa [getD_set_ne here]⟩ }

/-- A chain of followed edges between two nodes, shown step by step. -/
inductive Retains (s : Loaded) : Nat → List RetainingStep → Nat → Prop where
  | here (node : Nat) : Retains s node [] node
  | step {source edge next node : Nat} {path : List RetainingStep} (owns : s.Owns source edge)
      (points : s.edgeTarget edge = some next) (rest : Retains s next path node) :
      Retains s source (s.retainingStep next edge :: path) node

theorem retainingPath_retains {walk : Walk} (sound : WalkSound s walk) (node : Nat) :
    ∀ (room current : Nat) (path : List RetainingStep), Retains s current path node →
      Retains s (s.retainingPath walk room current path).1 (s.retainingPath walk room current path).2 node
  | 0, _, _, retains => retains
  | room + 1, current, path, retains => by
      rw [retainingPath]
      split_ifs with root
      · exact retains
      · cases kept : walk.parentEdges.getD current none with
        | none => exact retains
        | some edge =>
            simp only
            split_ifs
            · exact retains
            · obtain ⟨source, parent, owns, points⟩ := sound.edges current edge kept
              rw [parent]
              exact retainingPath_retains sound node room source _ (.step owns points retains)

/-! ## Incoming references -/

end Loaded

end Reb.Analysis.Snapshot
