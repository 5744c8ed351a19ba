/-
# Analysis.SnapshotLevels -- the walk finds what is reachable, by shortest paths

The walk of a search goes through the nodes in the order of their distance from node 0
(`walkFrom_levels`): it comes to every node that the root reaches, and the edges that it remembers
lead back by a shortest path (`retainingPath_levels`).
-/
import Reb.Analysis.SnapshotWalk
import Reb.Theory.BreadthFirst

namespace Reb.Analysis.Snapshot

open Reb.Theory.BreadthFirst Reb.Theory.Worklist

set_option autoImplicit false

namespace Loaded

variable {s : Loaded}

/-- The walk when `index` nodes have been read, with the distance of every pending node. -/
structure Levels (s : Loaded) (index : Nat) (walk : Walk) (level : Nat → Nat) : Prop where
  sound : WalkSound s walk
  layered : Layered s.Points 0 walk.pending level index
  marked : ∀ node, (walk.parents.getD node none).isSome = true ↔ node ∈ walk.pending
  parent : ∀ node ∈ walk.pending, node ≠ 0 → ∃ edge source,
    walk.parentEdges.getD node none = some edge ∧ walk.parents.getD node none = some source
      ∧ source ∈ walk.pending ∧ level node = level source + 1

theorem walkStart_levels (nodes : s.layout.storedNodes ≠ 0) :
    Levels s 0 s.walkStart (fun _ => 0) where
  sound := walkStart_sound nodes
  layered := layered_root 0
  marked node := by
    by_cases root : 0 = node
    · subst root
      rw [walkStart, getD_set_self (by simpa using Nat.pos_of_ne_zero nodes)]
      simp
    · rw [walkStart, getD_set_ne root, getD_replicate_none]
      simpa using Ne.symm root
  parent node member away := absurd (by simpa [walkStart] using member) away

theorem walkEdge_levels {index : Nat} {walk : Walk} {level : Nat → Nat}
    (levels : Levels s index walk level) {source edge : Nat}
    (here : walk.pending[index]? = some source) (owns : s.Owns source edge) :
    (∃ level, Levels s index (s.walkEdge source walk edge) level)
      ∧ walk.pending <+: (s.walkEdge source walk edge).pending
      ∧ ∀ target, s.edgeTarget edge = some target →
          target ∈ (s.walkEdge source walk edge).pending := by
  have known : source ∈ walk.pending := List.mem_of_getElem? here
  have sound := walkEdge_sound levels.sound (levels.sound.pending source known).2 owns
  cases points : s.edgeTarget edge with
  | none =>
      have same : s.walkEdge source walk edge = walk := by rw [walkEdge, points]
      rw [same]
      exact ⟨⟨level, levels⟩, List.prefix_refl _, fun target found => by cases found⟩
  | some target =>
      by_cases seen : (walk.parents.getD target none).isSome = true
      · have same : s.walkEdge source walk edge = walk := by
          rw [walkEdge, points]
          exact if_pos seen
        rw [same]
        refine ⟨⟨level, levels⟩, List.prefix_refl _, ?_⟩
        intro other found
        cases found
        exact (levels.marked target).1 seen
      · have walked : s.walkEdge source walk edge = {
            parents := walk.parents.set target (some source)
            parentEdges := walk.parentEdges.set target (some edge)
            pending := walk.pending ++ [target] } := by
          rw [walkEdge, points]
          exact if_neg seen
        rw [walked] at sound ⊢
        have new : target ∉ walk.pending := fun member => seen ((levels.marked target).2 member)
        have stored := storedTarget_lt (edgeTarget_some points).2.2.1
        have inside : target < walk.parents.length := by rwa [levels.sound.parents]
        have inside' : target < walk.parentEdges.length := by rwa [levels.sound.parentEdges]
        have layered := levels.layered.discover here new ⟨edge, owns, points⟩
        have apart : ∀ node ∈ walk.pending, target ≠ node := by
          rintro node member rfl
          exact new member
        refine ⟨⟨_, sound, layered, ?_, ?_⟩, List.prefix_append _ _, ?_⟩
        · intro node
          by_cases same : target = node
          · subst same
            rw [getD_set_self inside]
            simp
          · rw [getD_set_ne same, levels.marked node]
            simp [Ne.symm same]
        · intro node member away
          rcases List.mem_append.1 member with before | last
          · obtain ⟨first, parent, kept, found, pending, next⟩ := levels.parent node before away
            refine ⟨first, parent, ?_, ?_, List.mem_append_left _ pending, ?_⟩
            · rwa [getD_set_ne (apart node before)]
            · rwa [getD_set_ne (apart node before)]
            · rw [Function.update_of_ne (Ne.symm (apart node before)),
                Function.update_of_ne (Ne.symm (apart parent pending)), next]
          · obtain rfl : node = target := List.mem_singleton.1 last
            refine ⟨edge, source, getD_set_self inside', getD_set_self inside,
              List.mem_append_left _ known, ?_⟩
            rw [Function.update_self, Function.update_of_ne (Ne.symm (apart source known))]
        · intro other found
          cases found
          exact List.mem_append_right _ (List.mem_singleton_self target)

/-- All edges of a node. -/
theorem walkEdges_levels {index source : Nat} (edges : List Nat)
    (owns : ∀ edge ∈ edges, s.Owns source edge) {walk : Walk} {level : Nat → Nat}
    (levels : Levels s index walk level) (here : walk.pending[index]? = some source) :
    (∃ level, Levels s index (edges.foldl (s.walkEdge source) walk) level)
      ∧ (edges.foldl (s.walkEdge source) walk).pending[index]? = some source
      ∧ walk.pending <+: (edges.foldl (s.walkEdge source) walk).pending
      ∧ ∀ edge ∈ edges, ∀ target, s.edgeTarget edge = some target →
          target ∈ (edges.foldl (s.walkEdge source) walk).pending := by
  induction edges generalizing walk level with
  | nil => exact ⟨⟨level, levels⟩, here, List.prefix_refl _, by simp⟩
  | cons edge edges ih =>
      rw [List.forall_mem_cons] at owns
      obtain ⟨⟨level', levels'⟩, grown, found⟩ := walkEdge_levels levels here owns.1
      have here' : (s.walkEdge source walk edge).pending[index]? = some source := by
        obtain ⟨more, same⟩ := grown
        rw [← same, List.getElem?_append_left (List.getElem?_eq_some_iff.1 here).1, here]
      obtain ⟨last, still, longer, others⟩ := ih owns.2 levels' here'
      refine ⟨last, still, grown.trans longer, ?_⟩
      rw [List.forall_mem_cons]
      exact ⟨fun target points => longer.subset (found target points), others⟩

theorem walkNode_levels {index : Nat} {walk : Walk} {level : Nat → Nat}
    (levels : Levels s index walk level) {source : Nat} (here : walk.pending[index]? = some source) :
    ∃ level, Levels s (index + 1) (s.walkNode (firstEdges s.edgeCounts 0) walk source) level := by
  have stored := (levels.sound.pending source (List.mem_of_getElem? here)).1
  obtain ⟨⟨level', levels'⟩, still, -, found⟩ := walkEdges_levels
    (s.edgeRun (firstEdges s.edgeCounts 0) source)
    (fun edge member => mem_edgeRun_owns stored member) levels here
  refine ⟨level', levels'.sound, levels'.layered.advance still ?_, levels'.marked, levels'.parent⟩
  rintro next ⟨edge, owns, points⟩
  exact found edge ((s.mem_edgeRun stored).2 ⟨owns.first, owns.last, owns.stored⟩) next points

/-- The whole walk: every pending node has been read. -/
theorem walkFrom_levels (nodes : s.layout.storedNodes ≠ 0) :
    ∃ done level, Levels s done (s.walkFrom (firstEdges s.edgeCounts 0)) level
      ∧ (s.walkFrom (firstEdges s.edgeCounts 0)).pending.length ≤ done := by
  obtain ⟨done, ⟨level, levels⟩, read⟩ := @drain_settles _ _ Walk.pending
    (s.walkNode (firstEdges s.edgeCounts 0)) (fun index walk => ∃ level, Levels s index walk level)
    s.layout.storedNodes
    (fun index walk source holds here => by
      obtain ⟨level, levels⟩ := holds
      exact walkNode_levels levels here)
    (fun index walk holds => by
      obtain ⟨level, levels⟩ := holds
      have bounded : ∀ node ∈ walk.pending, node < s.layout.storedNodes :=
        fun node member => (levels.sound.pending node member).1
      calc walk.pending.length
          = walk.pending.toFinset.card := (List.toFinset_card_of_nodup levels.layered.nodup).symm
        _ ≤ (Finset.range s.layout.storedNodes).card := by
            refine Finset.card_le_card fun node member => ?_
            exact Finset.mem_range.2 (bounded node (List.mem_toFinset.1 member))
        _ = s.layout.storedNodes := Finset.card_range _)
    s.layout.storedNodes 0 s.walkStart ⟨_, walkStart_levels nodes⟩ (Nat.le_add_left _ 0)
  exact ⟨done, level, levels, read⟩

theorem walkFrom_reaches (nodes : s.layout.storedNodes ≠ 0) (node : Nat) :
    ((s.walkFrom (firstEdges s.edgeCounts 0)).parents.getD node none).isSome = true
      ↔ s.Reaches node := by
  obtain ⟨done, level, levels, read⟩ := walkFrom_levels nodes
  rw [levels.marked node]
  exact levels.layered.mem_iff_reaches read node

/-- Every node that is reached is counted once. -/
theorem walkFrom_count (nodes : s.layout.storedNodes ≠ 0) :
    (s.walkFrom (firstEdges s.edgeCounts 0)).pending.length
      = Set.ncard {node | node < s.layout.storedNodes ∧ s.Reaches node} := by
  obtain ⟨done, level, levels, read⟩ := walkFrom_levels nodes
  have same : {node | node < s.layout.storedNodes ∧ s.Reaches node}
      = ↑(s.walkFrom (firstEdges s.edgeCounts 0)).pending.toFinset := by
    ext node
    simp only [Set.mem_ofPred_eq, List.coe_toFinset]
    constructor
    · exact fun reached => (levels.layered.mem_iff_reaches read node).2 reached.2
    · exact levels.sound.pending node
  rw [same, Set.ncard_coe_finset, List.toFinset_card_of_nodup levels.layered.nodup]

/-! ## Retaining paths -/

theorem Retains.steps {source node : Nat} {path : List RetainingStep}
    (retains : Retains s source path node) : ∀ {count first : Nat}, Steps s.Points count first source →
      Steps s.Points (count + path.length) first node := by
  induction retains with
  | here node => exact fun before => before
  | step owns points rest ih =>
      intro count first before
      have longer := ih (before.step ⟨_, owns, points⟩)
      rwa [Nat.add_assoc, Nat.add_comm 1] at longer

/-- The loop goes back as many edges as the node is away, if there is room for them. -/
theorem retainingPath_levels {done : Nat} {walk : Walk} {level : Nat → Nat}
    (levels : Levels s done walk level) :
    ∀ (room current : Nat) (path : List RetainingStep), current ∈ walk.pending →
      ((s.retainingPath walk room current path).1 = 0 ↔ level current ≤ room)
        ∧ (level current ≤ room →
          (s.retainingPath walk room current path).2.length = level current + path.length) := by
  intro room
  induction room with
  | zero =>
      intro current path member
      rw [retainingPath]
      by_cases root : current = 0
      · subst root
        rw [levels.layered.root_level]
        simp
      · obtain ⟨edge, source, -, -, -, next⟩ := levels.parent current member root
        exact ⟨iff_of_false root (by omega), fun short => by omega⟩
  | succ room ih =>
      intro current path member
      rw [retainingPath]
      by_cases root : current = 0
      · subst root
        rw [if_pos rfl, levels.layered.root_level]
        simp
      · obtain ⟨edge, source, kept, parent, pending, next⟩ := levels.parent current member root
        obtain ⟨-, -, -, points⟩ := levels.sound.edges current edge kept
        have stored := (edgeTarget_some points).1
        obtain ⟨ends, length⟩ := ih source (s.retainingStep current edge :: path) pending
        rw [if_neg root, kept]
        dsimp only
        rw [if_neg (Nat.not_le.2 stored), parent, Option.getD_some, ends, next]
        refine ⟨by omega, fun short => ?_⟩
        rw [length (by omega), List.length_cons]
        omega

/-- A retaining path is complete when the node is near enough, and then no path is shorter. -/
theorem retainingPath_shortest (nodes : s.layout.storedNodes ≠ 0) {node : Nat} (room : Nat)
    (reached : s.Reaches node) :
    let walked := s.retainingPath (s.walkFrom (firstEdges s.edgeCounts 0)) room node []
    (walked.1 = 0 → Retains s 0 walked.2 node
        ∧ ∀ other, Retains s 0 other node → walked.2.length ≤ other.length)
      ∧ (walked.1 = 0 ↔ ∃ other, Retains s 0 other node ∧ other.length ≤ room) := by
  intro walked
  obtain ⟨done, level, levels, read⟩ := walkFrom_levels nodes
  have member := (levels.layered.mem_iff_reaches read node).2 reached
  obtain ⟨ends, length⟩ := retainingPath_levels levels room node [] member
  have retains := retainingPath_retains levels.sound node room node [] (.here node)
  have least : ∀ other, Retains s 0 other node → level node ≤ other.length := by
    intro other path
    have steps := path.steps (.here 0)
    rw [Nat.zero_add] at steps
    exact (levels.layered.settled read steps).2
  have complete : walked.1 = 0 → Retains s 0 walked.2 node ∧ walked.2.length = level node := by
    intro back
    refine ⟨?_, length (ends.1 back)⟩
    rw [← back]
    exact retains
  constructor
  · intro back
    obtain ⟨path, size⟩ := complete back
    exact ⟨path, fun other another => size.trans_le (least other another)⟩
  · constructor
    · intro back
      obtain ⟨path, size⟩ := complete back
      exact ⟨_, path, size.trans_le (ends.1 back)⟩
    · rintro ⟨other, path, short⟩
      exact ends.2 ((least other path).trans short)

end Loaded

end Reb.Analysis.Snapshot
