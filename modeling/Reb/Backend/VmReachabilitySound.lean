/-
# Backend.VmReachabilitySound -- a complete walk is the reachable code

One visit keeps what the walk knows (`Walked.visit`): listed instructions are decoded
where they stand, apart from one another and reachable, and whatever they flow to is
visited or pending.  While the frontier is empty every visited position is listed, so a
walk that ends with an empty frontier lists the least set that holds the entry and is
closed under the declared flow.
-/
import Reb.Backend.VmReachability

namespace Reb.Backend.VmReachability

open Reb.Theory
open Reb.Theory.Serde

set_option autoImplicit false

/-! ## The frontier only grows -/

theorem frontier_ne_nil (rows : List FrontierRow) (artifact : Value) (offset : Option Nat)
    (reason : String) : frontier rows artifact offset reason ≠ [] := by
  rw [frontier]
  split_ifs with known room limited
  · rintro rfl
    simp at known
  · simp
  · simp
  · rintro rfl
    simp [maxFrontier] at room

section Follow

variable (snapshot : Value) (position : Nat)

/-- What following destinations leaves alone and adds. -/
structure Followed (out : List (String × Option Nat)) (state later : WalkState) : Prop where
  instructions : later.instructions = state.instructions
  visited : later.visited = state.visited
  occupied : later.occupied = state.occupied
  edges : later.edges = state.edges
    ++ out.map fun edge => ⟨snapshot.get "artifact_id", position, edge.2, edge.1⟩
  pending : ∀ d, d ∈ later.pending
    ↔ d ∈ state.pending ∨ (d ∉ state.visited ∧ ∃ edge ∈ out, edge.2 = some d)
  stops : later.stops = [] → state.stops = [] ∧ ∀ edge ∈ out, edge.2 ≠ none

theorem mem_insertPending {offset d : Nat} {pending : List Nat} :
    d ∈ insertPending offset pending ↔ d = offset ∨ d ∈ pending := by
  rw [insertPending]
  split_ifs with known
  · constructor
    · exact .inr
    · rintro (rfl | member)
      · exact known
      · exact member
  · rw [List.mem_orderedInsert]

theorem follow_followed (state : WalkState) (edge : String × Option Nat) :
    Followed snapshot position [edge] state (follow snapshot position state edge) := by
  rw [follow]
  obtain ⟨kind, destination⟩ := edge
  cases destination with
  | none =>
      refine ⟨rfl, rfl, rfl, rfl, fun d => by simp [WalkState.frontier], fun none => ?_⟩
      exact absurd none (frontier_ne_nil _ _ _ _)
  | some destination =>
      dsimp only
      split_ifs with known
      · refine ⟨rfl, rfl, rfl, rfl, fun d => ?_, fun none => ⟨none, by simp⟩⟩
        constructor
        · exact .inl
        · rintro (member | ⟨fresh, edge, only, same⟩)
          · exact member
          · rw [List.mem_singleton.1 only] at same
            cases same
            exact absurd known fresh
      · refine ⟨rfl, rfl, rfl, rfl, fun d => ?_, fun none => ⟨none, by simp⟩⟩
        rw [mem_insertPending]
        constructor
        · rintro (rfl | member)
          · exact .inr ⟨known, _, List.mem_singleton_self _, rfl⟩
          · exact .inl member
        · rintro (member | ⟨-, edge, only, same⟩)
          · exact .inr member
          · rw [List.mem_singleton.1 only] at same
            cases same
            exact .inl rfl

theorem foldl_followed (out : List (String × Option Nat)) (state : WalkState) :
    Followed snapshot position out state (out.foldl (follow snapshot position) state) := by
  induction out generalizing state with
  | nil => exact ⟨rfl, rfl, rfl, (List.append_nil _).symm, by simp, fun none => ⟨none, by simp⟩⟩
  | cons edge out ih =>
      have first := follow_followed snapshot position state edge
      have others := ih (follow snapshot position state edge)
      refine ⟨others.instructions.trans first.instructions, others.visited.trans first.visited,
        others.occupied.trans first.occupied, ?_, fun d => ?_, fun none => ?_⟩
      · rw [List.foldl_cons, others.edges, first.edges, List.append_assoc]
        rfl
      · rw [List.foldl_cons, others.pending, first.pending, first.visited]
        simp only [List.mem_cons, List.not_mem_nil, or_false, exists_eq_left, exists_eq_or_imp]
        tauto
      · obtain ⟨before, proper⟩ := others.stops none
        obtain ⟨start, here⟩ := first.stops before
        refine ⟨start, ?_⟩
        rw [List.forall_mem_cons]
        exact ⟨here edge (List.mem_singleton_self _), proper⟩

end Follow

/-! ## One snapshot -/

section Snapshot

variable (handlers : List Value) (snapshot : Value) (bytes : List UInt8) (entry : Nat)

/-- The flow declared at an offset: an instruction there, and one of its destinations. -/
def Flows (offset destination : Nat) : Prop :=
  ∃ opcode effect size kind, instructionAt handlers bytes offset = some (opcode, effect, size)
    ∧ (kind, some destination) ∈ destinations effect bytes offset (offset + size)

/-- Reached from the entry along the declared flow. -/
def Reached (offset : Nat) : Prop :=
  Relation.ReflTransGen (Flows handlers bytes) entry offset

def Apart (a b : Instruction) : Prop :=
  a.byteOffset + a.byteSize ≤ b.byteOffset ∨ b.byteOffset + b.byteSize ≤ a.byteOffset

/-- A listed instruction is decoded where it stands. -/
def Decoded (row : Instruction) : Prop :=
  ∃ effect, instructionAt handlers bytes row.byteOffset = some (row.opcode, effect, row.byteSize)
    ∧ row.effectId = effect.get "effect_id" ∧ row.artifactId = snapshot.get "artifact_id"

/-- What a walk knows about the instructions and edges it has listed, by the positions it
knows of. -/
structure Sound (known : Nat → Prop) (listed : List Instruction) (drawn : List Edge) : Prop where
  decoded : ∀ row ∈ listed, Decoded handlers snapshot bytes row
  reached : ∀ row ∈ listed, Reached handlers bytes entry row.byteOffset
  apart : listed.Pairwise Apart
  closed : ∀ row ∈ listed, ∀ d, Flows handlers bytes row.byteOffset d → known d
  named : ∀ edge ∈ drawn, edge.artifactId = snapshot.get "artifact_id"
  targets : ∀ edge ∈ drawn, ∀ d, edge.toOffset = some d → known d

/-- The state of a walk that started with other snapshots' rows and frontier. -/
structure Walked (start : Progress) (listed : List Instruction) (drawn : List Edge)
    (state : WalkState) : Prop where
  instructions : state.instructions = start.instructions ++ listed
  edges : state.edges = start.edges ++ drawn
  sound : Sound handlers snapshot bytes entry
    (fun d => d ∈ state.visited ∨ d ∈ state.pending) listed drawn
  entered : entry ∈ state.visited ∨ entry ∈ state.pending
  known : ∀ d, d ∈ state.visited ∨ d ∈ state.pending → Reached handlers bytes entry d
  occupied : ∀ row ∈ listed, ∀ byte, row.byteOffset ≤ byte → byte < row.byteOffset + row.byteSize →
    byte ∈ state.occupied
  began : state.stops = [] → start.stops = []
  followed : state.stops = [] → ∀ edge ∈ drawn, edge.toOffset ≠ none
  visited : state.stops = [] → ∀ d ∈ state.visited, ∃ row ∈ listed, row.byteOffset = d

variable {handlers snapshot bytes entry}

theorem Sound.mono {known known' : Nat → Prop} {listed : List Instruction} {drawn : List Edge}
    (sound : Sound handlers snapshot bytes entry known listed drawn)
    (more : ∀ d, known d → known' d) :
    Sound handlers snapshot bytes entry known' listed drawn where
  decoded := sound.decoded
  reached := sound.reached
  apart := sound.apart
  closed row member d flows := more d (sound.closed row member d flows)
  named := sound.named
  targets edge member d goes := more d (sound.targets edge member d goes)

namespace Walked

variable {start : Progress} {listed : List Instruction} {drawn : List Edge} {state : WalkState}
  {position : Nat} {pending : List Nat}

/-- A position that was visited before is dropped. -/
theorem skip (walked : Walked handlers snapshot bytes entry start listed drawn state)
    (next : state.pending = position :: pending) (again : position ∈ state.visited) :
    Walked handlers snapshot bytes entry start listed drawn
      { state with pending } := by
  have same : ∀ d, d ∈ state.visited ∨ d ∈ state.pending → d ∈ state.visited ∨ d ∈ pending := by
    rintro d (visited | member)
    · exact .inl visited
    · rw [next, List.mem_cons] at member
      rcases member with rfl | later
      · exact .inl again
      · exact .inr later
  refine ⟨walked.instructions, walked.edges, walked.sound.mono same, same entry walked.entered,
    fun d known => ?_, walked.occupied, walked.began, walked.followed, walked.visited⟩
  refine walked.known d (known.imp_right fun member => ?_)
  rw [next]
  exact List.mem_cons_of_mem _ member

/-- The positions known of do not change when one of them is visited. -/
theorem taken (next : state.pending = position :: pending) (d : Nat) :
    (d ∈ position :: state.visited ∨ d ∈ pending) ↔ (d ∈ state.visited ∨ d ∈ state.pending) := by
  rw [next, List.mem_cons, List.mem_cons]
  tauto

/-- A position the walk stops at leaves a frontier row. -/
theorem stop (walked : Walked handlers snapshot bytes entry start listed drawn state)
    (next : state.pending = position :: pending) (artifact : Value) (offset : Option Nat)
    (reason : String) :
    Walked handlers snapshot bytes entry start listed drawn
      (WalkState.frontier { state with pending, visited := position :: state.visited } artifact
        offset reason) := by
  have same := @taken state position pending next
  refine ⟨walked.instructions, walked.edges, walked.sound.mono fun d => (same d).2,
    (same entry).2 walked.entered, fun d known => walked.known d ((same d).1 known),
    walked.occupied, fun none => ?_, fun none => ?_, fun none => ?_⟩
  · exact absurd none (frontier_ne_nil _ _ _ _)
  · exact absurd none (frontier_ne_nil _ _ _ _)
  · exact absurd none (frontier_ne_nil _ _ _ _)

/-- An instruction is listed and its flow followed. -/
theorem lists (walked : Walked handlers snapshot bytes entry start listed drawn state)
    (next : state.pending = position :: pending) {opcode : UInt8} {effect : Value} {size : Nat}
    (decoded : instructionAt handlers bytes position = some (opcode, effect, size))
    (free : ∀ byte ∈ state.occupied, byte < position ∨ position + size ≤ byte) :
    ∃ row drawn', row.byteOffset = position
      ∧ Walked handlers snapshot bytes entry start (listed ++ [row]) drawn'
        (list snapshot bytes position opcode effect size
          { state with pending, visited := position :: state.visited }) := by
  have same := @taken state position pending next
  have here : Reached handlers bytes entry position :=
    walked.known position ((same position).1 (.inl List.mem_cons_self))
  have followed := foldl_followed snapshot position
    (destinations effect bytes position (position + size))
    { state with
      pending, visited := position :: state.visited
      occupied := List.range' position size ++ state.occupied
      instructions := state.instructions
        ++ [⟨snapshot.get "artifact_id", position, size, opcode, effect.get "effect_id"⟩] }
  have positive := (instructionAt_eq_some handlers bytes decoded).1
  -- what was known is known, and so are the destinations
  have kept : ∀ d, d ∈ state.visited ∨ d ∈ state.pending →
      d ∈ (list snapshot bytes position opcode effect size
          { state with pending, visited := position :: state.visited }).visited
        ∨ d ∈ (list snapshot bytes position opcode effect size
          { state with pending, visited := position :: state.visited }).pending := by
    intro d known
    rw [list, followed.visited, followed.pending]
    rcases (same d).2 known with visited | member
    · exact .inl visited
    · exact .inr (.inl member)
  have reaches : ∀ edge ∈ destinations effect bytes position (position + size), ∀ d,
      edge.2 = some d →
      d ∈ (list snapshot bytes position opcode effect size
          { state with pending, visited := position :: state.visited }).visited
        ∨ d ∈ (list snapshot bytes position opcode effect size
          { state with pending, visited := position :: state.visited }).pending := by
    intro edge member d goes
    rw [list, followed.visited, followed.pending]
    by_cases visited : d ∈ position :: state.visited
    · exact .inl visited
    · exact .inr (.inr ⟨visited, edge, member, goes⟩)
  refine ⟨⟨snapshot.get "artifact_id", position, size, opcode, effect.get "effect_id"⟩,
    drawn ++ (destinations effect bytes position (position + size)).map fun edge =>
      ⟨snapshot.get "artifact_id", position, edge.2, edge.1⟩, rfl, ?_, ?_, ⟨?_, ?_, ?_, ?_, ?_, ?_⟩,
    kept entry walked.entered, ?_, ?_, ?_, ?_, ?_⟩
  · rw [list, followed.instructions, walked.instructions, List.append_assoc]
  · rw [list, followed.edges, walked.edges, List.append_assoc]
  · exact List.forall_mem_append.2 ⟨walked.sound.decoded,
      List.forall_mem_singleton.2 ⟨effect, decoded, rfl, rfl⟩⟩
  · exact List.forall_mem_append.2 ⟨walked.sound.reached, List.forall_mem_singleton.2 here⟩
  · refine List.pairwise_append.2 ⟨walked.sound.apart, List.pairwise_singleton _ _, ?_⟩
    intro row member new only
    obtain ⟨_, decodes, -⟩ := walked.sound.decoded row member
    have width := (instructionAt_eq_some handlers bytes decodes).1
    rw [List.mem_singleton.1 only, Apart]
    dsimp only
    by_contra overlap
    have shared := free (max row.byteOffset position)
      (walked.occupied row member _ (le_max_left _ _) (by omega))
    omega
  · refine List.forall_mem_append.2
      ⟨fun row member d flows => kept d (walked.sound.closed row member d flows),
        List.forall_mem_singleton.2 ?_⟩
    rintro d ⟨_, effect', size', kind, found, member⟩
    rw [decoded] at found
    cases found
    exact reaches _ member d rfl
  · refine List.forall_mem_append.2 ⟨walked.sound.named, ?_⟩
    rw [List.forall_mem_map]
    exact fun _ _ => rfl
  · refine List.forall_mem_append.2
      ⟨fun edge member d goes => kept d (walked.sound.targets edge member d goes), ?_⟩
    rw [List.forall_mem_map]
    exact reaches
  · intro d known
    rw [list, followed.visited, followed.pending] at known
    rcases known with visited | member | ⟨-, edge, member, goes⟩
    · exact walked.known d ((same d).1 (.inl visited))
    · exact walked.known d ((same d).1 (.inr member))
    · exact here.tail ⟨opcode, effect, size, edge.1, decoded, goes ▸ member⟩
  · rw [list, followed.occupied]
    refine List.forall_mem_append.2
      ⟨fun row member byte low high =>
        List.mem_append_right _ (walked.occupied row member byte low high),
        List.forall_mem_singleton.2 ?_⟩
    intro byte low high
    exact List.mem_append_left _ (List.mem_range'_1.2 ⟨low, high⟩)
  · intro none
    rw [list] at none
    exact walked.began (followed.stops none).1
  · intro none
    rw [list] at none
    obtain ⟨quiet, proper⟩ := followed.stops none
    refine List.forall_mem_append.2 ⟨walked.followed quiet, ?_⟩
    rw [List.forall_mem_map]
    exact proper
  · intro none d visited
    rw [list] at none visited
    obtain ⟨quiet, -⟩ := followed.stops none
    rw [followed.visited] at visited
    rcases List.mem_cons.1 visited with rfl | earlier
    · exact ⟨_, List.mem_append_right _ (List.mem_singleton_self _), rfl⟩
    · obtain ⟨row, member, same⟩ := walked.visited quiet d earlier
      exact ⟨row, List.mem_append_left _ member, same⟩

/-- A visited position that is not new: a frontier row, or an instruction. -/
theorem visits (walked : Walked handlers snapshot bytes entry start listed drawn state)
    (next : state.pending = position :: pending) :
    ∃ listed' drawn', Walked handlers snapshot bytes entry start listed' drawn'
      (visit handlers snapshot bytes position
        { state with pending, visited := position :: state.visited }) := by
  obtain ⟨reason, stopped⟩ | ⟨opcode, effect, size, decoded, free, listing⟩ :=
    visit_cases handlers snapshot bytes position
      { state with pending, visited := position :: state.visited }
  · rw [stopped]
    exact ⟨listed, drawn, walked.stop next _ _ reason⟩
  · rw [listing]
    obtain ⟨row, drawn', -, later⟩ := walked.lists next decoded free
    exact ⟨listed ++ [row], drawn', later⟩

/-- The whole loop: it ends without pending positions, or with a frontier. -/
theorem loop {state : WalkState} {listed : List Instruction} {drawn : List Edge}
    (walked : Walked handlers snapshot bytes entry start listed drawn state) :
    ∃ listed' drawn', Walked handlers snapshot bytes entry start listed' drawn'
        (walkLoop handlers snapshot bytes state)
      ∧ ((walkLoop handlers snapshot bytes state).pending = []
        ∨ (walkLoop handlers snapshot bytes state).stops ≠ []) := by
  rw [walkLoop.eq_def]
  split
  next done => exact ⟨listed, drawn, walked, .inl done⟩
  next position pending next =>
  dsimp only
  split_ifs with again full
  · exact (walked.skip next again).loop
  · exact ⟨listed, drawn, walked.stop next _ _ _, .inr (frontier_ne_nil _ _ _ _)⟩
  · obtain ⟨listed', drawn', later⟩ := walked.visits next
    exact later.loop
termination_by turns state
decreasing_by
  · have next := ‹state.pending = _›
    simp only [turns, next, List.length_cons]
    omega
  · have next := ‹state.pending = _›
    refine lt_of_le_of_lt
      (visit_turns handlers snapshot bytes _ _ (Nat.not_le.1 (by assumption))) ?_
    simp only [turns, next, List.length_cons]
    omega

/-- With nothing pending and no frontier, the listed offsets are the reachable code. -/
theorem least (walked : Walked handlers snapshot bytes entry start listed drawn state)
    (done : state.pending = []) (none : state.stops = []) :
    IsLeast {code : Set Nat | entry ∈ code ∧ ∀ o ∈ code, ∀ d, Flows handlers bytes o d → d ∈ code}
      {o | ∃ row ∈ listed, row.byteOffset = o} := by
  have visited : ∀ d, d ∈ state.visited ∨ d ∈ state.pending → ∃ row ∈ listed, row.byteOffset = d := by
    rintro d (member | member)
    · exact walked.visited none d member
    · rw [done] at member
      cases member
  refine ⟨⟨visited entry walked.entered, ?_⟩, ?_⟩
  · rintro _ ⟨row, member, rfl⟩ d flows
    exact visited d (walked.sound.closed row member d flows)
  · rintro code ⟨entered, closed⟩ _ ⟨row, member, rfl⟩
    have reached := walked.sound.reached row member
    generalize row.byteOffset = offset at reached
    induction reached with
    | refl => exact entered
    | tail _ flows ih => exact closed _ ih _ flows

end Walked

end Snapshot

/-! ## Every snapshot -/

section Walks

variable (decode : String → Option (List UInt8)) (handlers : List Value) (entry : Option UInt32)

/-- The artifact a snapshot is told apart by. -/
def key (snapshot : Value) : Option String := (snapshot.get "artifact_id").asStr

/-- The bytes a snapshot retains. -/
def retained (snapshot : Value) : Option (List UInt8) :=
  (preview decode snapshot).map (·.take 4096)

/-- A snapshot that was walked, and its rows. -/
structure Walk where
  snapshot : Value
  bytes : List UInt8
  start : Nat
  listed : List Instruction
  drawn : List Edge

/-- What is known of a walked snapshot, whatever the frontier holds. -/
structure Walk.Sound (walk : Walk) : Prop where
  bytes : retained decode walk.snapshot = some walk.bytes
  start : entry.map (·.toNat) = some walk.start
  decoded : ∀ row ∈ walk.listed, Decoded handlers walk.snapshot walk.bytes row
  apart : walk.listed.Pairwise Apart
  named : ∀ edge ∈ walk.drawn, edge.artifactId = walk.snapshot.get "artifact_id"

/-- What is known of it when the frontier is empty. -/
structure Walk.Complete (walk : Walk) : Prop where
  least : IsLeast {code : Set Nat | walk.start ∈ code
      ∧ ∀ o ∈ code, ∀ d, Flows handlers walk.bytes o d → d ∈ code}
    {o | ∃ row ∈ walk.listed, row.byteOffset = o}
  targets : ∀ edge ∈ walk.drawn, ∃ d, edge.toOffset = some d
    ∧ ∃ row ∈ walk.listed, row.byteOffset = d

/-- The progress is the walks of the snapshots seen so far. -/
structure Walks (stops : List FrontierRow) (snapshots : List Value) (walks : List Walk)
    (progress : Progress) : Prop where
  instructions : progress.instructions = walks.flatMap (·.listed)
  edges : progress.edges = walks.flatMap (·.drawn)
  entries : progress.entries.length = walks.length
  seen : ∀ k, k ∈ progress.seen ↔ ∃ snapshot ∈ snapshots, key snapshot = k
  member : ∀ walk ∈ walks, walk.snapshot ∈ snapshots
  distinct : walks.Pairwise fun a b => key a.snapshot ≠ key b.snapshot
  sound : ∀ walk ∈ walks, walk.Sound decode handlers entry
  began : progress.stops = [] → stops = []
  complete : progress.stops = [] → walks.map (·.snapshot) = snapshots
    ∧ ∀ walk ∈ walks, walk.Complete handlers

variable {decode handlers entry}

/-- A walk before its first visit. -/
theorem Walked.begin (handlers : List Value) (snapshot : Value) (bytes : List UInt8) (entry : Nat)
    (start : Progress) :
    Walked handlers snapshot bytes entry start [] []
      { instructions := start.instructions, edges := start.edges, stops := start.stops
        pending := [entry] } where
  instructions := (List.append_nil _).symm
  edges := (List.append_nil _).symm
  sound := ⟨by simp, by simp, List.Pairwise.nil, by simp, by simp, by simp⟩
  entered := .inr (List.mem_singleton_self _)
  known d known := by
    rcases known with visited | member
    · cases visited
    · rw [List.mem_singleton.1 member]
      exact .refl
  occupied := by simp
  began := id
  followed := by simp
  visited := by simp

namespace Walks

variable {first : List FrontierRow} {snapshots : List Value} {walks : List Walk}
  {progress : Progress}

/-- A snapshot that is not walked leaves a frontier row. -/
theorem halt (kept : Walks decode handlers entry first snapshots walks progress) (snapshot : Value)
    {later : Progress} (instructions : later.instructions = progress.instructions)
    (edges : later.edges = progress.edges) (entries : later.entries = progress.entries)
    (seen : ∀ k, k ∈ later.seen ↔ k ∈ progress.seen ∨ k = key snapshot)
    (stops : later.stops ≠ []) :
    Walks decode handlers entry first (snapshots ++ [snapshot]) walks later where
  instructions := instructions.trans kept.instructions
  edges := edges.trans kept.edges
  entries := by rw [entries, kept.entries]
  seen k := by
    rw [seen, kept.seen]
    constructor
    · rintro (⟨other, member, same⟩ | rfl)
      · exact ⟨other, List.mem_append_left _ member, same⟩
      · exact ⟨snapshot, List.mem_append_right _ (List.mem_singleton_self _), rfl⟩
    · rintro ⟨other, member, same⟩
      rcases List.mem_append.1 member with earlier | last
      · exact .inl ⟨other, earlier, same⟩
      · rw [List.mem_singleton.1 last] at same
        exact .inr same.symm
  member walk member := List.mem_append_left _ (kept.member walk member)
  distinct := kept.distinct
  sound := kept.sound
  began none := absurd none stops
  complete none := absurd none stops

/-- A snapshot that is walked adds its rows. -/
theorem add (kept : Walks decode handlers entry first snapshots walks progress) {snapshot : Value}
    (fresh : key snapshot ∉ progress.seen) {bytes : List UInt8} {start : Nat}
    (holds : retained decode snapshot = some bytes) (starts : entry.map (·.toNat) = some start)
    {begun later : Progress} (instructions : begun.instructions = progress.instructions)
    (edges : begun.edges = progress.edges) (quiet : begun.stops = [] → progress.stops = [])
    {listed : List Instruction} {drawn : List Edge} {state : WalkState}
    (walked : Walked handlers snapshot bytes start begun listed drawn state)
    (ended : state.pending = [] ∨ state.stops ≠ [])
    (rows : later.instructions = state.instructions) (arrows : later.edges = state.edges)
    (stops : later.stops = state.stops) (entries : later.entries.length = progress.entries.length + 1)
    (seen : later.seen = key snapshot :: progress.seen) :
    Walks decode handlers entry first (snapshots ++ [snapshot])
      (walks ++ [⟨snapshot, bytes, start, listed, drawn⟩]) later where
  instructions := by
    rw [rows, walked.instructions, instructions, kept.instructions]
    simp
  edges := by
    rw [arrows, walked.edges, edges, kept.edges]
    simp
  entries := by rw [entries, kept.entries, List.length_append, List.length_singleton]
  seen k := by
    rw [seen, List.mem_cons, kept.seen]
    constructor
    · rintro (rfl | ⟨other, member, same⟩)
      · exact ⟨snapshot, List.mem_append_right _ (List.mem_singleton_self _), rfl⟩
      · exact ⟨other, List.mem_append_left _ member, same⟩
    · rintro ⟨other, member, same⟩
      rcases List.mem_append.1 member with earlier | last
      · exact .inr ⟨other, earlier, same⟩
      · rw [List.mem_singleton.1 last] at same
        exact .inl same.symm
  member := List.forall_mem_append.2
    ⟨fun walk member => List.mem_append_left _ (kept.member walk member),
      List.forall_mem_singleton.2 (List.mem_append_right _ (List.mem_singleton_self _))⟩
  distinct := by
    refine List.pairwise_append.2 ⟨kept.distinct, List.pairwise_singleton _ _, ?_⟩
    intro walk member last only same
    rw [List.mem_singleton.1 only] at same
    exact fresh (kept.seen _ |>.2 ⟨_, kept.member walk member, same⟩)
  sound := List.forall_mem_append.2 ⟨kept.sound, List.forall_mem_singleton.2
    ⟨holds, starts, walked.sound.decoded, walked.sound.apart, walked.sound.named⟩⟩
  began none := kept.began (quiet (walked.began (stops ▸ none)))
  complete none := by
    rw [stops] at none
    obtain ⟨all, complete⟩ := kept.complete (quiet (walked.began none))
    have done := ended.resolve_right fun some => some none
    refine ⟨by rw [List.map_append, all]; rfl, List.forall_mem_append.2
      ⟨complete, List.forall_mem_singleton.2 ⟨walked.least done none, ?_⟩⟩⟩
    intro edge member
    obtain ⟨d, goes⟩ := Option.ne_none_iff_exists'.1 (walked.followed none edge member)
    refine ⟨d, goes, ?_⟩
    rcases walked.sound.targets edge member d goes with visited | pending
    · exact walked.visited none d visited
    · rw [done] at pending
      cases pending

theorem step (kept : Walks decode handlers entry first snapshots walks progress) (snapshot : Value) :
    ∃ walks', Walks decode handlers entry first (snapshots ++ [snapshot]) walks'
      (walkSnapshot decode handlers entry progress snapshot) := by
  rw [walkSnapshot]
  split_ifs with repeated
  · refine ⟨walks, kept.halt snapshot rfl rfl rfl (fun k => ?_) (frontier_ne_nil _ _ _ _)⟩
    constructor
    · exact .inl
    · rintro (member | rfl)
      · exact member
      · exact repeated
  have added : ∀ k, k ∈ key snapshot :: progress.seen ↔ k ∈ progress.seen ∨ k = key snapshot := by
    intro k
    rw [List.mem_cons, or_comm]
  cases starts : entry with
  | none => 
      subst starts
      exact ⟨walks, kept.halt snapshot rfl rfl rfl added (frontier_ne_nil _ _ _ _)⟩
  | some start =>
      subst starts
      dsimp only
      cases shown : preview decode snapshot with
      | none => exact ⟨walks, kept.halt snapshot rfl rfl rfl added (frontier_ne_nil _ _ _ _)⟩
      | some whole =>
          dsimp only
          have holds : retained decode snapshot = some (whole.take 4096) := by
            rw [retained, shown]
            rfl
          obtain ⟨begun, gap, instructions, edges, entries, seen, quiet⟩ : ∃ begun : Progress,
              (if gapped snapshot whole = true then
                Progress.frontier { progress with seen := key snapshot :: progress.seen }
                  (snapshot.get "artifact_id") (some (whole.take 4096).length) "snapshot-gap"
                else { progress with seen := key snapshot :: progress.seen }) = begun
              ∧ begun.instructions = progress.instructions ∧ begun.edges = progress.edges
              ∧ begun.entries = progress.entries ∧ begun.seen = key snapshot :: progress.seen
              ∧ (begun.stops = [] → progress.stops = []) := by
            refine ⟨_, rfl, ?_⟩
            split_ifs
            · exact ⟨rfl, rfl, rfl, rfl, fun none => absurd none (frontier_ne_nil _ _ _ _)⟩
            · exact ⟨rfl, rfl, rfl, rfl, id⟩
          rw [key] at gap
          rw [gap]
          obtain ⟨listed, drawn, walked, ended⟩ :=
            (Walked.begin handlers snapshot (whole.take 4096) start.toNat begun).loop
          refine ⟨_, kept.add repeated holds rfl instructions edges quiet walked ended rfl rfl rfl
            ?_ seen⟩
          rw [List.length_append, entries, List.length_singleton]

/-- The walk of a list of snapshots. -/
theorem run (kept : Walks decode handlers entry first snapshots walks progress) (more : List Value) :
    ∃ walks', Walks decode handlers entry first (snapshots ++ more) walks'
      (more.foldl (walkSnapshot decode handlers entry) progress) := by
  induction more generalizing snapshots walks progress with
  | nil =>
      rw [List.append_nil]
      exact ⟨walks, kept⟩
  | cons snapshot more ih =>
      obtain ⟨walks', later⟩ := kept.step snapshot
      have all := ih later
      rwa [List.append_assoc] at all

end Walks

/-- The offsets a traversal lists for a snapshot. -/
def Traversal.listed (traversal : Traversal) (snapshot : Value) : Set Nat :=
  {o | ∃ row ∈ traversal.instructions, row.artifactId.asStr = key snapshot ∧ row.byteOffset = o}

theorem Walk.Sound.key_row {walk : Walk} (sound : walk.Sound decode handlers entry)
    {row : Instruction} (member : row ∈ walk.listed) :
    row.artifactId.asStr = key walk.snapshot := by
  obtain ⟨_, -, -, named⟩ := sound.decoded row member
  rw [named, key]

namespace Walks

variable {first : List FrontierRow} {snapshots : List Value} {walks : List Walk}
  {progress : Progress}

/-- A snapshot's key tells its walk. -/
theorem unique (kept : Walks decode handlers entry first snapshots walks progress) {a b : Walk}
    (left : a ∈ walks) (right : b ∈ walks) (same : key a.snapshot = key b.snapshot) : a = b := by
  by_contra other
  have symmetric : Std.Symm fun a b : Walk => key a.snapshot ≠ key b.snapshot :=
    ⟨fun _ _ => Ne.symm⟩
  exact kept.distinct.forall left right other same

theorem apart (kept : Walks decode handlers entry first snapshots walks progress) :
    progress.instructions.Pairwise
      fun a b => a.artifactId.asStr = b.artifactId.asStr → Apart a b := by
  rw [kept.instructions, List.pairwise_flatMap]
  refine ⟨fun walk member => List.Pairwise.imp ?_ (kept.sound walk member).apart, ?_⟩
  · intro a b clear _
    exact clear
  refine kept.distinct.imp_of_mem fun {a b} left right other row first row' second same => ?_
  rw [(kept.sound a left).key_row first, (kept.sound b right).key_row second] at same
  exact absurd same other

theorem inside (kept : Walks decode handlers entry first snapshots walks progress) :
    ∀ row ∈ progress.instructions, 0 < row.byteSize ∧ ∃ snapshot ∈ snapshots,
      row.artifactId = snapshot.get "artifact_id" ∧ ∃ bytes,
        retained decode snapshot = some bytes ∧ row.byteOffset + row.byteSize ≤ bytes.length := by
  intro row member
  rw [kept.instructions] at member
  obtain ⟨walk, walked, listed⟩ := List.mem_flatMap.1 member
  have sound := kept.sound walk walked
  obtain ⟨_, decoded, -, named⟩ := sound.decoded row listed
  obtain ⟨positive, fits⟩ := instructionAt_eq_some handlers walk.bytes decoded
  exact ⟨positive, walk.snapshot, kept.member walk walked, named, walk.bytes, sound.bytes, fits⟩

/-- The rows of a walk are all the rows of its snapshot. -/
theorem listed_eq (kept : Walks decode handlers entry first snapshots walks progress) {walk : Walk}
    (member : walk ∈ walks) :
    {o | ∃ row ∈ progress.instructions, row.artifactId.asStr = key walk.snapshot
        ∧ row.byteOffset = o}
      = {o | ∃ row ∈ walk.listed, row.byteOffset = o} := by
  ext o
  constructor
  · rintro ⟨row, listed, same, rfl⟩
    rw [kept.instructions] at listed
    obtain ⟨other, walked, listed⟩ := List.mem_flatMap.1 listed
    rw [(kept.sound other walked).key_row listed] at same
    exact ⟨row, kept.unique walked member same ▸ listed, rfl⟩
  · rintro ⟨row, listed, rfl⟩
    refine ⟨row, ?_, (kept.sound walk member).key_row listed, rfl⟩
    rw [kept.instructions]
    exact List.mem_flatMap.2 ⟨walk, member, listed⟩

theorem targets (kept : Walks decode handlers entry first snapshots walks progress)
    (none : progress.stops = []) {walk : Walk} (member : walk ∈ walks) :
    ∀ edge ∈ progress.edges, edge.artifactId.asStr = key walk.snapshot →
      ∃ d, edge.toOffset = some d ∧ ∃ row ∈ walk.listed, row.byteOffset = d := by
  intro edge drawn same
  rw [kept.edges] at drawn
  obtain ⟨other, walked, drawn⟩ := List.mem_flatMap.1 drawn
  rw [(kept.sound other walked).named edge drawn] at same
  obtain rfl := kept.unique walked member same
  exact ((kept.complete none).2 other walked).targets edge drawn

end Walks

/-- Rows of one snapshot never overlap and stay inside its retained bytes; a complete walk
lists, for every snapshot, exactly the code reachable from the entry. -/
theorem walk_sound (decode : String → Option (List UInt8)) (handlers : List Value)
    (entry : Option UInt32) (snapshots : List Value) :
    let traversal := walk decode handlers entry snapshots
    traversal.instructions.Pairwise
        (fun a b => a.artifactId.asStr = b.artifactId.asStr → Apart a b)
      ∧ (∀ row ∈ traversal.instructions, 0 < row.byteSize ∧ ∃ snapshot ∈ snapshots.take 16,
        row.artifactId = snapshot.get "artifact_id" ∧ ∃ bytes,
          retained decode snapshot = some bytes ∧ row.byteOffset + row.byteSize ≤ bytes.length)
      ∧ (traversal.complete = true → ∃ start, entry = some start ∧ ∀ snapshot ∈ snapshots,
        ∃ bytes, retained decode snapshot = some bytes
          ∧ IsLeast {code : Set Nat | start.toNat ∈ code
              ∧ ∀ o ∈ code, ∀ d, Flows handlers bytes o d → d ∈ code}
            (traversal.listed snapshot)
          ∧ ∀ edge ∈ traversal.edges, edge.artifactId.asStr = key snapshot →
            ∃ d, edge.toOffset = some d ∧ d ∈ traversal.listed snapshot) := by
  intro traversal
  obtain ⟨stops, started, progress, walked⟩ : ∃ stops : List FrontierRow,
      (stops = [] → snapshots.length ≤ 16) ∧ ∃ progress : Progress,
        progress = (snapshots.take 16).foldl (walkSnapshot decode handlers entry) { stops }
        ∧ traversal = ⟨progress.entries, progress.instructions, progress.edges, progress.stops,
          !progress.entries.isEmpty && progress.stops.isEmpty⟩ := by
    refine ⟨_, ?_, _, rfl, rfl⟩
    intro none
    by_contra many
    rw [if_pos (Nat.not_le.1 many)] at none
    exact absurd none (frontier_ne_nil _ _ _ _)
  obtain ⟨folded, same⟩ := walked
  have fresh : Walks decode handlers entry stops [] [] { stops } :=
    ⟨rfl, rfl, rfl, by simp, by simp, List.Pairwise.nil, by simp, id, by simp⟩
  obtain ⟨walks, kept⟩ := fresh.run (snapshots.take 16)
  rw [List.nil_append, ← folded] at kept
  rw [same]
  refine ⟨kept.apart, kept.inside, fun complete => ?_⟩
  rw [Bool.and_eq_true, Bool.not_eq_true', List.isEmpty_eq_false_iff, List.isEmpty_iff] at complete
  obtain ⟨entered, none⟩ := complete
  obtain ⟨all, finished⟩ := kept.complete none
  rw [List.take_of_length_le (started (kept.began none))] at all
  have some : walks ≠ [] := by
    rintro rfl
    exact entered (List.eq_nil_of_length_eq_zero kept.entries)
  obtain ⟨walk, member⟩ := List.exists_mem_of_ne_nil walks some
  obtain ⟨start, enters, -⟩ := Option.map_eq_some_iff.1 (kept.sound walk member).start
  refine ⟨start, enters, fun snapshot listed => ?_⟩
  rw [← all] at listed
  obtain ⟨walk, member, rfl⟩ := List.mem_map.1 listed
  have sound := kept.sound walk member
  have starts : start.toNat = walk.start := by
    have := sound.start
    rw [enters] at this
    exact Option.some.inj this
  rw [Traversal.listed, kept.listed_eq member, starts]
  exact ⟨walk.bytes, sound.bytes, (finished walk member).least, kept.targets none member⟩

end Walks

end Reb.Backend.VmReachability
