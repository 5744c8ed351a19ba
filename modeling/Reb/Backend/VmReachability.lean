/-
# Backend.VmReachability -- walking the guest code that snapshots retain

`walk` follows the flow that a handler's one uncontradicted effect declares, from the
entry, smallest offset first, over the retained bytes of each snapshot.  What it cannot
follow it leaves in the frontier.  The rows are as the source writes them; a row's
`artifact_id` is whatever value the snapshot has there.
-/
import Reb.Theory.LittleEndian
import Reb.Theory.SerdeValue

namespace Reb.Backend.VmReachability

open Reb.Theory
open Reb.Theory.Serde

set_option autoImplicit false

def maxInstructions : Nat := 4096

def maxFrontier : Nat := 256

/-! ## Rows -/

structure FrontierRow where
  artifactId : Value
  byteOffset : Option Nat
  reason : String

/-- Equality of rows as the source compares them. -/
def FrontierRow.eq (a b : FrontierRow) : Bool :=
  a.artifactId.eq b.artifactId && a.byteOffset == b.byteOffset && a.reason == b.reason

def frontier (rows : List FrontierRow) (artifact : Value) (offset : Option Nat) (reason : String) :
    List FrontierRow :=
  let row := ⟨artifact, offset, reason⟩
  if rows.any (·.eq row) then rows
  else if rows.length < maxFrontier - 1 then rows ++ [row]
  else if !rows.any (·.reason == "frontier-limit") then rows ++ [⟨.null, none, "frontier-limit"⟩]
  else rows

structure Instruction where
  artifactId : Value
  byteOffset : Nat
  byteSize : Nat
  opcode : UInt8
  effectId : Value

structure Edge where
  artifactId : Value
  fromOffset : Nat
  toOffset : Option Nat
  kind : String

structure EntryOffset where
  artifactId : Value
  byteOffset : Nat

/-! ## Effects -/

/-- An effect without the members that name it. -/
def meaning (effect : Value) : Value :=
  match effect with
  | .object members =>
      .object (members.filter fun member => member.1 ≠ "effect_id" ∧ member.1 ≠ "evidence_class")
  | other => other

/-- The one meaning a handler's known effects share, unless any is contradicted. -/
def uniqueEffect (handler : Value) : Option Value := do
  let effects ← (handler.get "effects").asArray
  let known := effects.filter fun effect =>
    ((effect.get "evidence_class").isStr "inferred" || (effect.get "evidence_class").isStr "observed")
      && !(effect.get "operation").isStr "unknown"
  let first ← known.head?
  if effects.any fun effect => (effect.get "evidence_class").isStr "contradicted" then none
  else if known.tail.all fun effect => (meaning effect).eq (meaning first) then some first
  else none

/-- A `u64` that is a `u32`. -/
def toU32 (value : UInt64) : Option Nat := if value.toNat < 2 ^ 32 then some value.toNat else none

/-- The declared target of an effect, or the one an operand holds. -/
def target (effect : Value) (bytes : List UInt8) (offset : Nat) : Option Nat :=
  match ((effect.get "flow").get "target_offset").asU64 with
  | some target => toU32 target
  | none => do
      let name ← ((effect.get "flow").get "target_operand").asStr
      let layout ← (effect.get "operand_layout").asArray
      let operand ← layout.find? fun row => (row.get "name").isStr name
      let place ← (operand.get "byte_offset").asU64
      let start ← if offset + place.toNat < 2 ^ 64 then some (offset + place.toNat) else none
      let size ← (operand.get "byte_size").asU64
      let width := size.toNat
      if width = 1 ∨ width = 2 ∨ width = 4 ∨ width = 8 then
        if start + width ≤ bytes.length then
          toU32 (.ofNat (LittleEndian.ofBytes (LittleEndian.window bytes start width)))
        else none
      else none

/-- Where an instruction's declared flow goes. -/
def destinations (effect : Value) (bytes : List UInt8) (offset stop : Nat) :
    List (String × Option Nat) :=
  match ((effect.get "flow").get "kind").asStr with
  | some "next" => [("fallthrough", some stop)]
  | some "branch" => [("branch_taken", target effect bytes offset), ("branch_not_taken", some stop)]
  | some "jump" => [("jump", target effect bytes offset)]
  | some "call" => [("call", target effect bytes offset), ("call_continuation", some stop)]
  | some "halt" => []
  | some "return" => [("return", none)]
  | _ => [("unknown", none)]

/-! ## Walking one snapshot -/

structure WalkState where
  instructions : List Instruction
  edges : List Edge
  stops : List FrontierRow
  pending : List Nat := []
  visited : List Nat := []
  occupied : List Nat := []

def WalkState.frontier (state : WalkState) (artifact : Value) (offset : Option Nat)
    (reason : String) : WalkState :=
  { state with stops := VmReachability.frontier state.stops artifact offset reason }

/-- `BTreeSet::insert`, smallest first. -/
def insertPending (offset : Nat) (pending : List Nat) : List Nat :=
  if offset ∈ pending then pending else pending.orderedInsert (· ≤ ·) offset

section Visit

variable (handlers : List Value) (snapshot : Value) (bytes : List UInt8)

/-- Follow one destination. -/
def follow (position : Nat) (state : WalkState) (edge : String × Option Nat) : WalkState :=
  let artifact := snapshot.get "artifact_id"
  let state := { state with edges := state.edges ++ [⟨artifact, position, edge.2, edge.1⟩] }
  match edge.2 with
  | some destination =>
      if destination ∈ state.visited then state
      else { state with pending := insertPending destination state.pending }
  | none => state.frontier artifact (some position) "unknown-target"

/-- Whether a snapshot claims the byte at this position. -/
def claimed (position : Nat) : Bool :=
  (snapshot.get "byte_count").asU64.any fun count => position < count.toNat

/-- Whether a handler's effects contradict one another. -/
def contradicted (handler : Value) : Bool :=
  (handler.get "effects").asArray.any fun effects =>
    effects.length > 1
      || effects.any fun effect => (effect.get "evidence_class").isStr "contradicted"

/-- List the instruction at a position and follow its flow. -/
def list (position : Nat) (opcode : UInt8) (effect : Value) (size : Nat) (state : WalkState) :
    WalkState :=
  let artifact := snapshot.get "artifact_id"
  let stop := position + size
  (destinations effect bytes position stop).foldl (follow snapshot position)
    { state with
      occupied := List.range' position size ++ state.occupied
      instructions := state.instructions
        ++ [⟨artifact, position, size, opcode, effect.get "effect_id"⟩] }

/-- One position that was not visited before and is within the instruction limit. -/
def visit (position : Nat) (state : WalkState) : WalkState :=
  let artifact := snapshot.get "artifact_id"
  let stop := state.frontier artifact (some position)
  match bytes[position]? with
  | none => stop (if claimed snapshot position then "snapshot-gap" else "past-snapshot")
  | some opcode =>
      if position ∈ state.occupied then stop "overlapping-instruction"
      else
        match handlers.find? fun handler =>
            (handler.get "opcode").asU64 == some (.ofNat opcode.toNat) with
        | none => stop "unknown-opcode"
        | some handler =>
            match uniqueEffect handler with
            | none =>
                stop (if contradicted handler then "effect-contradiction" else "effect-unavailable")
            | some effect =>
                match (effect.get "instruction_size").asU64.filter fun size =>
                    1 ≤ size.toNat ∧ size.toNat ≤ 65 with
                | none => stop "unsupported-layout"
                | some size =>
                    if position + size.toNat > bytes.length then stop "truncated-instruction"
                    else if (List.range' position size.toNat).any (· ∈ state.occupied) then
                      stop "overlapping-instruction"
                    else list snapshot bytes position opcode effect size.toNat state

/-- What the handlers make of the bytes at a position: opcode, effect and size. -/
def instructionAt (position : Nat) : Option (UInt8 × Value × Nat) := do
  let opcode ← bytes[position]?
  let handler ← handlers.find? fun handler =>
    (handler.get "opcode").asU64 == some (.ofNat opcode.toNat)
  let effect ← uniqueEffect handler
  let size ← (effect.get "instruction_size").asU64.filter fun size =>
    1 ≤ size.toNat ∧ size.toNat ≤ 65
  if position + size.toNat ≤ bytes.length then some (opcode, effect, size.toNat) else none

/-- A visit leaves a frontier row, or lists the instruction at its position. -/
theorem visit_cases (position : Nat) (state : WalkState) :
    (∃ reason, visit handlers snapshot bytes position state
        = state.frontier (snapshot.get "artifact_id") (some position) reason)
      ∨ ∃ opcode effect size, instructionAt handlers bytes position = some (opcode, effect, size)
        ∧ (∀ byte ∈ state.occupied, byte < position ∨ position + size ≤ byte)
        ∧ visit handlers snapshot bytes position state
          = list snapshot bytes position opcode effect size state := by
  rw [visit, instructionAt]
  cases bytes[position]? with
  | none => exact .inl ⟨_, rfl⟩
  | some opcode =>
      dsimp only
      split_ifs
      · exact .inl ⟨_, rfl⟩
      · simp only [Option.bind_eq_bind, Option.bind_some]
        cases handlers.find? fun handler =>
            (handler.get "opcode").asU64 == some (.ofNat opcode.toNat) with
        | none => exact .inl ⟨_, rfl⟩
        | some handler =>
            simp only [Option.bind_some]
            cases uniqueEffect handler with
            | none => exact .inl ⟨_, rfl⟩
            | some effect =>
                simp only [Option.bind_some]
                cases (effect.get "instruction_size").asU64.filter fun size =>
                    1 ≤ size.toNat ∧ size.toNat ≤ 65 with
                | none => exact .inl ⟨_, rfl⟩
                | some size =>
                    simp only [Option.bind_some]
                    by_cases long : position + size.toNat > bytes.length
                    · rw [if_pos long]
                      exact .inl ⟨_, rfl⟩
                    rw [if_neg long, if_pos (Nat.not_lt.1 long)]
                    by_cases overlaps : (List.range' position size.toNat).any
                        (· ∈ state.occupied) = true
                    · rw [if_pos overlaps]
                      exact .inl ⟨_, rfl⟩
                    rw [if_neg overlaps]
                    refine .inr ⟨opcode, effect, size.toNat, rfl, ?_, rfl⟩
                    intro byte occupied
                    by_contra inside
                    refine overlaps (List.any_eq_true.2 ⟨byte, ?_, by simpa using occupied⟩)
                    rw [List.mem_range'_1]
                    omega

theorem instructionAt_eq_some {position size : Nat} {opcode : UInt8} {effect : Value}
    (found : instructionAt handlers bytes position = some (opcode, effect, size)) :
    0 < size ∧ position + size ≤ bytes.length := by
  simp only [instructionAt, Option.bind_eq_bind, Option.bind_eq_some_iff] at found
  obtain ⟨_, -, _, -, _, -, width, bounds, found⟩ := found
  rw [Option.filter_eq_some_iff] at bounds
  split_ifs at found with inside
  cases found
  exact ⟨(of_decide_eq_true bounds.2).1, inside⟩

/-! ### The loop ends -/

theorem length_insertPending (offset : Nat) (pending : List Nat) :
    (insertPending offset pending).length ≤ pending.length + 1 := by
  rw [insertPending]
  split_ifs
  · exact Nat.le_succ _
  · rw [List.orderedInsert_length]

theorem follow_counts (position : Nat) (state : WalkState) (edge : String × Option Nat) :
    (follow snapshot position state edge).instructions = state.instructions
      ∧ (follow snapshot position state edge).pending.length ≤ state.pending.length + 1 := by
  rw [follow]
  split
  · split_ifs
    · exact ⟨rfl, Nat.le_succ _⟩
    · exact ⟨rfl, length_insertPending _ _⟩
  · exact ⟨rfl, Nat.le_succ _⟩

theorem foldl_follow_counts (position : Nat) (edges : List (String × Option Nat))
    (state : WalkState) :
    (edges.foldl (follow snapshot position) state).instructions = state.instructions
      ∧ (edges.foldl (follow snapshot position) state).pending.length
        ≤ state.pending.length + edges.length := by
  induction edges generalizing state with
  | nil => exact ⟨rfl, le_rfl⟩
  | cons edge edges ih =>
      obtain ⟨same, short⟩ := follow_counts snapshot position state edge
      obtain ⟨same', short'⟩ := ih (follow snapshot position state edge)
      refine ⟨same'.trans same, short'.trans ?_⟩
      rw [List.length_cons]
      omega

theorem length_destinations (effect : Value) (offset stop : Nat) :
    (destinations effect bytes offset stop).length ≤ 2 := by
  rw [destinations]
  split <;> simp

/-- The turns a state may still take. -/
def turns (state : WalkState) : Nat :=
  3 * (maxInstructions - state.instructions.length) + state.pending.length

theorem turns_list (position : Nat) (opcode : UInt8) (effect : Value) (size : Nat)
    (state : WalkState) (room : state.instructions.length < maxInstructions) :
    turns (list snapshot bytes position opcode effect size state) < turns state := by
  have few := length_destinations bytes effect position (position + size)
  obtain ⟨listed, pending⟩ := foldl_follow_counts snapshot position
    (destinations effect bytes position (position + size))
    { state with
      occupied := List.range' position size ++ state.occupied
      instructions := state.instructions
        ++ [⟨snapshot.get "artifact_id", position, size, opcode, effect.get "effect_id"⟩] }
  have more := congrArg List.length listed
  rw [List.length_append, List.length_singleton] at more
  rw [turns, turns, list, more]
  dsimp only at pending ⊢
  omega

/-- A visit stops at a position, or lists an instruction there. -/
theorem visit_turns (position : Nat) (state : WalkState)
    (room : state.instructions.length < maxInstructions) :
    turns (visit handlers snapshot bytes position state) ≤ turns state := by
  obtain ⟨reason, stopped⟩ | ⟨opcode, effect, size, -, -, listed⟩ :=
    visit_cases handlers snapshot bytes position state
  · rw [stopped]
    exact le_rfl
  · rw [listed]
    exact (turns_list snapshot bytes position opcode effect size state room).le

/-- The loop over the pending positions. -/
def walkLoop (state : WalkState) : WalkState :=
  match _rest : state.pending with
  | [] => state
  | position :: pending =>
      let state' := { state with pending, visited := position :: state.visited }
      if position ∈ state.visited then walkLoop { state with pending }
      else if _full : state.instructions.length ≥ maxInstructions then
        state'.frontier (snapshot.get "artifact_id") (some position) "instruction-limit"
      else walkLoop (visit handlers snapshot bytes position state')
termination_by turns state
decreasing_by
  · simp only [turns, _rest, List.length_cons]
    omega
  · refine lt_of_le_of_lt (visit_turns handlers snapshot bytes position _ (Nat.not_le.1 _full)) ?_
    simp only [turns, _rest, List.length_cons]
    omega

end Visit

/-! ## Walking every snapshot -/

structure Traversal where
  entryOffsets : List EntryOffset := []
  instructions : List Instruction := []
  edges : List Edge := []
  frontier : List FrontierRow := []
  complete : Bool := false

structure Progress where
  entries : List EntryOffset := []
  instructions : List Instruction := []
  edges : List Edge := []
  stops : List FrontierRow := []
  seen : List (Option String) := []

def Progress.frontier (progress : Progress) (artifact : Value) (offset : Option Nat)
    (reason : String) : Progress :=
  { progress with stops := VmReachability.frontier progress.stops artifact offset reason }

section Walk

variable (decode : String → Option (List UInt8)) (handlers : List Value) (entry : Option UInt32)

def preview (snapshot : Value) : Option (List UInt8) :=
  (snapshot.get "preview_hex").asStr.bind decode

/-- Whether the retained bytes are not all of the snapshot. -/
def gapped (snapshot : Value) (whole : List UInt8) : Bool :=
  whole.length > 4096 || (snapshot.get "truncated").isBool true
    || (snapshot.get "byte_count").asU64.any fun count => count.toNat > (whole.take 4096).length

def walkSnapshot (progress : Progress) (snapshot : Value) : Progress :=
  let artifact := snapshot.get "artifact_id"
  if artifact.asStr ∈ progress.seen then progress.frontier artifact none "snapshot-gap"
  else
    let progress := { progress with seen := artifact.asStr :: progress.seen }
    match entry with
    | none => progress.frontier artifact none "entry-unavailable"
    | some entry =>
        match preview decode snapshot with
        | none => progress.frontier artifact (some entry.toNat) "snapshot-unavailable"
        | some whole =>
            let bytes := whole.take 4096
            let progress := if gapped snapshot whole then
              progress.frontier artifact (some bytes.length) "snapshot-gap" else progress
            let walked := walkLoop handlers snapshot bytes
              { instructions := progress.instructions
                edges := progress.edges
                stops := progress.stops
                pending := [entry.toNat] }
            { progress with
              entries := progress.entries ++ [⟨artifact, entry.toNat⟩]
              instructions := walked.instructions
              edges := walked.edges
              stops := walked.stops }

def walk (snapshots : List Value) : Traversal :=
  let stops := if snapshots.isEmpty then frontier [] .null none "snapshot-unavailable" else []
  let stops := if snapshots.length > 16 then
    frontier stops ((snapshots[16]?.getD Value.null).get "artifact_id") none "snapshot-gap" else stops
  let progress := (snapshots.take 16).foldl (walkSnapshot decode handlers entry) { stops }
  { entryOffsets := progress.entries
    instructions := progress.instructions
    edges := progress.edges
    frontier := progress.stops
    complete := !progress.entries.isEmpty && progress.stops.isEmpty }

end Walk

end Reb.Backend.VmReachability
