/-
# Analysis.Snapshot -- the nodes and edges of a heap snapshot

A snapshot is loaded when its fields are the ones that are needed, and its counts are
those of its arrays.  The nodes own consecutive runs of the edges: where each begins
is summed in 32 bits for the searches (`buildEdgeStarts`), and only checked in 64 bits
where no run is needed (`validateEdgeCounts`).
-/
import Reb.Analysis.SnapshotDocument

namespace Reb.Analysis.Snapshot

set_option autoImplicit false

/-- What a snapshot is refused for. -/
inductive Failure where
  | request | file | document | layout | counts | nativeIndex | edgeOverflow | edgeMismatch
  deriving DecidableEq, Repr

/-! ## Loading -/

/-- `kNoNode` is `none`. -/
def fieldIndex (fields : List (List UInt8)) (name : List UInt8) : Option Nat :=
  fields.findIdx? (· == name)

structure SnapshotLayout where
  nodeWidth : Nat
  edgeWidth : Nat
  nodeTypeField : Nat
  nodeNameField : Nat
  nodeIdField : Nat
  nodeSizeField : Nat
  nodeEdgeCountField : Nat
  edgeTypeField : Nat
  edgeNameField : Nat
  edgeTargetField : Nat
  storedNodes : Nat
  storedEdges : Nat
  deriving DecidableEq, Repr

/-- The layout of a document, when every field that is needed is there. -/
def snapshotLayout (data : SnapshotData) : Option SnapshotLayout := do
  let nodeTypeField ← fieldIndex data.nodeFields (text "type")
  let nodeNameField ← fieldIndex data.nodeFields (text "name")
  let nodeIdField ← fieldIndex data.nodeFields (text "id")
  let nodeSizeField ← fieldIndex data.nodeFields (text "self_size")
  let nodeEdgeCountField ← fieldIndex data.nodeFields (text "edge_count")
  let edgeTypeField ← fieldIndex data.edgeFields (text "type")
  let edgeNameField ← fieldIndex data.edgeFields (text "name_or_index")
  let edgeTargetField ← fieldIndex data.edgeFields (text "to_node")
  if data.nodeTypes = [] ∨ data.edgeTypes = [] ∨ data.nodeValuesSeen % data.nodeFields.length ≠ 0
      ∨ data.edgeValuesSeen % data.edgeFields.length ≠ 0 then none
  else some {
    nodeWidth := data.nodeFields.length
    edgeWidth := data.edgeFields.length
    nodeTypeField, nodeNameField, nodeIdField, nodeSizeField, nodeEdgeCountField
    edgeTypeField, edgeNameField, edgeTargetField
    storedNodes := data.nodes.length / data.nodeFields.length
    storedEdges := data.edges.length / data.edgeFields.length }

structure SnapshotStats where
  fileBytes : Nat
  totalNodes : Nat
  totalEdges : Nat
  totalStrings : Nat
  nodeLimitReached : Bool
  edgeLimitReached : Bool
  stringLimitReached : Bool
  deriving DecidableEq, Repr

structure Loaded where
  data : SnapshotData
  layout : SnapshotLayout
  stats : SnapshotStats
  deriving DecidableEq, Repr

def loadSnapshot (limits : Limits) (document : List UInt8) : Except Failure Loaded :=
  if document = [] ∨ document.length > kHeapSnapshotMaxFileBytes then .error .file
  else
    match parseSnapshotDocument limits document with
    | none => .error .document
    | some data =>
        match snapshotLayout data with
        | none => .error .layout
        | some layout =>
            if data.declaredNodes ≠ data.nodeValuesSeen / layout.nodeWidth
                ∨ data.declaredEdges ≠ data.edgeValuesSeen / layout.edgeWidth then .error .counts
            else .ok {
              data, layout
              stats := {
                fileBytes := document.length
                totalNodes := data.declaredNodes
                totalEdges := data.declaredEdges
                totalStrings := data.stringsSeen
                nodeLimitReached := data.nodeValuesTruncated
                edgeLimitReached := data.edgeValuesTruncated
                stringLimitReached := data.stringsTruncated } }

/-! ## Texts -/

/-- `StringAt`: nothing past the end. -/
def stringAt (data : SnapshotData) (index : Nat) : List UInt8 := data.strings.getD index []

def asciiFold (character : UInt8) : UInt8 :=
  if 0x41 ≤ character ∧ character ≤ 0x5a then character - 0x41 + 0x61 else character

/-- `ContainsText`: the needle is folded already where case does not count. -/
def containsText (haystack needle : List UInt8) (caseSensitive : Bool) : Bool :=
  if caseSensitive then decide (needle <:+: haystack) else decide (needle <:+: haystack.map asciiFold)

def boundedText (value : List UInt8) (limit : Nat) : List UInt8 :=
  if value.length ≤ limit then value
  else if limit ≤ 3 then value.take limit
  else value.take (limit - 3) ++ text "..."

namespace Loaded

variable (s : Loaded)

/-- A field of a node. -/
def nodeField (ordinal field : Nat) : Nat := s.data.nodes.getD (ordinal * s.layout.nodeWidth + field) 0

/-- A field of an edge. -/
def edgeField (ordinal field : Nat) : Nat := s.data.edges.getD (ordinal * s.layout.edgeWidth + field) 0

/-- `NodeTypeAt`. -/
def nodeType (ordinal : Nat) : List UInt8 :=
  s.data.nodeTypes.getD (s.nodeField ordinal s.layout.nodeTypeField) (text "unknown")

/-- The string that a node is named by. -/
def nodeName (ordinal : Nat) : List UInt8 :=
  stringAt s.data (s.nodeField ordinal s.layout.nodeNameField)

def nodeId (ordinal : Nat) : Nat := s.nodeField ordinal s.layout.nodeIdField

def selfSize (ordinal : Nat) : Nat := s.nodeField ordinal s.layout.nodeSizeField

/-- How many edges a node says it owns. -/
def edgeCount (ordinal : Nat) : Nat := s.nodeField ordinal s.layout.nodeEdgeCountField

/-- `EdgeTypeAt`. -/
def edgeType (edge : Nat) : List UInt8 :=
  s.data.edgeTypes.getD (s.edgeField edge s.layout.edgeTypeField) (text "unknown")

/-- `EdgeName`. -/
def edgeName (edge : Nat) : List UInt8 :=
  let type := s.edgeType edge
  let nameOrIndex := s.edgeField edge s.layout.edgeNameField
  if type = text "element" ∨ type = text "hidden" then text ("[" ++ toString nameOrIndex ++ "]")
  else
    let name := stringAt s.data nameOrIndex
    if name = [] then type else boundedText name 128

def isWeakEdge (edge : Nat) : Bool := s.edgeType edge == text "weak"

/-! ## Edges -/

/-- The largest `GraphIndex`, `kNoGraphIndex`. -/
def maxGraphIndex : Nat := 2 ^ 32 - 1

/-- The node that an edge points at, when it points at a stored node. -/
def storedTarget (edge : Nat) : Option Nat :=
  let target := s.edgeField edge s.layout.edgeTargetField
  if target % s.layout.nodeWidth ≠ 0 then none
  else if target / s.layout.nodeWidth ≥ s.layout.storedNodes then none
  else some (target / s.layout.nodeWidth)

/-- `EdgeTarget`. -/
def edgeTarget (edge : Nat) : Option Nat :=
  if edge ≥ s.layout.storedEdges then none
  else if s.isWeakEdge edge then none
  else (s.storedTarget edge).filter (· < maxGraphIndex)

/-- The edge counts of the stored nodes. -/
def edgeCounts : List Nat := (List.range s.layout.storedNodes).map s.edgeCount

/-- The loop of `BuildEdgeStarts`. -/
def edgeStarts : List Nat → List Nat → Nat → Except Failure (List Nat × Nat)
  | [], starts, cursor => .ok (starts, cursor)
  | count :: counts, starts, cursor =>
      if count > maxGraphIndex - cursor then .error .edgeOverflow
      else edgeStarts counts (starts ++ [cursor]) (cursor + count)

def buildEdgeStarts : Except Failure (List Nat) :=
  match edgeStarts s.edgeCounts [] 0 with
  | .error failure => .error failure
  | .ok (starts, cursor) =>
      if !s.data.edgeValuesTruncated ∧ cursor ≠ s.layout.storedEdges then .error .edgeMismatch
      else .ok starts

/-- The loop of `ValidateEdgeCounts`. -/
def countEdges : List Nat → Nat → Except Failure Nat
  | [], cursor => .ok cursor
  | count :: counts, cursor =>
      if count > 2 ^ 64 - 1 - cursor then .error .edgeOverflow
      else countEdges counts (cursor + count)

def validateEdgeCounts : Except Failure Unit :=
  match countEdges s.edgeCounts 0 with
  | .error failure => .error failure
  | .ok cursor =>
      if !s.data.edgeValuesTruncated ∧ cursor ≠ s.layout.storedEdges then .error .edgeMismatch
      else .ok ()

/-- The edges from `first` on that a node owns, as far as they are stored. -/
def edgeRun (starts : List Nat) (source : Nat) : List Nat :=
  let first := starts.getD source 0
  List.range' first (min s.layout.storedEdges (first + s.edgeCount source) - first)

end Loaded

end Reb.Analysis.Snapshot
