/-
# Analysis.SnapshotSearch -- searching and probing a heap snapshot

The search walks the stored graph breadth first from node 0 and keeps for every node
the edge it was found by, looks for the query in every node's name, and reports for
the first matches how they are retained and which edges point at them.  The probe walks the
graph only for the scopes that ask which nodes are reachable, and stops at the first match.
-/
import Reb.Analysis.Snapshot
import Reb.Theory.BreadthFirst

namespace Reb.Analysis.Snapshot

open Reb.Theory.Worklist

set_option autoImplicit false

def kHeapSnapshotMaxResults : Nat := 50
def kHeapSnapshotMaxRetainingDepth : Nat := 12
def kHeapSnapshotMaxIncomingReferences : Nat := 12

inductive SearchScope where
  | all | reachable | unreachable
  deriving DecidableEq, Repr

def matchesSearchScope (reachable : Bool) : SearchScope → Bool
  | .all => true
  | .reachable => reachable
  | .unreachable => !reachable

/-- The query as it is looked for. -/
def searchQuery (query : List UInt8) (caseSensitive : Bool) : List UInt8 :=
  if caseSensitive then query else query.map asciiFold

structure RetainingStep where
  edgeType : List UInt8
  edgeName : List UInt8
  nodeType : List UInt8
  nodeName : List UInt8
  deriving DecidableEq, Repr

structure IncomingReference where
  sourceNodeId : Nat
  edgeType : List UInt8
  edgeName : List UInt8
  sourceNodeType : List UInt8
  sourceNodeName : List UInt8
  deriving DecidableEq, Repr

structure SnapshotMatch where
  nodeId : Nat
  selfSize : Nat
  nodeType : List UInt8
  nodeName : List UInt8
  incomingReferenceCount : Nat := 0
  retainingPath : List RetainingStep := []
  incomingReferences : List IncomingReference := []
  reachable : Bool
  retainingPathComplete : Bool := false
  incomingReferenceLimitReached : Bool := false
  deriving DecidableEq, Repr

structure SearchResult where
  fileBytes : Nat
  totalNodes : Nat
  analyzedNodes : Nat
  matchedNodes : Nat
  reachableNodes : Nat
  totalEdges : Nat
  indexedEdges : Nat
  totalStrings : Nat
  durationMs : Nat
  resultLimit : Nat
  referenceLimit : Nat
  scope : SearchScope
  resultLimitReached : Bool
  nodeLimitReached : Bool
  edgeLimitReached : Bool
  stringLimitReached : Bool
  retainingPathsPartial : Bool
  found : List SnapshotMatch
  deriving DecidableEq, Repr

/-! ## The walk -/

/-- `kNoGraphIndex` is `none`. -/
structure Walk where
  parents : List (Option Nat)
  parentEdges : List (Option Nat)
  pending : List Nat
  deriving DecidableEq, Repr

namespace Loaded

variable (s : Loaded)

def walkEdge (source : Nat) (walk : Walk) (edge : Nat) : Walk :=
  match s.edgeTarget edge with
  | none => walk
  | some target =>
      if (walk.parents.getD target none).isSome then walk
      else {
        parents := walk.parents.set target (some source)
        parentEdges := walk.parentEdges.set target (some edge)
        pending := walk.pending ++ [target] }

def walkNode (starts : List Nat) (walk : Walk) (source : Nat) : Walk :=
  (s.edgeRun starts source).foldl (s.walkEdge source) walk

/-- The nodes before the walk: only node 0 is pending, its own parent. -/
def walkStart : Walk where
  parents := (List.replicate s.layout.storedNodes none).set 0 (some 0)
  parentEdges := List.replicate s.layout.storedNodes none
  pending := [0]

/-- Every node is pending at most once. -/
def walkFrom (starts : List Nat) : Walk :=
  drain Walk.pending (s.walkNode starts) s.layout.storedNodes 0 s.walkStart

/-- The edge runs and the walk; without nodes there are none. -/
def indexReferences : Except Failure (List Nat × Walk) :=
  if s.layout.storedNodes = 0 then .ok ([], { parents := [], parentEdges := [], pending := [] })
  else s.buildEdgeStarts.map fun starts => (starts, s.walkFrom starts)

/-! ## Matches -/

/-- The nodes of the scope that the query is found in. -/
def isMatch (needle : List UInt8) (caseSensitive : Bool) (scope : SearchScope) (walk : Walk)
    (ordinal : Nat) : Bool :=
  matchesSearchScope (walk.parents.getD ordinal none).isSome scope
    && containsText (s.nodeName ordinal) needle caseSensitive

structure Matching where
  analyzedNodes : Nat := 0
  matchedNodes : Nat := 0
  matchNodes : List Nat := []
  deriving DecidableEq, Repr

def matchNode (needle : List UInt8) (caseSensitive : Bool) (scope : SearchScope) (limit : Nat)
    (walk : Walk) (found : Matching) (ordinal : Nat) : Matching :=
  let found := { found with analyzedNodes := found.analyzedNodes + 1 }
  if s.isMatch needle caseSensitive scope walk ordinal then
    let found := { found with matchedNodes := found.matchedNodes + 1 }
    if found.matchNodes.length ≥ limit then found
    else { found with matchNodes := found.matchNodes ++ [ordinal] }
  else found

def matching (needle : List UInt8) (caseSensitive : Bool) (scope : SearchScope) (limit : Nat)
    (walk : Walk) : Matching :=
  (List.range s.layout.storedNodes).foldl (s.matchNode needle caseSensitive scope limit walk) {}

/-! ## Retaining paths -/

def retainingStep (node edge : Nat) : RetainingStep where
  edgeType := boundedText (s.edgeType edge) 32
  edgeName := s.edgeName edge
  nodeType := boundedText (s.nodeType node) 64
  nodeName := boundedText (s.nodeName node) 256

/-- The loop back to node 0; the path is kept in the order that it has in the end. -/
def retainingPath (walk : Walk) : Nat → Nat → List RetainingStep → Nat × List RetainingStep
  | 0, current, path => (current, path)
  | room + 1, current, path =>
      if current = 0 then (current, path)
      else
        match walk.parentEdges.getD current none with
        | none => (current, path)
        | some edge =>
            if edge ≥ s.layout.storedEdges then (current, path)
            else
              retainingPath walk room ((walk.parents.getD current none).getD maxGraphIndex)
                (s.retainingStep current edge :: path)

/-! ## Incoming references -/

def incomingReferencePriority (edgeType : List UInt8) : Nat :=
  if edgeType = text "internal" ∨ edgeType = text "hidden" then 0
  else if edgeType = text "weak" then 1
  else if edgeType = text "context" ∨ edgeType = text "shortcut" then 2
  else 3

structure Candidate where
  sourceNodeId : Nat
  sourceNode : Nat
  edge : Nat
  priority : Nat
  deriving DecidableEq, Repr

/-- `BetterIncomingReferenceCandidate`. -/
def better (left right : Candidate) : Bool :=
  if left.priority ≠ right.priority then left.priority < right.priority
  else if left.sourceNodeId ≠ right.sourceNodeId then left.sourceNodeId < right.sourceNodeId
  else left.edge < right.edge

/-- The front of the heap: no candidate is worse. -/
def worst (first : Candidate) (rest : List Candidate) : Candidate :=
  rest.foldl (fun worst candidate => if better worst candidate then candidate else worst) first

/-- `KeepTopIncomingReference`; the heap is a list whose front is looked for. -/
def keepTop (candidate : Candidate) (references : List Candidate) : List Candidate :=
  if references.length < kHeapSnapshotMaxIncomingReferences then references ++ [candidate]
  else
    match references with
    | [] => []
    | first :: rest =>
        if better candidate (worst first rest) then
          (first :: rest).erase (worst first rest) ++ [candidate]
        else references

/-- How many edges point at a match, and the ones that are kept. -/
structure Incoming where
  count : Nat := 0
  candidates : List Candidate := []
  deriving DecidableEq, Repr

def candidate (source edge : Nat) : Candidate where
  sourceNodeId := s.nodeId source
  sourceNode := source
  edge := edge
  priority := incomingReferencePriority (s.edgeType edge)

/-- `match_lookup` is the index of the target among the matches. -/
def referenceEdge (matchNodes : List Nat) (source : Nat) (table : List Incoming) (edge : Nat) :
    List Incoming :=
  match s.storedTarget edge with
  | none => table
  | some target =>
      match matchNodes.findIdx? (· == target) with
      | none => table
      | some index =>
          table.modify index fun incoming => {
            count := incoming.count + 1
            candidates := keepTop (s.candidate source edge) incoming.candidates }

def references (starts : List Nat) (matchNodes : List Nat) : List Incoming :=
  (List.range s.layout.storedNodes).foldl
    (fun table source => (s.edgeRun starts source).foldl (s.referenceEdge matchNodes source) table)
    (matchNodes.map fun _ => {})

def incomingReference (candidate : Candidate) : IncomingReference where
  sourceNodeId := candidate.sourceNodeId
  edgeType := boundedText (s.edgeType candidate.edge) 32
  edgeName := s.edgeName candidate.edge
  sourceNodeType := boundedText (s.nodeType candidate.sourceNode) 64
  sourceNodeName := boundedText (s.nodeName candidate.sourceNode) 256

/-! ## The report -/

/-- A match with its path, and whether that path was cut short. -/
def reportMatch (walk : Walk) (node : Nat) (incoming : Incoming) : SnapshotMatch :=
  let reachable := (walk.parents.getD node none).isSome
  let path := s.retainingPath walk kHeapSnapshotMaxRetainingDepth node []
  {
    nodeId := s.nodeId node
    selfSize := s.selfSize node
    nodeType := boundedText (s.nodeType node) 64
    nodeName := boundedText (s.nodeName node) 256
    incomingReferenceCount := incoming.count
    retainingPath := if reachable then path.2 else []
    incomingReferences :=
      (incoming.candidates.mergeSort fun left right => !better right left).map s.incomingReference
    reachable
    retainingPathComplete := reachable && path.1 == 0
    incomingReferenceLimitReached := incoming.count > incoming.candidates.length }

def report (starts : List Nat) (walk : Walk) (query : List UInt8) (caseSensitive : Bool)
    (scope : SearchScope) (resultLimit elapsed : Nat) : SearchResult :=
  let found := s.matching (searchQuery query caseSensitive) caseSensitive scope resultLimit walk
  let matchesFound :=
    found.matchNodes.zipWith (s.reportMatch walk) (s.references starts found.matchNodes)
  {
    fileBytes := s.stats.fileBytes
    totalNodes := s.stats.totalNodes
    analyzedNodes := found.analyzedNodes
    matchedNodes := found.matchedNodes
    reachableNodes := walk.pending.length
    totalEdges := s.stats.totalEdges
    indexedEdges := s.layout.storedEdges
    totalStrings := s.stats.totalStrings
    durationMs := elapsed
    resultLimit
    referenceLimit := kHeapSnapshotMaxIncomingReferences
    scope
    resultLimitReached := found.matchedNodes > resultLimit
    nodeLimitReached := s.stats.nodeLimitReached
    edgeLimitReached := s.stats.edgeLimitReached
    stringLimitReached := s.stats.stringLimitReached
    retainingPathsPartial := matchesFound.any fun found => found.reachable && !found.retainingPathComplete
    found := matchesFound }

end Loaded

/-- `SearchV8HeapSnapshot`; the time that it takes is given. -/
def searchV8HeapSnapshot (document query : List UInt8) (caseSensitive : Bool) (scope : SearchScope)
    (requestedResultLimit elapsed : Nat) : Except Failure SearchResult :=
  let resultLimit := min requestedResultLimit kHeapSnapshotMaxResults
  if query = [] ∨ query.length > 512 ∨ resultLimit = 0 then .error .request
  else
    match loadSnapshot .program document with
    | .error failure => .error failure
    | .ok s =>
        if s.layout.storedNodes ≥ Loaded.maxGraphIndex ∨ s.layout.storedEdges ≥ Loaded.maxGraphIndex then
          .error .nativeIndex
        else
          s.indexReferences.map fun (starts, walk) =>
            s.report starts walk query caseSensitive scope resultLimit elapsed

end Reb.Analysis.Snapshot

namespace Reb.Analysis.Snapshot

open Reb.Theory.Worklist

/-! # The probe -/

structure ProbeMatch where
  nodeId : Nat := 0
  selfSize : Nat := 0
  nodeType : List UInt8 := []
  nodeName : List UInt8 := []
  deriving DecidableEq, Repr

structure ProbeResult where
  fileBytes : Nat
  totalNodes : Nat
  analyzedNodes : Nat
  reachableNodes : Nat
  totalEdges : Nat
  indexedEdges : Nat
  totalStrings : Nat
  durationMs : Nat
  scope : SearchScope
  matchFound : Bool
  reachabilityIndexed : Bool
  nodeLimitReached : Bool
  edgeLimitReached : Bool
  stringLimitReached : Bool
  found : ProbeMatch
  deriving DecidableEq, Repr

/-- The marks of the nodes that were come to. -/
structure Marks where
  reachable : List Bool
  pending : List Nat
  deriving DecidableEq, Repr

namespace Loaded

variable (s : Loaded)

def markEdge (marks : Marks) (edge : Nat) : Marks :=
  match s.edgeTarget edge with
  | none => marks
  | some target =>
      if marks.reachable.getD target false then marks
      else { reachable := marks.reachable.set target true, pending := marks.pending ++ [target] }

def markNode (starts : List Nat) (marks : Marks) (source : Nat) : Marks :=
  (s.edgeRun starts source).foldl s.markEdge marks

def markStart : Marks where
  reachable := (List.replicate s.layout.storedNodes false).set 0 true
  pending := [0]

def markFrom (starts : List Nat) : Marks :=
  drain Marks.pending (s.markNode starts) s.layout.storedNodes 0 s.markStart

/-- The marks, where the scope asks for them and there are nodes. -/
def indexReachable (scope : SearchScope) : Except Failure Marks :=
  if scope = .all ∨ s.layout.storedNodes = 0 then .ok { reachable := [], pending := [] }
  else s.buildEdgeStarts.map s.markFrom

/-- A mark; there are none where reachability is not asked for. -/
def isMarked (needle : List UInt8) (caseSensitive : Bool) (scope : SearchScope) (marks : Marks)
    (ordinal : Nat) : Bool :=
  matchesSearchScope (marks.reachable.getD ordinal false) scope
    && containsText (s.nodeName ordinal) needle caseSensitive

/-- The loop up to the first match: how many nodes it has looked at, and the match. -/
def probeNodes (accept : Nat → Bool) : List Nat → Nat → Nat × Option Nat
  | [], analyzed => (analyzed, none)
  | ordinal :: ordinals, analyzed =>
      if accept ordinal then (analyzed + 1, some ordinal)
      else probeNodes accept ordinals (analyzed + 1)

def probeMatch (ordinal : Nat) : ProbeMatch where
  nodeId := s.nodeId ordinal
  selfSize := s.selfSize ordinal
  nodeType := boundedText (s.nodeType ordinal) 64
  nodeName := boundedText (s.nodeName ordinal) 256

def probeReport (marks : Marks) (query : List UInt8) (caseSensitive : Bool) (scope : SearchScope)
    (elapsed : Nat) : ProbeResult :=
  let (analyzed, first) :=
    probeNodes (s.isMarked (searchQuery query caseSensitive) caseSensitive scope marks)
      (List.range s.layout.storedNodes) 0
  {
    fileBytes := s.stats.fileBytes
    totalNodes := s.stats.totalNodes
    analyzedNodes := analyzed
    reachableNodes := marks.pending.length
    totalEdges := s.stats.totalEdges
    indexedEdges := if scope = .all then 0 else s.layout.storedEdges
    totalStrings := s.stats.totalStrings
    durationMs := elapsed
    scope
    matchFound := first.isSome
    reachabilityIndexed := scope != .all
    nodeLimitReached := s.stats.nodeLimitReached
    edgeLimitReached := s.stats.edgeLimitReached
    stringLimitReached := s.stats.stringLimitReached
    found := first.elim {} s.probeMatch }

end Loaded

/-- `ProbeV8HeapSnapshot`; the time that it takes is given. -/
def probeV8HeapSnapshot (document query : List UInt8) (caseSensitive : Bool) (scope : SearchScope)
    (elapsed : Nat) : Except Failure ProbeResult :=
  if query = [] ∨ query.length > 512 then .error .request
  else
    match loadSnapshot .program document with
    | .error failure => .error failure
    | .ok s =>
        if s.layout.storedNodes ≥ Loaded.maxGraphIndex ∨ s.layout.storedEdges ≥ Loaded.maxGraphIndex then
          .error .nativeIndex
        else
          match s.validateEdgeCounts with
          | .error failure => .error failure
          | .ok _ =>
              (s.indexReachable scope).map fun marks =>
                s.probeReport marks query caseSensitive scope elapsed

end Reb.Analysis.Snapshot
