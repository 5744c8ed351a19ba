/-
# Worker.NativeWorkerAuthority -- the browser's table of dedicated workers

What the browser is told about workers, renderers and the selected document, and
what it concludes: `resolve` follows a worker's creators through the table, `issue`
grants the one current lease, `isCurrent` says whether a lease still stands.

A table is the list of its retained entries; the array's slots behind them are
never read.
-/
import Reb.Worker.NativeWorkerObservation

namespace Reb.Worker

set_option autoImplicit false

def kNativeWorkerAuthorityCapacity : Nat := 64

structure NativeWorkerAuthorityScope where
  observerEpoch : Nat := 0
  sessionId : Nat := 0
  documentGeneration : Nat := 0
  expiresAtNs : Nat := 0
  browserContext : NativeWorkerToken := {}
  storagePartition : NativeWorkerToken := {}
  selectedFrame : NativeWorkerToken := {}
  selectedDocument : NativeWorkerToken := {}
  deriving DecidableEq, Repr

structure NativeWorkerOwner where
  worker : NativeWorkerToken := {}
  rendererInstance : NativeWorkerToken := {}
  creator : NativeWorkerToken := {}
  creatorKind : NativeWorkerCreatorKind := .document
  creatorDocument : NativeWorkerToken := {}
  documentGeneration : Nat := 0
  deriving DecidableEq, Repr

inductive NativeWorkerAuthorityStatus where
  | allowed | recorded | duplicate | disabled | staleEpoch | invalid | expired | full
  | unknownWorker | unresolvedParent | retired | ambiguous | cycle | wrongDocument
  | sequenceExhausted
  deriving DecidableEq, Repr

structure NativeWorkerAuthorityStats where
  created : Nat := 0
  destroyed : Nat := 0
  rejected : Nat := 0
  capacityDrops : Nat := 0
  ambiguous : Nat := 0
  deriving DecidableEq, Repr

structure Entry where
  owner : NativeWorkerOwner := {}
  retired : Bool := false
  ambiguous : Bool := false
  deriving DecidableEq, Repr

/-- `retained_workers` and `retired_renderers` are the lengths of the two tables. -/
structure NativeWorkerAuthority where
  scope : NativeWorkerAuthorityScope := {}
  current : NativeWorkerLease := {}
  stats : NativeWorkerAuthorityStats := {}
  entries : List Entry := []
  retiredRenderers : List NativeWorkerToken := []
  greatestEpoch : Nat := 0
  generation : Nat := 0
  active : Bool := false
  deriving DecidableEq, Repr

namespace NativeWorkerAuthority

variable (authority : NativeWorkerAuthority)

def reject : NativeWorkerAuthority :=
  { authority with stats := { authority.stats with rejected := increment authority.stats.rejected } }

def dropForCapacity : NativeWorkerAuthority :=
  { authority with
    stats := { authority.stats with capacityDrops := increment authority.stats.capacityDrops } }

def reset (scope : NativeWorkerAuthorityScope) (nowNs : Nat) : Bool × NativeWorkerAuthority :=
  let disabled := { authority with active := false, current := {} }
  if scope.observerEpoch ≤ authority.greatestEpoch || scope.sessionId == 0 ||
      scope.documentGeneration == 0 || !scope.browserContext.valid ||
      !scope.storagePartition.valid || !scope.selectedFrame.valid ||
      !scope.selectedDocument.valid || scope.expiresAtNs ≤ nowNs ||
      scope.expiresAtNs - nowNs > kNativeWorkerMaxLeaseNs then
    (false, disabled.reject)
  else
    (true, { disabled with
      greatestEpoch := scope.observerEpoch, scope
      entries := [], retiredRenderers := [], active := true })

/-- The index of the worker's entry, or the number of entries. -/
def find (worker : NativeWorkerToken) : Nat :=
  authority.entries.findIdx fun entry => entry.owner.worker == worker

/-- `entries_[index]`. -/
def entry (index : Nat) : Entry := authority.entries.getD index {}

def setEntry (index : Nat) (change : Entry → Entry) : NativeWorkerAuthority :=
  { authority with entries := authority.entries.modify index change }

def revoke (observerEpoch : Nat) : Bool × NativeWorkerAuthority :=
  if observerEpoch != authority.scope.observerEpoch || !authority.active then (false, authority)
  else (true, { authority with active := false, current := {} })

/-- What a report of a creation must say of the worker. -/
def ownerValid (owner : NativeWorkerOwner) : Bool :=
  owner.worker.valid && owner.rendererInstance.valid && owner.creator.valid &&
    owner.worker != owner.creator &&
    (owner.creatorKind == .document || owner.creatorKind == .dedicatedWorker) &&
    (if owner.creatorKind == .document then
      owner.creatorDocument.valid && owner.documentGeneration != 0
    else !owner.creatorDocument.valid && owner.documentGeneration == 0)

def created (observerEpoch : Nat) (owner : NativeWorkerOwner) (nowNs : Nat) :
    NativeWorkerAuthorityStatus × NativeWorkerAuthority :=
  if observerEpoch != authority.scope.observerEpoch then (.staleEpoch, authority)
  else if !authority.active then (.disabled, authority)
  else if authority.scope.expiresAtNs ≤ nowNs then (.expired, (authority.revoke observerEpoch).2)
  else if !ownerValid owner then (.invalid, authority.reject)
  else if authority.retiredRenderers.contains owner.rendererInstance then (.retired, authority)
  else
    let index := authority.find owner.worker
    if index < authority.entries.length then
      if (authority.entry index).retired then (.retired, authority)
      else if (authority.entry index).ambiguous then (.ambiguous, authority)
      else if (authority.entry index).owner == owner then (.duplicate, authority)
      else
        let marked := authority.setEntry index fun entry : Entry => { entry with ambiguous := true }
        (.ambiguous, { marked with
          stats := { marked.stats with ambiguous := increment marked.stats.ambiguous } })
    else if authority.entries.length == kNativeWorkerAuthorityCapacity then
      (.full, authority.dropForCapacity)
    else
      (.recorded, { authority with
        entries := authority.entries ++ [{ owner }]
        stats := { authority.stats with created := increment authority.stats.created } })

/-- The entry of a worker that is reported destroyed: a tombstone where it was unknown. -/
def retire (index : Nat) : NativeWorkerAuthorityStatus × NativeWorkerAuthority :=
  if (authority.entry index).retired then (.duplicate, authority)
  else
    let marked := authority.setEntry index fun entry : Entry => { entry with retired := true }
    (.recorded, { marked with
      stats := { marked.stats with destroyed := increment marked.stats.destroyed } })

def destroyed (observerEpoch : Nat) (worker : NativeWorkerToken) :
    NativeWorkerAuthorityStatus × NativeWorkerAuthority :=
  if observerEpoch != authority.scope.observerEpoch then (.staleEpoch, authority)
  else if !authority.active then (.disabled, authority)
  else if !worker.valid then (.invalid, authority)
  else
    let index := authority.find worker
    if index == authority.entries.length then
      if index == kNativeWorkerAuthorityCapacity then (.full, authority.dropForCapacity)
      else
        let placed : NativeWorkerAuthority :=
          { authority with entries := authority.entries ++ [{ owner := { worker } }] }
        placed.retire index
    else authority.retire index

/-- The loop over the table: every entry of the renderer is retired, and counted once. -/
def retireRenderer (renderer : NativeWorkerToken) : NativeWorkerAuthority :=
  let hit (entry : Entry) : Bool := entry.owner.rendererInstance == renderer && !entry.retired
  { authority with
    entries := authority.entries.map fun entry =>
      if hit entry then { entry with retired := true } else entry
    stats := { authority.stats with
      destroyed := (authority.entries.filter hit).foldl (fun count _ => increment count)
        authority.stats.destroyed } }

def rendererDestroyed (observerEpoch : Nat) (renderer : NativeWorkerToken) :
    NativeWorkerAuthorityStatus × NativeWorkerAuthority :=
  if observerEpoch != authority.scope.observerEpoch then (.staleEpoch, authority)
  else if !authority.active then (.disabled, authority)
  else if !renderer.valid then (.invalid, authority)
  else if authority.retiredRenderers.contains renderer then (.duplicate, authority)
  else if authority.retiredRenderers.length == kNativeWorkerAuthorityCapacity then
    (.full, (authority.dropForCapacity.revoke observerEpoch).2)
  else
    let tombstoned := { authority with
      retiredRenderers := authority.retiredRenderers ++ [renderer] }
    (.recorded, tombstoned.retireRenderer renderer)

def documentDestroyed (observerEpoch : Nat) (document : NativeWorkerToken)
    (documentGeneration : Nat) : Bool × NativeWorkerAuthority :=
  if authority.scope.selectedDocument == document &&
      authority.scope.documentGeneration == documentGeneration then authority.revoke observerEpoch
  else (false, authority)

/-- Where a chain of creators ends at a document. -/
def endsAt (owner : NativeWorkerOwner) : NativeWorkerAuthorityStatus :=
  if owner.creator == authority.scope.selectedFrame &&
      owner.creatorDocument == authority.scope.selectedDocument &&
      owner.documentGeneration == authority.scope.documentGeneration then .allowed
  else .wrongDocument

/-- The loop of `Resolve`, with `hops` turns left.  An index is below 64, so its bit fits. -/
def resolveFrom : Nat → Nat → Nat → NativeWorkerAuthorityStatus
  | 0, _, _ => .cycle
  | hops + 1, index, visited =>
      let bit := 1 <<< index
      if visited &&& bit != 0 then .cycle
      else
        let entry := authority.entry index
        if entry.retired then .retired
        else if entry.ambiguous then .ambiguous
        else if entry.owner.creatorKind == .document then authority.endsAt entry.owner
        else
          let next := authority.find entry.owner.creator
          if next == authority.entries.length then .unresolvedParent
          else resolveFrom hops next (visited ||| bit)

def resolve (worker : NativeWorkerToken) (nowNs : Nat) : NativeWorkerAuthorityStatus :=
  if !authority.active then .disabled
  else if authority.scope.expiresAtNs ≤ nowNs then .expired
  else
    let index := authority.find worker
    if index == authority.entries.length then .unknownWorker
    else authority.resolveFrom kNativeWorkerAuthorityCapacity index 0

/-- The lease is what the caller is given; it is empty unless the status is `allowed`. -/
def issue (worker connection : NativeWorkerToken) (nowNs : Nat) :
    NativeWorkerAuthorityStatus × NativeWorkerLease × NativeWorkerAuthority :=
  let status := authority.resolve worker nowNs
  if status != .allowed then (status, {}, authority)
  else if !connection.valid then (.invalid, {}, authority)
  else if authority.generation == uint64Max then
    (.sequenceExhausted, {}, (authority.revoke authority.scope.observerEpoch).2)
  else
    let owner := (authority.entry (authority.find worker)).owner
    let scope := authority.scope
    let lease : NativeWorkerLease :=
      { policy :=
          { sessionId := scope.sessionId, generation := authority.generation + 1
            expiresAtMonotonicNs := scope.expiresAtNs, browserContext := scope.browserContext
            rendererInstance := owner.rendererInstance, worker := owner.worker
            creator := owner.creator, creatorKind := owner.creatorKind }
        storagePartition := scope.storagePartition, selectedFrame := scope.selectedFrame
        selectedDocument := scope.selectedDocument, connection
        documentGeneration := scope.documentGeneration, observerEpoch := scope.observerEpoch
        issuedAtNs := nowNs }
    (.allowed, lease, { authority with generation := authority.generation + 1, current := lease })

def isCurrent (lease : NativeWorkerLease) (nowNs : Nat) : Bool :=
  authority.active && lease == authority.current && isValidNativeWorkerLease lease nowNs &&
    authority.resolve lease.policy.worker nowNs == .allowed

/-! ## Runs -/

/-- What the authority is told, in the order it is told. -/
inductive Report where
  | reset (scope : NativeWorkerAuthorityScope) (nowNs : Nat)
  | created (observerEpoch : Nat) (owner : NativeWorkerOwner) (nowNs : Nat)
  | destroyed (observerEpoch : Nat) (worker : NativeWorkerToken)
  | rendererDestroyed (observerEpoch : Nat) (renderer : NativeWorkerToken)
  | documentDestroyed (observerEpoch : Nat) (document : NativeWorkerToken)
      (documentGeneration : Nat)
  | revoke (observerEpoch : Nat)
  | issue (worker connection : NativeWorkerToken) (nowNs : Nat)
  deriving DecidableEq, Repr

def told : Report → NativeWorkerAuthority
  | .reset scope nowNs => (authority.reset scope nowNs).2
  | .created observerEpoch owner nowNs => (authority.created observerEpoch owner nowNs).2
  | .destroyed observerEpoch worker => (authority.destroyed observerEpoch worker).2
  | .rendererDestroyed observerEpoch renderer => (authority.rendererDestroyed observerEpoch renderer).2
  | .documentDestroyed observerEpoch document documentGeneration =>
      (authority.documentDestroyed observerEpoch document documentGeneration).2
  | .revoke observerEpoch => (authority.revoke observerEpoch).2
  | .issue worker connection nowNs => (authority.issue worker connection nowNs).2.2

def run (reports : List Report) : NativeWorkerAuthority := reports.foldl told authority

end NativeWorkerAuthority

end Reb.Worker
