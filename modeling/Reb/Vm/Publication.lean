/-
# Vm.Publication -- publishing the chain of VM documents

`publish` in `vm.rs`: analysis, then the opcode workspace that names its digest, then
the host links that name the workspace's.  A process stands between two operations on
the store at a named point, with the documents it still reports as available.  Every
operation may fail, and a process may crash wherever it stands; the operating system
then drops its lease.

`Value` is a JSON value, `member` its indexing and `canonical` its canonical text.
-/
import Reb.Theory.Interleaving

namespace Reb.Vm

set_option autoImplicit false

open Theory.Interleaving

structure Error where
  status : Nat
  message : String
  deriving DecidableEq, Repr

/-! ## Documents -/

def chain : Fin 3 → String
  | 0 => "analysis/vm-analysis-v1.json"
  | 1 => "analysis/vm-opcode-workspace-v2.json"
  | 2 => "analysis/vm-host-links-v1.json"

structure Documents (Value : Type) where
  analysis : Value
  opcodeWorkspace : Except Error Value
  hostLinks : Except Error Value
  deriving Repr

namespace Documents

variable {Value : Type}

/-- The document at `index` of the chain. -/
def document (documents : Documents Value) : Fin 3 → Except Error Value
  | 0 => .ok documents.analysis
  | 1 => documents.opcodeWorkspace
  | 2 => documents.hostLinks

def failFrom (documents : Documents Value) (index : Fin 3) (error : Error) : Documents Value :=
  { documents with
    opcodeWorkspace := if index = 1 then .error error else documents.opcodeWorkspace
    hostLinks := .error error }

end Documents

/-- One build: `vm_opcode::document` and `vm_host_links::document` over its inputs.  Each
names the digest of the document it is given. -/
structure Build {Value : Type} (member : Value → String → Value) where
  analysis : Value
  opcodeDocument : Value → Except Error Value
  hostLinksDocument : Value → Except Error Value
  namesAnalysis : ∀ source workspace, opcodeDocument source = .ok workspace →
    member workspace "analysis_digest" = member source "document_digest"
  namesWorkspace : ∀ source links, hostLinksDocument source = .ok links →
    member links "workspace_document_digest" = member source "document_digest"

/-- The end of `build_documents`. -/
def Build.documents {Value : Type} {member : Value → String → Value} (build : Build member) :
    Documents Value :=
  let opcodeWorkspace := build.opcodeDocument build.analysis
  { analysis := build.analysis
    opcodeWorkspace
    hostLinks := opcodeWorkspace.bind build.hostLinksDocument }

/-! ## The store -/

/-- What a path of the chain holds. -/
inductive Entry (Bytes : Type) where
  | absent
  | directory
  | file (bytes : Bytes)
  deriving DecidableEq, Repr

structure Store (ι Bytes : Type) where
  entries : Fin 3 → Entry Bytes
  lease : Option ι

namespace Store

variable {ι Bytes : Type}

def set (store : Store ι Bytes) (index : Fin 3) (entry : Entry Bytes) : Store ι Bytes :=
  { store with entries := Function.update store.entries index entry }

end Store

/-! ## Publishing -/

/-- A process, at its next operation.  Between `stat` and `leave` it holds the lease. -/
inductive Publish (Value : Type) where
  | idle
  | lease (documents : Documents Value)
  | stat (documents : Documents Value) (index : Fin 3) (removed : Bool)
  | unlink (documents : Documents Value) (index : Fin 3)
  | sync (documents : Documents Value)
  | write (documents : Documents Value) (index : Fin 3)
  | leave (result : Except Error Unit) (documents : Documents Value)
  | returned (result : Except Error Unit) (documents : Documents Value)

/-- What an operation leaves open: the build the next call publishes, whether the operation
fails, whether a failing write had already replaced the file, and whether the process crashes. -/
structure PublishChoice {Value : Type} (member : Value → String → Value) where
  build : Build member
  failure : Option Error := none
  replaced : Bool := false
  crash : Bool := false

namespace Publish

variable {ι Value Bytes : Type}

/-- The message of a dependant that could not be removed. -/
def removalError (index : Fin 3) (error : Error) : Error :=
  { status := 500
    message := "The previous " ++ chain index ++ " could not be removed, so the VM analysis " ++
      "documents were not replaced: " ++ error.message }

/-- After the dependant at `index`: the workspace after the links, then the directory. -/
def afterRemoval (documents : Documents Value) (index : Fin 3) (removed : Bool) : Publish Value :=
  if index = 2 then .stat documents 1 removed
  else if removed then .sync documents
  else .write documents 0

/-- The write at `index` failed; a failed analysis fails the whole call. -/
def writeFailed (documents : Documents Value) (index : Fin 3) (error : Error) : Publish Value :=
  if index = 0 then .leave (.error error) documents
  else .leave (.ok ()) (documents.failFrom index error)

def afterWrite (documents : Documents Value) (index : Fin 3) : Publish Value :=
  if index = 2 then .leave (.ok ()) documents else .write documents (index + 1)

/-- `EISDIR`: a file does not replace a directory. -/
def isDirectory : Error := { status := 500, message := "Is a directory" }

/-- `durable::write_private`: a new file takes the path in one rename.  It may still fail
after that, when the directory is synced. -/
def writePrivate (store : Store ι Bytes) (index : Fin 3) (bytes : Bytes) (failure : Option Error)
    (replaced : Bool) : Store ι Bytes × Option Error :=
  match store.entries index, failure with
  | .directory, failure => (store, some (failure.getD isDirectory))
  | _, none => (store.set index (.file bytes), none)
  | _, some error => (if replaced then store.set index (.file bytes) else store, some error)

variable {member : Value → String → Value} (canonical : Value → Except Error Bytes)

/-- Whether the process is between taking the lease and returning. -/
def holds : Publish Value → Bool
  | .stat _ _ _ | .unlink _ _ | .sync _ | .write _ _ | .leave _ _ => true
  | .idle | .lease _ | .returned _ _ => false

/-- One operation of a process that does not crash. -/
def operation [DecidableEq ι] (process : ι) (choice : PublishChoice member)
    (store : Store ι Bytes) : Publish Value → Store ι Bytes × Publish Value
  | .idle => (store, .lease choice.build.documents)
  | .lease documents =>
      match choice.failure with
      -- The deadline has passed, or the lease itself is refused.
      | some error => (store, .returned (.error error) documents)
      | none =>
          if store.lease = none then
            ({ store with lease := some process }, .stat documents 2 false)
          else (store, .lease documents)
  | .stat documents index removed =>
      match store.entries index, choice.failure with
      | .absent, _ => (store, afterRemoval documents index removed)
      | _, some error =>
          (store, .leave (.ok ()) (documents.failFrom index (removalError index error)))
      | .directory, none => (store, afterRemoval documents index removed)
      | .file _, none => (store, .unlink documents index)
  | .unlink documents index =>
      match choice.failure with
      | some error =>
          (store, .leave (.ok ()) (documents.failFrom index (removalError index error)))
      | none => (store.set index .absent, afterRemoval documents index true)
  | .sync documents =>
      match choice.failure with
      | some error => (store, .leave (.error error) documents)
      | none => (store, .write documents 0)
  | .write documents index =>
      match documents.document index with
      -- An unavailable document has no written dependant either.
      | .error _ => (store, .leave (.ok ()) documents)
      | .ok value =>
          match canonical value with
          | .error error => (store, writeFailed documents index error)
          | .ok bytes =>
              let written := writePrivate store index bytes choice.failure choice.replaced
              match written.2 with
              | some error => (written.1, writeFailed documents index error)
              | none => (written.1, afterWrite documents index)
  | .leave result documents => ({ store with lease := none }, .returned result documents)
  | .returned _ _ => (store, .lease choice.build.documents)

/-- One step of a process.  A crash leaves the store as it is and frees its lease. -/
def access [DecidableEq ι] (process : ι) (choice : PublishChoice member) (store : Store ι Bytes)
    (pc : Publish Value) : Store ι Bytes × Publish Value :=
  if choice.crash then (if pc.holds then { store with lease := none } else store, .idle)
  else pc.operation canonical process choice store

end Publish

abbrev PublishLocal (ι Value : Type) : ι → Type := fun _ => Publish Value

abbrev PublishConfig (ι Value Bytes : Type) : Type :=
  Config (PublishLocal ι Value) (Store ι Bytes)

/-- A store nobody is publishing to. -/
def untouched (ι Value : Type) {Bytes : Type} (entries : Fin 3 → Entry Bytes) :
    PublishConfig ι Value Bytes where
  memory := { entries, lease := none }
  locals _ := Publish.idle

end Reb.Vm
