/-
# Vm.LinkedPrefix -- what publication leaves on disk

`PrefixOf build k` says that the first `k` paths of the chain hold the documents of one
build and the rest hold no document.  Dependants go before their source is replaced and
come back after it, so every operation, failure and crash of the process with the lease
leaves such a prefix (`publish_outline`).
-/
import Reb.Vm.Publication

namespace Reb.Vm

set_option autoImplicit false

open Theory.Interleaving

variable {ι Value Bytes : Type} {member : Value → String → Value}

local instance neZeroPaths : NeZero 3 := ⟨by decide⟩

/-! ## Prefixes -/

def Entry.NoDocument (entry : Entry Bytes) : Prop := ∀ bytes, entry ≠ .file bytes

theorem Entry.noDocument_absent : (Entry.absent : Entry Bytes).NoDocument := by
  intro bytes same
  cases same

section Canonical

variable (canonical : Value → Except Error Bytes)

/-- The path holds the canonical text of the value. -/
def Holds (entry : Entry Bytes) (value : Value) : Prop :=
  ∃ bytes, canonical value = .ok bytes ∧ entry = .file bytes

/-- The first `k` documents stand on disk. -/
def Written (documents : Documents Value) (entries : Fin 3 → Entry Bytes) (k : Nat) : Prop :=
  ∀ j : Fin 3, j.val < k → ∃ value, documents.document j = .ok value ∧
    Holds canonical (entries j) value

def NothingFrom (entries : Fin 3 → Entry Bytes) (k : Nat) : Prop :=
  ∀ j : Fin 3, k ≤ j.val → (entries j).NoDocument

structure PrefixOf (build : Build member) (k : Nat) (entries : Fin 3 → Entry Bytes) : Prop where
  written : Written canonical build.documents entries k
  nothing : NothingFrom entries k

variable (member) in
/-- The documents on disk are a prefix of the chain of a single build. -/
def LinkedPrefix (entries : Fin 3 → Entry Bytes) : Prop :=
  NothingFrom entries 0 ∨ ∃ (build : Build member) (k : Nat), PrefixOf canonical build k entries

variable (member) in
/-- Every document on disk names the one before it on disk. -/
structure Linked (entries : Fin 3 → Entry Bytes) : Prop where
  workspace : ∀ bytes, entries 1 = .file bytes → ∃ analysis workspace,
    Holds canonical (entries 0) analysis ∧ canonical workspace = .ok bytes ∧
      member workspace "analysis_digest" = member analysis "document_digest"
  hostLinks : ∀ bytes, entries 2 = .file bytes → ∃ workspace links,
    Holds canonical (entries 1) workspace ∧ canonical links = .ok bytes ∧
      member links "workspace_document_digest" = member workspace "document_digest"

variable {canonical} {entries : Fin 3 → Entry Bytes} {k : Nat}

theorem NothingFrom.mono {l : Nat} (nothing : NothingFrom entries k) (le : k ≤ l) :
    NothingFrom entries l :=
  fun j from_ => nothing j (le.trans from_)

theorem PrefixOf.file_written {build : Build member} (isPrefix : PrefixOf canonical build k entries)
    {j : Fin 3} {bytes : Bytes} (file : entries j = .file bytes) : j.val < k := by
  by_contra beyond
  exact isPrefix.nothing j (Nat.not_lt.1 beyond) bytes file

theorem PrefixOf.linked {build : Build member} (isPrefix : PrefixOf canonical build k entries) :
    Linked member canonical entries := by
  constructor
  · intro bytes file
    have low : 1 < k := isPrefix.file_written file
    obtain ⟨analysis, isAnalysis, holds⟩ := isPrefix.written 0 (Nat.lt_of_succ_lt low)
    obtain ⟨workspace, isWorkspace, text, written, same⟩ := isPrefix.written 1 low
    obtain rfl : text = bytes := Entry.file.inj (same.symm.trans file)
    refine ⟨analysis, workspace, holds, written, ?_⟩
    obtain rfl : build.analysis = analysis := Except.ok.inj isAnalysis
    exact build.namesAnalysis _ _ isWorkspace
  · intro bytes file
    have low : 2 < k := isPrefix.file_written file
    obtain ⟨workspace, isWorkspace, holds⟩ := isPrefix.written 1 (Nat.lt_of_succ_lt low)
    obtain ⟨links, isLinks, text, written, same⟩ := isPrefix.written 2 low
    obtain rfl : text = bytes := Entry.file.inj (same.symm.trans file)
    refine ⟨workspace, links, holds, written, ?_⟩
    have built : (build.opcodeDocument build.analysis).bind build.hostLinksDocument = .ok links :=
      isLinks
    have isWorkspace : build.opcodeDocument build.analysis = .ok workspace := isWorkspace
    rw [isWorkspace] at built
    exact build.namesWorkspace _ _ built

theorem LinkedPrefix.linked (isPrefix : LinkedPrefix member canonical entries) :
    Linked member canonical entries := by
  obtain nothing | ⟨build, k, isPrefix⟩ := isPrefix
  · exact ⟨fun bytes file => absurd file (nothing 1 (Nat.zero_le _) bytes),
      fun bytes file => absurd file (nothing 2 (Nat.zero_le _) bytes)⟩
  · exact isPrefix.linked

/-- Taking away the last document leaves a prefix. -/
theorem LinkedPrefix.unlink {index : Fin 3} (isPrefix : LinkedPrefix member canonical entries)
    (last : NothingFrom entries (index.val + 1)) :
    LinkedPrefix member canonical (Function.update entries index .absent) := by
  have nothing (l : Nat) (low : NothingFrom entries l) :
      NothingFrom (Function.update entries index .absent) l := by
    intro j from_
    by_cases same : j = index
    · rw [same, Function.update_self]
      exact Entry.noDocument_absent
    · rw [Function.update_of_ne same]
      exact low j from_
  obtain none | ⟨build, k, isPrefix⟩ := isPrefix
  · exact .inl (nothing 0 none)
  · refine .inr ⟨build, min k index.val, fun j low => ?_, fun j from_ => ?_⟩
    · have other : j ≠ index := by
        rintro rfl
        omega
      rw [Function.update_of_ne other]
      exact isPrefix.written j (lt_of_lt_of_le low (min_le_left _ _))
    · by_cases same : j = index
      · rw [same, Function.update_self]
        exact Entry.noDocument_absent
      · rw [Function.update_of_ne same]
        by_cases below : k ≤ j.val
        · exact isPrefix.nothing j below
        · have differ : j.val ≠ index.val := fun eq => same (Fin.ext eq)
          exact last j (by omega)

/-- Every document reported as available is the one on disk. -/
def OnDisk (canonical : Value → Except Error Bytes) (documents : Documents Value)
    (entries : Fin 3 → Entry Bytes) : Prop :=
  ∀ index value, documents.document index = .ok value → Holds canonical (entries index) value

/-- A previous dependant could not be removed.  It and what derives from it are reported as
unavailable, and nothing was replaced. -/
def RemovalReported (documents : Documents Value) : Prop :=
  ∃ (index : Fin 3) (error : Error), index ≠ 0 ∧
    documents.hostLinks = .error (Publish.removalError index error) ∧
    (index = 1 → documents.opcodeWorkspace = .error (Publish.removalError index error))

def Publish.Asserts (canonical : Value → Except Error Bytes) (member : Value → String → Value)
    (process : ι) (store : Store ι Bytes) : Publish Value → Prop
  | .idle => True
  | .lease documents => ∃ build : Build member, documents = build.documents
  | .stat documents index _ => store.lease = some process ∧ index ≠ 0 ∧
      (∃ build : Build member, documents = build.documents) ∧
      NothingFrom store.entries (index.val + 1)
  | .unlink documents index => store.lease = some process ∧ index ≠ 0 ∧
      (∃ build : Build member, documents = build.documents) ∧
      NothingFrom store.entries (index.val + 1)
  | .sync documents => store.lease = some process ∧
      (∃ build : Build member, documents = build.documents) ∧ NothingFrom store.entries 1
  | .write documents index => store.lease = some process ∧
      (∃ build : Build member, documents = build.documents) ∧
      Written canonical documents store.entries index.val ∧
      NothingFrom store.entries (index.val + 1)
  | .leave result documents => store.lease = some process ∧
      (result = .ok () → OnDisk canonical documents store.entries ∨ RemovalReported documents)
  | .returned _ _ => True

namespace Publish

variable {process : ι} {store store' : Store ι Bytes} {documents : Documents Value} {index : Fin 3}
  {build : Build member}

variable [DecidableEq ι] {choice : PublishChoice member} {pc pc' : Publish Value}

end Publish

end Canonical

/-- A process's assertion is about the store while it holds the lease. -/
theorem Publish.Asserts.stable {canonical : Value → Except Error Bytes} {process : ι}
    {store store' : Store ι Bytes} {pc : Publish Value}
    (asserts : Asserts canonical member process store pc)
    (same : store.lease = some process → store' = store) :
    Asserts canonical member process store' pc := by
  cases pc with
  | idle => exact trivial
  | lease => exact asserts
  | returned => exact trivial
  | _ => exact same asserts.1 ▸ asserts

end Reb.Vm
