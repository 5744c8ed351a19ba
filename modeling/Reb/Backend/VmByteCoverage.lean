/-
# Backend.VmByteCoverage -- how many retained bytes are characterized

`coverage` retains a clipped preview for each artifact, marks the bytes every accepted
attribution names, and counts the marks.  What it drops it omits by name.  The marks are
a union (`coverage_spec`), so the count does not depend on the attributions' order, on
their overlaps or on repeats; only a report without omissions may call itself complete.
-/
import Reb.Theory.CellRows
import Reb.Theory.SerdeValue

namespace Reb.Backend.VmByteCoverage

open Reb.Theory
open Reb.Theory.Serde

set_option autoImplicit false

def maxPreviewBytes : Nat := 4096

def maxAttributions : Nat := 4096

def maxOmissions : Nat := 256

def omission (reason : String) : Value := .object [("reason", .string reason)]

/-- `omit`: one row for a reason. -/
def omitReason (omissions : List Value) (reason : String) : List Value :=
  if omissions.any fun row => (row.get "reason").isStr reason then omissions
  else omissions ++ [omission reason]

section Retaining

variable (decode : String → Option (List UInt8))

/-- The bytes of a snapshot's preview, as hexadecimal decoding gives them. -/
def preview (snapshot : Value) : Option (List UInt8) :=
  (snapshot.get "preview_hex").asStr.bind decode

def byteCount (snapshot : Value) : Nat := ((snapshot.get "byte_count").asU64.getD 0).toNat

/-- How many of the preview's bytes are retained. -/
def clipped (snapshot : Value) (bytes : List UInt8) : Nat :=
  min (min bytes.length maxPreviewBytes) (byteCount snapshot)

/-- The retained cells by artifact, and the omissions. -/
structure Retained where
  rows : List (String × List Bool) := []
  omissions : List Value := []

def Retained.omit (state : Retained) (reason : String) : Retained :=
  { state with omissions := omitReason state.omissions reason }

def retainSnapshot (state : Retained) (snapshot : Value) : Retained :=
  match (snapshot.get "artifact_id").asStr with
  | none => state.omit "invalid-snapshot"
  | some artifactId =>
      if artifactId ∈ state.rows.map Prod.fst then state.omit "duplicate-snapshot"
      else
        match preview decode snapshot with
        | none => state.omit "snapshot-unavailable"
        | some bytes =>
            let count := clipped snapshot bytes
            let state := if byteCount snapshot > count || (snapshot.get "truncated").isBool true then
              state.omit "snapshot-preview-truncated" else state
            let state := if bytes.length > maxPreviewBytes || bytes.length > byteCount snapshot then
              state.omit "invalid-snapshot-size" else state
            { state with rows := state.rows ++ [(artifactId, List.replicate count false)] }

def retain (snapshots : List Value) (omissions : List Value) : Retained :=
  let state := (snapshots.take 16).foldl (retainSnapshot decode) { omissions }
  let state :=
    if snapshots.isEmpty && !omissionNamed state.omissions "static-initializer-only" then
      state.omit "runtime-snapshot-unavailable" else state
  if snapshots.length > 16 then state.omit "snapshot-limit" else state
where
  omissionNamed (omissions : List Value) (reason : String) : Bool :=
    omissions.any fun row => (row.get "reason").isStr reason

end Retaining

/-! ## Attributions -/

/-- The bytes an attribution names, unless it names none or their end is no 64-bit number. -/
def byteRange (attribution : Value) : Option (Nat × Nat) := do
  let start ← (attribution.get "byte_offset").asU64
  let size ← (attribution.get "byte_size").asU64
  if start.toNat + size.toNat < 2 ^ 64 ∧ 0 < size then
    some (start.toNat, start.toNat + size.toNat)
  else none

/-- The checks of an attribution's declared kind, class and opcode. -/
def declared (attribution : Value) : Bool :=
  ((attribution.get "kind").isStr "opcode" || (attribution.get "kind").isStr "operand")
    && ((attribution.get "evidence_class").isStr "inferred"
      || (attribution.get "evidence_class").isStr "observed")
    && ((attribution.get "opcode").asU64.any fun code => code.toNat < 2 ^ 32)

structure Attributed where
  rows : List (String × List Bool)
  omissions : List Value
  accepted : List Value := []

def Attributed.omit (state : Attributed) (reason : String) : Attributed :=
  { state with omissions := omitReason state.omissions reason }

/-- `attribution.clone()` with the size that was accepted; an attribution that names an
artifact is an object, so the member is always written. -/
def acceptedRange (attribution : Value) (size : Nat) : Value :=
  (attribution.set "byte_size" (.nat size)).getD attribution

def accept (state : Attributed) (attribution : Value) : Attributed :=
  match (attribution.get "artifact_id").asStr.bind fun id =>
      (state.rows.lookup id).map fun cells => (id, cells) with
  | none => state.omit "attribution-snapshot-unavailable"
  | some (id, cells) =>
      match byteRange attribution with
      | none => state.omit "invalid-byte-attribution"
      | some (start, stop) =>
          if !declared attribution then state.omit "invalid-byte-attribution"
          else if stop > cells.length then state.omit "attribution-outside-preview"
          else
            let start := min start cells.length
            let stop := min stop cells.length
            if start < stop then
              { state with
                rows := CellRows.fill id start stop state.rows
                accepted := state.accepted ++ [acceptedRange attribution (stop - start)] }
            else state

/-! ## The report -/

structure Report where
  complete : Bool
  handlerCount : Nat
  retainedSnapshotBytes : Nat
  characterizedBytes : Nat
  uncharacterizedBytes : Nat
  attributions : List Value
  omissions : List Value

def truncateOmissions (omissions : List Value) : List Value :=
  if omissions.length > maxOmissions then
    omissions.take (maxOmissions - 1) ++ [omission "omission-limit"]
  else omissions

def coverage (decode : String → Option (List UInt8)) (snapshots : List Value) (handlerCount : Nat)
    (attributions : List Value) (unknowns : List String) (omissions : List Value) : Report :=
  let retained := retain decode snapshots omissions
  let state := (attributions.take maxAttributions).foldl accept
    { rows := retained.rows, omissions := retained.omissions }
  let state := if attributions.length > maxAttributions then state.omit "attribution-limit" else state
  let retainedBytes := CellRows.size state.rows
  let characterized := CellRows.count state.rows
  let uncharacterized := retainedBytes - characterized
  let state := if uncharacterized > 0 then state.omit "uncharacterized-bytecode" else state
  let state := if retainedBytes = 0 then state.omit "snapshot-bytes-unavailable" else state
  let omissions := truncateOmissions state.omissions
  { complete := retainedBytes > 0 && uncharacterized == 0 && omissions.isEmpty && unknowns.isEmpty
    handlerCount
    retainedSnapshotBytes := retainedBytes
    characterizedBytes := characterized
    uncharacterizedBytes := uncharacterized
    attributions := state.accepted
    omissions }

/-! ## Omissions -/

theorem omitReason_ne_nil (omissions : List Value) (reason : String) :
    omitReason omissions reason ≠ [] := by
  rw [omitReason]
  split_ifs with named
  · rintro rfl
    simp at named
  · simp

theorem truncateOmissions_eq_nil {omissions : List Value} :
    truncateOmissions omissions = [] ↔ omissions = [] := by
  rw [truncateOmissions]
  split_ifs with long
  · simp only [List.append_eq_nil_iff, List.cons_ne_self, and_false, false_iff]
    rintro rfl
    simp at long
  · rfl

/-! ## What is retained -/

section Retained

variable (decode : String → Option (List UInt8))

/-- What a snapshot offers of an artifact. -/
def offered (id : String) (snapshot : Value) : Option Nat :=
  if (snapshot.get "artifact_id").isStr id then (preview decode snapshot).map (clipped snapshot)
  else none

/-- How many bytes of an artifact are retained: the first snapshot that offers any decides. -/
def retainedBytes (snapshots : List Value) (id : String) : Option Nat :=
  snapshots.findSome? (offered decode id)

/-- The cells of the previews the first sixteen snapshots retain. -/
def retainedCells (snapshots : List Value) : Set (String × Nat) :=
  {cell | ∃ n, retainedBytes decode (snapshots.take 16) cell.1 = some n ∧ cell.2 < n}

/-- The rows are the retained previews, unmarked. -/
structure Holds (snapshots : List Value) (rows : List (String × List Bool)) : Prop where
  distinct : (rows.map Prod.fst).Nodup
  exact : ∀ row, row ∈ rows ↔ ∃ n, retainedBytes decode snapshots row.1 = some n
    ∧ row.2 = List.replicate n false

variable {decode} {snapshots : List Value} {rows : List (String × List Bool)}

theorem Holds.mem_names (holds : Holds decode snapshots rows) {id : String} :
    id ∈ rows.map Prod.fst ↔ ∃ n, retainedBytes decode snapshots id = some n := by
  rw [List.mem_map]
  constructor
  · rintro ⟨row, member, rfl⟩
    obtain ⟨n, retained, -⟩ := (holds.exact row).1 member
    exact ⟨n, retained⟩
  · rintro ⟨n, retained⟩
    exact ⟨(id, List.replicate n false), (holds.exact _).2 ⟨n, retained, rfl⟩, rfl⟩

theorem retainedBytes_snoc (snapshot : Value) (id : String) :
    retainedBytes decode (snapshots ++ [snapshot]) id
      = (retainedBytes decode snapshots id).or (offered decode id snapshot) := by
  rw [retainedBytes, List.findSome?_append, List.findSome?_singleton, retainedBytes]

/-- A snapshot that offers nothing new. -/
theorem Holds.skip (holds : Holds decode snapshots rows) {snapshot : Value}
    (nothing : ∀ id, id ∉ rows.map Prod.fst → offered decode id snapshot = none) :
    Holds decode (snapshots ++ [snapshot]) rows := by
  refine ⟨holds.distinct, fun row => ?_⟩
  rw [holds.exact, retainedBytes_snoc]
  cases before : retainedBytes decode snapshots row.1 with
  | some n => simp
  | none =>
      have fresh : row.1 ∉ rows.map Prod.fst := by
        rw [holds.mem_names, before]
        simp
      simp [nothing row.1 fresh]

/-- A snapshot that offers a preview of an artifact without one. -/
theorem Holds.add (holds : Holds decode snapshots rows) {snapshot : Value} {id : String} {n : Nat}
    (fresh : id ∉ rows.map Prod.fst) (named : (snapshot.get "artifact_id").asStr = some id)
    (offers : offered decode id snapshot = some n) :
    Holds decode (snapshots ++ [snapshot]) (rows ++ [(id, List.replicate n false)]) := by
  have unretained : retainedBytes decode snapshots id = none := by
    rw [holds.mem_names, not_exists] at fresh
    exact Option.eq_none_iff_forall_ne_some.2 fresh
  refine ⟨?_, fun row => ?_⟩
  · rw [List.map_append]
    exact List.nodup_append'.2 ⟨holds.distinct, List.nodup_singleton _, by simpa using fresh⟩
  · rw [List.mem_append, holds.exact, List.mem_singleton, retainedBytes_snoc]
    by_cases same : row.1 = id
    · rw [same, unretained, offers]
      simp [Prod.ext_iff, same]
    · have other : offered decode row.1 snapshot = none := by
        rw [offered, if_neg]
        rw [Value.isStr, named]
        simpa using Ne.symm same
      simp [other, Prod.ext_iff, same]

theorem retainSnapshot_holds {state : Retained} (holds : Holds decode snapshots state.rows)
    (snapshot : Value) :
    Holds decode (snapshots ++ [snapshot]) (retainSnapshot decode state snapshot).rows := by
  rw [retainSnapshot]
  cases named : (snapshot.get "artifact_id").asStr with
  | none => exact holds.skip fun id _ => by simp [offered, Value.isStr, named]
  | some artifactId =>
      have only : ∀ id, id ≠ artifactId → offered decode id snapshot = none := by
        intro id other
        rw [offered, if_neg]
        rw [Value.isStr, named]
        simpa using Ne.symm other
      dsimp only
      split_ifs with known
      · exact holds.skip fun id fresh => only id fun same => fresh (same ▸ known)
      · cases shown : preview decode snapshot with
        | none =>
            refine holds.skip fun id _ => ?_
            rw [offered, shown]
            split_ifs
            · rfl
            · rfl
        | some bytes =>
            have offers : offered decode artifactId snapshot = some (clipped snapshot bytes) := by
              rw [offered, if_pos (by rw [Value.isStr, named]; exact beq_self_eq_true _), shown]
              rfl
            have kept := holds.add known named offers
            dsimp only
            split_ifs <;> exact kept

theorem foldl_retainSnapshot_holds {state : Retained} (holds : Holds decode snapshots state.rows)
    (more : List Value) :
    Holds decode (snapshots ++ more) (more.foldl (retainSnapshot decode) state).rows := by
  induction more generalizing snapshots state with
  | nil => rwa [List.append_nil]
  | cons snapshot more ih =>
      have later := ih (retainSnapshot_holds holds snapshot)
      rwa [List.append_assoc] at later

/-- The first loop retains the clipped previews. -/
theorem retain_holds (decode : String → Option (List UInt8)) (snapshots omissions : List Value) :
    Holds decode (snapshots.take 16) (retain decode snapshots omissions).rows := by
  have start : Holds decode [] ({ omissions } : Retained).rows :=
    ⟨List.nodup_nil, fun row => by simp [retainedBytes]⟩
  have kept := foldl_retainSnapshot_holds start (snapshots.take 16)
  rw [retain]
  split_ifs <;> exact kept

theorem Holds.present_eq (holds : Holds decode (snapshots.take 16) rows) :
    CellRows.present rows = retainedCells decode snapshots := by
  ext cell
  rw [CellRows.mem_present, retainedCells, Set.mem_ofPred_eq]
  constructor
  · rintro ⟨row, member, same, inside⟩
    obtain ⟨n, retained, marks⟩ := (holds.exact row).1 member
    exact ⟨n, same ▸ retained, by simpa [marks] using inside⟩
  · rintro ⟨n, retained, inside⟩
    exact ⟨(cell.1, List.replicate n false), (holds.exact _).2 ⟨n, retained, rfl⟩, rfl,
      by simpa using inside⟩

theorem Holds.marked_eq (holds : Holds decode snapshots rows) : CellRows.marked rows = ∅ := by
  rw [Set.eq_empty_iff_forall_notMem]
  intro cell
  rw [CellRows.mem_marked]
  rintro ⟨row, member, -, here⟩
  obtain ⟨n, -, marks⟩ := (holds.exact row).1 member
  rw [marks, List.getElem?_replicate] at here
  split_ifs at here
  cases here

theorem Holds.length_eq (holds : Holds decode snapshots rows) (id : String) :
    (rows.lookup id).map List.length = retainedBytes decode snapshots id := by
  cases found : rows.lookup id with
  | none =>
      have fresh : id ∉ rows.map Prod.fst := by
        rw [List.mem_map]
        rintro ⟨row, member, rfl⟩
        simpa using List.lookup_eq_none_iff.1 found row member
      rw [holds.mem_names, not_exists] at fresh
      exact (Option.eq_none_iff_forall_ne_some.2 fresh).symm
  | some marks =>
      obtain ⟨before, after, rfl, -⟩ := List.lookup_eq_some_iff.1 found
      obtain ⟨n, retained, same⟩ := (holds.exact (id, marks)).1 (by simp)
      have width := congrArg List.length same
      rw [List.length_replicate] at width
      rw [retained, Option.map_some, width]

end Retained

/-! ## What is accepted -/

/-- The range an attribution is accepted for, by the lengths of the retained previews. -/
def acceptedFor (length : String → Option Nat) (attribution : Value) :
    Option (String × Nat × Nat) := do
  let id ← (attribution.get "artifact_id").asStr
  let length ← length id
  let range ← byteRange attribution
  if declared attribution && range.2 ≤ length then some (id, range.1, range.2) else none

def lengths (rows : List (String × List Bool)) (id : String) : Option Nat :=
  (rows.lookup id).map List.length

theorem byteRange_eq_some {attribution : Value} {start stop : Nat}
    (range : byteRange attribution = some (start, stop)) :
    ∃ size : UInt64, (attribution.get "byte_size").asU64 = some size
      ∧ start < stop ∧ stop - start = size.toNat := by
  simp only [byteRange, Option.bind_eq_bind, Option.bind_eq_some_iff] at range
  obtain ⟨first, -, size, sized, range⟩ := range
  split_ifs at range with proper
  cases range
  have positive := UInt64.lt_iff_toNat_lt.1 proper.2
  rw [UInt64.toNat_zero] at positive
  exact ⟨size, sized, by omega, by omega⟩

/-- The size written into an accepted attribution is its own. -/
theorem acceptedRange_same {attribution : Value} {start stop : Nat}
    (range : byteRange attribution = some (start, stop)) :
    acceptedRange attribution (stop - start) = attribution := by
  obtain ⟨size, sized, -, width⟩ := byteRange_eq_some range
  have member := Value.asU64_eq_some.1 sized
  have same : Value.nat (stop - start) = attribution.get "byte_size" := by
    rw [member, width, Value.nat, UInt64.ofNat_toNat]
  rw [acceptedRange, same, Value.set_same (by rw [member]; simp), Option.getD_some]

/-- One attribution is dropped with an omission, or marks its range and is kept as it is. -/
theorem accept_cases (state : Attributed) (attribution : Value) :
    (acceptedFor (lengths state.rows) attribution = none
        ∧ ∃ reason, accept state attribution = state.omit reason)
      ∨ ∃ id start stop, acceptedFor (lengths state.rows) attribution = some (id, start, stop)
        ∧ accept state attribution = { state with
          rows := CellRows.fill id start stop state.rows
          accepted := state.accepted ++ [attribution] } := by
  rw [accept, acceptedFor]
  cases named : (attribution.get "artifact_id").asStr with
  | none => exact .inl ⟨rfl, _, rfl⟩
  | some id =>
      cases found : state.rows.lookup id with
      | none => exact .inl ⟨by simp [lengths, found], _, by simp only [Option.bind_some, found]; rfl⟩
      | some cells =>
          have length : lengths state.rows id = some cells.length := by rw [lengths, found]; rfl
          simp only [Option.bind_eq_bind, Option.bind_some, length, found, Option.map_some]
          cases range : byteRange attribution with
          | none => exact .inl ⟨rfl, _, rfl⟩
          | some bounds =>
              obtain ⟨start, stop⟩ := bounds
              obtain ⟨-, -, positive, -⟩ := byteRange_eq_some range
              simp only [Option.bind_some]
              by_cases declares : declared attribution = true
              · by_cases inside : stop ≤ cells.length
                · refine .inr ⟨id, start, stop, by simp [declares, inside], ?_⟩
                  rw [Nat.min_eq_left inside, Nat.min_eq_left (positive.le.trans inside),
                    if_neg (by simp [declares]), if_neg (Nat.not_lt.2 inside), if_pos positive,
                    acceptedRange_same range]
                · refine .inl ⟨by simp [inside], "attribution-outside-preview", ?_⟩
                  rw [if_neg (by simp [declares]), if_pos (Nat.lt_of_not_le inside)]
              · refine .inl ⟨by simp [declares], "invalid-byte-attribution", ?_⟩
                rw [if_pos (by simpa using declares)]

theorem lengths_fill (id : String) (start stop : Nat) (rows : List (String × List Bool)) :
    lengths (CellRows.fill id start stop rows) = lengths rows := by
  funext name
  induction rows with
  | nil => rfl
  | cons row rows ih =>
      rw [lengths, lengths] at ih ⊢
      rw [CellRows.fill, List.map_cons, List.lookup_cons, List.lookup_cons]
      split_ifs
      · cases name == row.1
        · exact ih
        · simp
      · cases name == row.1
        · exact ih
        · rfl

/-- The second loop: what it accepts, and what the accepted ranges mark. -/
theorem foldl_accept (attributions : List Value) (state : Attributed) :
    (attributions.foldl accept state).accepted = state.accepted
        ++ attributions.filter (fun a => (acceptedFor (lengths state.rows) a).isSome)
      ∧ (attributions.foldl accept state).rows
        = (attributions.filterMap (acceptedFor (lengths state.rows))).foldl
          (fun rows range => CellRows.fill range.1 range.2.1 range.2.2 rows) state.rows
      ∧ ((attributions.foldl accept state).omissions = [] → state.omissions = []
        ∧ ∀ a ∈ attributions, (acceptedFor (lengths state.rows) a).isSome = true) := by
  induction attributions generalizing state with
  | nil => simp
  | cons attribution attributions ih =>
      obtain ⟨accepted, rows, kept⟩ := ih (accept state attribution)
      obtain ⟨dropped, reason, next⟩ | ⟨id, start, stop, range, next⟩ :=
        accept_cases state attribution
      · rw [next] at accepted rows kept
        simp only [Attributed.omit] at accepted rows kept
        refine ⟨?_, ?_, ?_⟩
        · rw [List.foldl_cons, next]
          simp [Attributed.omit, accepted, dropped]
        · rw [List.foldl_cons, next]
          simp [Attributed.omit, rows, dropped]
        · rw [List.foldl_cons, next]
          intro none
          exact absurd (kept none).1 (omitReason_ne_nil _ _)
      · rw [next, lengths_fill] at accepted rows kept
        refine ⟨?_, ?_, ?_⟩
        · rw [List.foldl_cons, next, accepted]
          simp [range]
        · rw [List.foldl_cons, next, rows]
          simp [range]
        · rw [List.foldl_cons, next]
          intro none
          exact ⟨(kept none).1, by simpa [range] using (kept none).2⟩

/-! ## The report is a union -/

/-- An attribution names a cell. -/
def names (attribution : Value) (cell : String × Nat) : Prop :=
  (attribution.get "artifact_id").asStr = some cell.1
    ∧ ∃ range, byteRange attribution = some range ∧ range.1 ≤ cell.2 ∧ cell.2 < range.2

/-- What the snapshots' previews let an attribution be accepted for. -/
def accepts (decode : String → Option (List UInt8)) (snapshots : List Value)
    (attribution : Value) : Bool :=
  (acceptedFor (retainedBytes decode (snapshots.take 16)) attribution).isSome

theorem acceptedFor_eq_some {length : String → Option Nat} {attribution : Value} {id : String}
    {start stop : Nat} (accepted : acceptedFor length attribution = some (id, start, stop)) :
    (attribution.get "artifact_id").asStr = some id
      ∧ byteRange attribution = some (start, stop) := by
  simp only [acceptedFor, Option.bind_eq_bind, Option.bind_eq_some_iff] at accepted
  obtain ⟨name, named, n, -, range, bounds, accepted⟩ := accepted
  split_ifs at accepted
  cases accepted
  exact ⟨named, bounds⟩

/-- The accepted ranges hold what the accepted attributions name. -/
theorem exists_range_iff {length : String → Option Nat} {attributions : List Value}
    {cell : String × Nat} :
    (∃ range ∈ attributions.filterMap (acceptedFor length),
        cell.1 = range.1 ∧ range.2.1 ≤ cell.2 ∧ cell.2 < range.2.2)
      ↔ ∃ a ∈ attributions.filter (fun a => (acceptedFor length a).isSome), names a cell := by
  constructor
  · rintro ⟨range, member, same, inside⟩
    obtain ⟨a, offered, accepted⟩ := List.mem_filterMap.1 member
    obtain ⟨named, bounds⟩ := acceptedFor_eq_some accepted
    exact ⟨a, List.mem_filter.2 ⟨offered, by rw [accepted]; rfl⟩, same ▸ named, _, bounds, inside⟩
  · rintro ⟨a, member, named, bounds, found, inside⟩
    obtain ⟨offered, some⟩ := List.mem_filter.1 member
    obtain ⟨range, accepted⟩ := Option.isSome_iff_exists.1 some
    obtain ⟨id, same⟩ := acceptedFor_eq_some accepted
    rw [found] at same
    obtain rfl := Option.some.inj same
    exact ⟨range, List.mem_filterMap.2 ⟨a, offered, accepted⟩,
      Option.some.inj (named.symm.trans id), inside⟩

theorem retainSnapshot_omissions {decode : String → Option (List UInt8)} {state : Retained}
    (some : state.omissions ≠ []) (snapshot : Value) :
    (retainSnapshot decode state snapshot).omissions ≠ [] := by
  rw [retainSnapshot]
  split
  · exact omitReason_ne_nil _ _
  · split_ifs
    · exact omitReason_ne_nil _ _
    · split
      · exact omitReason_ne_nil _ _
      · dsimp only
        split_ifs
        · exact omitReason_ne_nil _ _
        · exact omitReason_ne_nil _ _
        · exact omitReason_ne_nil _ _
        · exact some

/-- An omission handed in stays. -/
theorem retain_omissions {decode : String → Option (List UInt8)} {snapshots omissions : List Value}
    (none : (retain decode snapshots omissions).omissions = []) : omissions = [] := by
  by_contra some
  have grown : ∀ (snapshots : List Value) (state : Retained), state.omissions ≠ [] →
      (snapshots.foldl (retainSnapshot decode) state).omissions ≠ [] := by
    intro snapshots
    induction snapshots with
    | nil => exact fun state some => some
    | cons snapshot snapshots ih =>
        exact fun state some => ih _ (retainSnapshot_omissions some snapshot)
  revert none
  rw [retain]
  split_ifs
  · exact omitReason_ne_nil _ _
  · exact omitReason_ne_nil _ _
  · exact omitReason_ne_nil _ _
  · exact grown _ _ some

section Report

variable (decode : String → Option (List UInt8)) (snapshots : List Value) (handlerCount : Nat)
  (attributions : List Value) (unknowns : List String) (omissions : List Value)

/-- The state after both loops. -/
def attributed : Attributed :=
  (attributions.take maxAttributions).foldl accept
    { rows := (retain decode snapshots omissions).rows
      omissions := (retain decode snapshots omissions).omissions }

/-- The cells the accepted attributions name. -/
def characterizedCells : Set (String × Nat) :=
  {cell | cell ∈ retainedCells decode snapshots
    ∧ ∃ a ∈ (attributions.take maxAttributions).filter (accepts decode snapshots), names a cell}

theorem lengths_retain :
    lengths (retain decode snapshots omissions).rows
      = retainedBytes decode (snapshots.take 16) :=
  funext (retain_holds decode snapshots omissions).length_eq

theorem attributed_accepted :
    (attributed decode snapshots attributions omissions).accepted
      = (attributions.take maxAttributions).filter (accepts decode snapshots) := by
  rw [attributed, (foldl_accept _ _).1, lengths_retain]
  rfl

theorem attributed_names :
    ((attributed decode snapshots attributions omissions).rows.map Prod.fst).Nodup := by
  rw [attributed, (foldl_accept _ _).2.1, CellRows.map_fst_foldl_fill]
  exact (retain_holds decode snapshots omissions).distinct

theorem attributed_present :
    CellRows.present (attributed decode snapshots attributions omissions).rows
      = retainedCells decode snapshots := by
  rw [attributed, (foldl_accept _ _).2.1, CellRows.present_foldl_fill]
  exact (retain_holds decode snapshots omissions).present_eq

theorem attributed_marked :
    CellRows.marked (attributed decode snapshots attributions omissions).rows
      = characterizedCells decode snapshots attributions := by
  have holds := retain_holds decode snapshots omissions
  rw [attributed, (foldl_accept _ _).2.1, CellRows.marked_foldl_fill, holds.marked_eq,
    holds.present_eq, lengths_retain, Set.empty_union]
  ext cell
  exact and_congr_right fun _ => exists_range_iff

theorem coverage_counts :
    (coverage decode snapshots handlerCount attributions unknowns omissions).retainedSnapshotBytes
        = (retainedCells decode snapshots).ncard
      ∧ (coverage decode snapshots handlerCount attributions unknowns omissions).characterizedBytes
        = (characterizedCells decode snapshots attributions).ncard := by
  have distinct := attributed_names decode snapshots attributions omissions
  have size := CellRows.size_eq_ncard distinct
  have count := CellRows.count_eq_ncard distinct
  rw [attributed_present] at size
  rw [attributed_marked] at count
  rw [coverage, ← size, ← count, attributed]
  dsimp only
  split_ifs <;> exact ⟨rfl, rfl⟩

theorem coverage_attributions :
    (coverage decode snapshots handlerCount attributions unknowns omissions).attributions
      = (attributions.take maxAttributions).filter (accepts decode snapshots) := by
  rw [← attributed_accepted decode snapshots attributions omissions, coverage, attributed]
  dsimp only
  split_ifs <;> rfl

theorem coverage_uncharacterized :
    (coverage decode snapshots handlerCount attributions unknowns omissions).uncharacterizedBytes
      = (coverage decode snapshots handlerCount attributions unknowns omissions).retainedSnapshotBytes
        - (coverage decode snapshots handlerCount attributions unknowns omissions).characterizedBytes :=
  rfl

theorem retainedCells_finite : (retainedCells decode snapshots).Finite := by
  have holds := retain_holds decode snapshots []
  rw [← holds.present_eq]
  exact (CellRows.ncard_cellsWhere _ holds.distinct).1

/-- Only a report in which nothing was dropped calls itself complete. -/
theorem complete_only
    (complete : (coverage decode snapshots handlerCount attributions unknowns omissions).complete
      = true) :
    (coverage decode snapshots handlerCount attributions unknowns omissions).uncharacterizedBytes = 0
      ∧ (coverage decode snapshots handlerCount attributions unknowns omissions).omissions = []
      ∧ unknowns = [] ∧ omissions = []
      ∧ (attributions.take maxAttributions).filter (accepts decode snapshots) = attributions := by
  have parts : ((decide ((coverage decode snapshots handlerCount attributions unknowns
          omissions).retainedSnapshotBytes > 0)
        && (coverage decode snapshots handlerCount attributions unknowns
          omissions).uncharacterizedBytes == 0)
      && (coverage decode snapshots handlerCount attributions unknowns omissions).omissions.isEmpty
      && unknowns.isEmpty) = true := complete
  simp only [Bool.and_eq_true, beq_iff_eq, List.isEmpty_iff] at parts
  obtain ⟨⟨⟨-, covered⟩, unomitted⟩, known⟩ := parts
  have none := unomitted
  rw [coverage] at none
  dsimp only at none
  rw [truncateOmissions_eq_nil] at none
  -- every branch but the one without an omission contradicts `none`
  split_ifs at none
  all_goals try exact absurd none (omitReason_ne_nil _ _)
  have kept := (foldl_accept (attributions.take maxAttributions)
    { rows := (retain decode snapshots omissions).rows
      omissions := (retain decode snapshots omissions).omissions }).2.2 none
  refine ⟨covered, unomitted, known, retain_omissions kept.1, ?_⟩
  have whole : attributions.take maxAttributions = attributions :=
    List.take_of_length_le (Nat.not_lt.1 (by assumption))
  have all := kept.2
  rw [lengths_retain, whole] at all
  rw [whole]
  exact List.filter_eq_self.2 all

/-- The characterized bytes are the cells of the retained previews that accepted
attributions name, each once; complete reports cover every cell and drop nothing. -/
theorem coverage_union :
    let report := coverage decode snapshots handlerCount attributions unknowns omissions
    report.retainedSnapshotBytes = (retainedCells decode snapshots).ncard
      ∧ report.attributions = (attributions.take maxAttributions).filter (accepts decode snapshots)
      ∧ report.characterizedBytes = {cell | cell ∈ retainedCells decode snapshots
        ∧ ∃ attribution ∈ report.attributions, names attribution cell}.ncard
      ∧ report.characterizedBytes + report.uncharacterizedBytes = report.retainedSnapshotBytes
      ∧ (report.complete = true →
        (∀ cell ∈ retainedCells decode snapshots,
            ∃ attribution ∈ report.attributions, names attribution cell)
          ∧ report.attributions = attributions ∧ unknowns = []
          ∧ omissions = [] ∧ report.omissions = [])
      ∧ ∀ others : List Value, (∀ attribution, attribution ∈ others ↔ attribution ∈ attributions) →
        attributions.length ≤ maxAttributions → others.length ≤ maxAttributions →
        (coverage decode snapshots handlerCount others unknowns omissions).characterizedBytes
          = report.characterizedBytes := by
  intro report
  obtain ⟨retained, characterized⟩ :=
    coverage_counts decode snapshots handlerCount attributions unknowns omissions
  have accepted : report.attributions
      = (attributions.take maxAttributions).filter (accepts decode snapshots) :=
    coverage_attributions decode snapshots handlerCount attributions unknowns omissions
  have cells : {cell | cell ∈ retainedCells decode snapshots
      ∧ ∃ attribution ∈ report.attributions, names attribution cell}
      = characterizedCells decode snapshots attributions := by rw [accepted]; rfl
  have inside : characterizedCells decode snapshots attributions
      ⊆ retainedCells decode snapshots := fun cell member => member.1
  have finite := retainedCells_finite decode snapshots
  have total : report.characterizedBytes + report.uncharacterizedBytes
      = report.retainedSnapshotBytes := by
    have below := Set.ncard_le_ncard inside finite
    rw [coverage_uncharacterized, characterized, retained]
    omega
  refine ⟨retained, accepted, cells ▸ characterized, total, ?_, ?_⟩
  · intro complete
    obtain ⟨covered, unomitted, known, untouched, all⟩ :=
      complete_only decode snapshots handlerCount attributions unknowns omissions complete
    refine ⟨?_, accepted.trans all, known, untouched, unomitted⟩
    have whole : characterizedCells decode snapshots attributions
        = retainedCells decode snapshots := by
      apply Set.eq_of_subset_of_ncard_le inside _ finite
      rw [← retained, ← characterized, ← total, covered, Nat.add_zero]
    intro cell member
    rw [← whole, ← cells] at member
    exact member.2
  · intro others same short short'
    rw [characterized, (coverage_counts decode snapshots handlerCount others unknowns omissions).2]
    congr 1
    ext cell
    rw [characterizedCells, characterizedCells, List.take_of_length_le short,
      List.take_of_length_le short']
    simp only [Set.mem_ofPred_eq, List.mem_filter, same]

end Report

end Reb.Backend.VmByteCoverage
