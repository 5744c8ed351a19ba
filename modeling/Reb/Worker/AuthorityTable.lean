/-
# Worker.AuthorityTable -- what the reports do to the table

`Tabled` is what every run of reports keeps of the table.  Within an epoch the table
only grows, its owners stay and its flags are only set (`Within`); a report that does
not work within the epoch opens a newer one (`Tabled.told`).
-/
import Reb.Worker.NativeWorkerAuthority

namespace Reb.Worker

set_option autoImplicit false

namespace NativeWorkerAuthority

variable {a a' b : NativeWorkerAuthority}

/-! ## The table -/

/-- The worker's entry. -/
def Records (a : NativeWorkerAuthority) (worker : NativeWorkerToken) (entry : Entry) : Prop :=
  entry ∈ a.entries ∧ entry.owner.worker = worker

/-- What an entry can become within an epoch: its owner stays, its flags are only set. -/
structure Becomes (entry entry' : Entry) : Prop where
  owner : entry'.owner = entry.owner
  retired : entry.retired = true → entry'.retired = true
  ambiguous : entry.ambiguous = true → entry'.ambiguous = true

theorem Becomes.refl (entry : Entry) : Becomes entry entry := ⟨rfl, id, id⟩

theorem Becomes.trans {x y z : Entry} (first : Becomes x y) (next : Becomes y z) : Becomes x z :=
  ⟨next.owner.trans first.owner, next.retired ∘ first.retired, next.ambiguous ∘ first.ambiguous⟩

structure Tabled (a : NativeWorkerAuthority) : Prop where
  capacity : a.entries.length ≤ kNativeWorkerAuthorityCapacity
  distinct : (a.entries.map (·.owner.worker)).Nodup
  owners : ∀ entry ∈ a.entries, entry.retired = true ∨ ownerValid entry.owner = true
  tombstones : ∀ entry ∈ a.entries,
    entry.owner.rendererInstance ∈ a.retiredRenderers → entry.retired = true
  epoch : a.scope.observerEpoch = a.greatestEpoch
  lease : a.current = {} ∨ (a.current.observerEpoch = a.scope.observerEpoch ∧
    a.current.selectedFrame = a.scope.selectedFrame ∧
    a.current.selectedDocument = a.scope.selectedDocument ∧
    a.current.documentGeneration = a.scope.documentGeneration)

/-- What a report does to the table of its epoch. -/
structure Within (a a' : NativeWorkerAuthority) : Prop where
  scope : a'.scope = a.scope
  active : a'.active = true → a.active = true
  renderers : ∀ renderer ∈ a.retiredRenderers, renderer ∈ a'.retiredRenderers
  grows : ∀ entry ∈ a.entries, ∃ entry' ∈ a'.entries, Becomes entry entry'
  length : a.entries.length ≤ a'.entries.length

theorem Within.refl (a : NativeWorkerAuthority) : Within a a :=
  ⟨rfl, id, fun _ => id, fun entry member => ⟨entry, member, .refl entry⟩, le_refl _⟩

theorem Within.trans (first : Within a a') (next : Within a' b) : Within a b where
  scope := next.scope.trans first.scope
  active := first.active ∘ next.active
  renderers := fun renderer member => next.renderers renderer (first.renderers renderer member)
  grows := by
    intro entry member
    obtain ⟨entry', member', becomes⟩ := first.grows entry member
    obtain ⟨entry'', member'', becomes'⟩ := next.grows entry' member'
    exact ⟨entry'', member'', becomes.trans becomes'⟩
  length := first.length.trans next.length

theorem Tabled.unique (tabled : Tabled a) {worker : NativeWorkerToken} {x y : Entry}
    (first : a.Records worker x) (second : a.Records worker y) : x = y :=
  List.inj_on_of_nodup_map tabled.distinct first.1 second.1 (first.2.trans second.2.symm)

theorem find_le (worker : NativeWorkerToken) : a.find worker ≤ a.entries.length :=
  List.findIdx_le_length

theorem records_find {worker : NativeWorkerToken} (known : a.find worker < a.entries.length) :
    a.Records worker (a.entry (a.find worker)) := by
  have at' : a.entry (a.find worker) = a.entries[a.find worker] := by
    rw [entry, List.getD_eq_getElem?_getD, List.getElem?_eq_getElem known]
    rfl
  rw [at']
  have found := List.findIdx_getElem (w := known)
  exact ⟨List.getElem_mem _, beq_iff_eq.1 found⟩

theorem find_lt {worker : NativeWorkerToken} {entry : Entry} (records : a.Records worker entry) :
    a.find worker < a.entries.length :=
  List.findIdx_lt_length_of_exists ⟨entry, records.1, by simpa using records.2⟩

/-- A change of the flags of some entries. -/
theorem Tabled.marked (tabled : Tabled a) {entries : List Entry} {renderers : List NativeWorkerToken}
    (same : List.Forall₂ Becomes a.entries entries)
    (more : ∀ renderer ∈ a.retiredRenderers, renderer ∈ renderers)
    (tombstones : ∀ entry ∈ entries, entry.owner.rendererInstance ∈ renderers →
      entry.retired = true) (stats : NativeWorkerAuthorityStats) :
    Tabled { a with entries, retiredRenderers := renderers, stats } ∧
      Within a { a with entries, retiredRenderers := renderers, stats } := by
  have workers : entries.map (·.owner.worker) = a.entries.map (·.owner.worker) := by
    clear tombstones
    generalize a.entries = before at same
    induction same with
    | nil => rfl
    | cons becomes _ ih => rw [List.map_cons, List.map_cons, ih, becomes.owner]
  have back : ∀ entry' ∈ entries, ∃ entry ∈ a.entries, Becomes entry entry' := by
    intro entry' member
    obtain ⟨i, at'⟩ := List.mem_iff_getElem?.1 member
    obtain ⟨low, rfl⟩ := List.getElem?_eq_some_iff.1 at'
    have low' : i < a.entries.length := same.length_eq ▸ low
    exact ⟨a.entries[i], List.getElem_mem _, same.get low' low⟩
  have forth : ∀ entry ∈ a.entries, ∃ entry' ∈ entries, Becomes entry entry' := by
    intro entry member
    obtain ⟨i, at'⟩ := List.mem_iff_getElem?.1 member
    obtain ⟨low, rfl⟩ := List.getElem?_eq_some_iff.1 at'
    have low' : i < entries.length := same.length_eq ▸ low
    exact ⟨entries[i], List.getElem_mem _, same.get low low'⟩
  refine ⟨⟨same.length_eq ▸ tabled.capacity, workers ▸ tabled.distinct, ?_, tombstones,
    tabled.epoch, tabled.lease⟩, ⟨rfl, id, more, forth, same.length_eq.le⟩⟩
  intro entry' member
  obtain ⟨entry, was, becomes⟩ := back entry' member
  rw [becomes.owner]
  exact (tabled.owners entry was).imp becomes.retired id

/-- A new entry, for a worker that has none. -/
theorem Tabled.appended (tabled : Tabled a) {entry : Entry}
    (unknown : a.find entry.owner.worker = a.entries.length)
    (room : a.entries.length ≠ kNativeWorkerAuthorityCapacity)
    (owner : entry.retired = true ∨ (ownerValid entry.owner = true ∧
      entry.owner.rendererInstance ∉ a.retiredRenderers)) (stats : NativeWorkerAuthorityStats) :
    Tabled { a with entries := a.entries ++ [entry], stats } ∧
      Within a { a with entries := a.entries ++ [entry], stats } := by
  have capacity := tabled.capacity
  refine ⟨⟨?_, ?_, ?_, ?_, tabled.epoch, tabled.lease⟩, rfl, id, fun _ => id, ?_, ?_⟩
  · rw [List.length_append, List.length_singleton]
    omega
  · rw [List.map_append, List.map_singleton, List.nodup_append]
    refine ⟨tabled.distinct, List.nodup_singleton _, ?_⟩
    intro worker old worker' new
    obtain ⟨known, member, rfl⟩ := List.mem_map.1 old
    rw [List.mem_singleton.1 new]
    intro same
    have := find_lt (a := a) ⟨member, same⟩
    omega
  · intro known member
    rcases List.mem_append.1 member with old | new
    · exact tabled.owners known old
    · rw [List.mem_singleton.1 new]
      exact owner.imp id And.left
  · intro known member tombstoned
    rcases List.mem_append.1 member with old | new
    · exact tabled.tombstones known old tombstoned
    · rw [List.mem_singleton.1 new] at tombstoned ⊢
      exact owner.resolve_right fun valid => valid.2 tombstoned
  · exact fun known member => ⟨known, List.mem_append_left _ member, .refl known⟩
  · rw [List.length_append]
    exact Nat.le_add_right _ _

/-! ## Every report -/

/-- The table is as it was; at most the lease and the authority itself are withdrawn. -/
theorem Tabled.untouched (tabled : Tabled a) (a' : NativeWorkerAuthority) (scope : a'.scope = a.scope)
    (greatest : a'.greatestEpoch = a.greatestEpoch) (entries : a'.entries = a.entries)
    (renderers : a'.retiredRenderers = a.retiredRenderers)
    (current : a'.current = a.current ∨ a'.current = {})
    (active : a'.active = true → a.active = true) : Tabled a' ∧ Within a a' := by
  refine ⟨⟨entries ▸ tabled.capacity, entries ▸ tabled.distinct, entries ▸ tabled.owners, ?_, ?_, ?_⟩,
    scope, active, fun _ => renderers ▸ id, ?_, entries ▸ le_refl _⟩
  · rw [entries, renderers]
    exact tabled.tombstones
  · rw [scope, greatest]
    exact tabled.epoch
  · rcases current with same | none
    · rw [same, scope]
      exact tabled.lease
    · exact .inl none
  · intro entry member
    exact ⟨entry, entries ▸ member, .refl entry⟩

theorem forall₂_modify {change : Entry → Entry} (becomes : ∀ entry, Becomes entry (change entry))
    (entries : List Entry) (index : Nat) : List.Forall₂ Becomes entries (entries.modify index change) := by
  induction entries generalizing index with
  | nil => rw [List.modify_nil]; exact .nil
  | cons entry rest ih =>
      cases index with
      | zero =>
          rw [List.modify_zero_cons]
          exact .cons (becomes entry) (List.forall₂_same.2 fun entry _ => .refl entry)
      | succ index =>
          rw [List.modify_succ_cons]
          exact .cons (.refl entry) (ih index)

theorem Tabled.setEntry (tabled : Tabled a) (index : Nat) (change : Entry → Entry)
    (becomes : ∀ entry, Becomes entry (change entry)) (stats : NativeWorkerAuthorityStats) :
    Tabled { a.setEntry index change with stats } ∧ Within a { a.setEntry index change with stats } := by
  have same := forall₂_modify becomes a.entries index
  refine tabled.marked same (fun _ => id) ?_ stats
  intro entry' member tombstoned
  obtain ⟨i, at'⟩ := List.mem_iff_getElem?.1 member
  obtain ⟨low, rfl⟩ := List.getElem?_eq_some_iff.1 at'
  have low' : i < a.entries.length := same.length_eq ▸ low
  have was := same.get low' low
  simp only [List.get_eq_getElem] at was
  rw [was.owner] at tombstoned
  exact was.retired (tabled.tombstones _ (List.getElem_mem _) tombstoned)

theorem Tabled.reset (tabled : Tabled a) (scope : NativeWorkerAuthorityScope) (nowNs : Nat) :
    Tabled (a.reset scope nowNs).2 ∧ (Within a (a.reset scope nowNs).2 ∨
      a.scope.observerEpoch < (a.reset scope nowNs).2.scope.observerEpoch) := by
  rw [NativeWorkerAuthority.reset]
  split
  · have kept := tabled.untouched (reject { a with active := false, current := {} })
      rfl rfl rfl rfl (.inr rfl) (fun active => by cases active)
    exact ⟨kept.1, .inl kept.2⟩
  · next accepted =>
      have newer : a.greatestEpoch < scope.observerEpoch := by
        simp only [Bool.or_eq_true, decide_eq_true_eq, not_or] at accepted
        exact not_le.1 accepted.1.1.1.1.1.1.1.1
      refine ⟨⟨Nat.zero_le _, List.nodup_nil, by simp, by simp, rfl, .inl rfl⟩, .inr ?_⟩
      rw [tabled.epoch]
      exact newer

theorem Tabled.revoke (tabled : Tabled a) (observerEpoch : Nat) :
    Tabled (a.revoke observerEpoch).2 ∧ Within a (a.revoke observerEpoch).2 := by
  rw [NativeWorkerAuthority.revoke]
  split
  · exact ⟨tabled, .refl a⟩
  · exact tabled.untouched _ rfl rfl rfl rfl (.inr rfl) (fun active => by cases active)

theorem Tabled.dropForCapacity (tabled : Tabled a) :
    Tabled a.dropForCapacity ∧ Within a a.dropForCapacity :=
  tabled.untouched a.dropForCapacity rfl rfl rfl rfl (.inl rfl) id

theorem Tabled.created (tabled : Tabled a) (observerEpoch : Nat) (owner : NativeWorkerOwner)
    (nowNs : Nat) :
    Tabled (a.created observerEpoch owner nowNs).2 ∧ Within a (a.created observerEpoch owner nowNs).2 := by
  rw [NativeWorkerAuthority.created]
  split
  · exact ⟨tabled, .refl a⟩
  split
  · exact ⟨tabled, .refl a⟩
  split
  · exact tabled.revoke observerEpoch
  split
  · exact tabled.untouched a.reject rfl rfl rfl rfl (.inl rfl) id
  next valid =>
  split
  · exact ⟨tabled, .refl a⟩
  next living =>
  simp only []
  split
  · split
    · exact ⟨tabled, .refl a⟩
    split
    · exact ⟨tabled, .refl a⟩
    split
    · exact ⟨tabled, .refl a⟩
    · exact tabled.setEntry _ (fun entry => { entry with ambiguous := true })
        (fun _ => ⟨rfl, id, fun _ => rfl⟩) _
  next unknown =>
  split
  · exact tabled.dropForCapacity
  next room =>
  refine tabled.appended (le_antisymm (find_le _) (not_lt.1 unknown)) ?_ (.inr ⟨?_, ?_⟩) _
  · simpa using room
  · simpa using valid
  · simpa using living

theorem Tabled.retire (tabled : Tabled a) (index : Nat) :
    Tabled (a.retire index).2 ∧ Within a (a.retire index).2 := by
  rw [NativeWorkerAuthority.retire]
  split
  · exact ⟨tabled, .refl a⟩
  · exact tabled.setEntry index (fun entry => { entry with retired := true })
      (fun _ => ⟨rfl, fun _ => rfl, id⟩) _

theorem modify_concat (entries : List Entry) (entry : Entry) (change : Entry → Entry) :
    (entries ++ [entry]).modify entries.length change = entries ++ [change entry] := by
  induction entries with
  | nil => rfl
  | cons first rest ih =>
      rw [List.cons_append, List.length_cons, List.modify_succ_cons, ih, List.cons_append]

/-- A tombstone is placed with its flag down, and the flag is set at once. -/
theorem retire_placed {worker : NativeWorkerToken} (unknown : a.find worker = a.entries.length) :
    (retire { a with entries := a.entries ++ [{ owner := { worker } }] } (a.find worker)).2 =
      { a with
        entries := a.entries ++ [{ owner := { worker }, retired := true }]
        stats := { a.stats with destroyed := increment a.stats.destroyed } } := by
  have placed : entry { a with entries := a.entries ++ [{ owner := { worker } }] } (a.find worker) =
      { owner := { worker } } := by
    rw [unknown, entry, List.getD_eq_getElem?_getD, List.getElem?_concat_length]
    rfl
  have marked : (a.entries ++ [({ owner := { worker } } : Entry)]).modify (a.find worker)
      (fun entry => { entry with retired := true }) =
      a.entries ++ [{ owner := { worker }, retired := true }] := by
    rw [unknown]
    exact modify_concat _ _ _
  rw [retire, placed, NativeWorkerAuthority.setEntry, marked]
  rfl

theorem Tabled.destroyed (tabled : Tabled a) (observerEpoch : Nat) (worker : NativeWorkerToken) :
    Tabled (a.destroyed observerEpoch worker).2 ∧ Within a (a.destroyed observerEpoch worker).2 := by
  rw [NativeWorkerAuthority.destroyed]
  split
  · exact ⟨tabled, .refl a⟩
  split
  · exact ⟨tabled, .refl a⟩
  split
  · exact ⟨tabled, .refl a⟩
  simp only []
  split
  · next unknown =>
      rw [beq_iff_eq] at unknown
      split
      · exact tabled.dropForCapacity
      · next room =>
          rw [beq_iff_eq, unknown] at room
          rw [retire_placed unknown]
          exact tabled.appended unknown room (.inl rfl) _
  · exact tabled.retire _

theorem Tabled.retireRenderer (tabled : Tabled a) (renderer : NativeWorkerToken) :
    Tabled (retireRenderer { a with retiredRenderers := a.retiredRenderers ++ [renderer] } renderer) ∧
      Within a
        (retireRenderer { a with retiredRenderers := a.retiredRenderers ++ [renderer] } renderer) := by
  have becomes : ∀ entry : Entry, Becomes entry
      (if entry.owner.rendererInstance == renderer && !entry.retired then { entry with retired := true }
        else entry) := by
    intro entry
    split
    · exact ⟨rfl, fun _ => rfl, id⟩
    · exact .refl entry
  refine tabled.marked ?_ (fun _ => List.mem_append_left _) ?_ _
  · exact List.forall₂_map_right_iff.2 (List.forall₂_same.2 fun entry _ => becomes entry)
  · intro entry' member tombstoned
    obtain ⟨entry, was, rfl⟩ := List.mem_map.1 member
    rw [(becomes entry).owner] at tombstoned
    rcases List.mem_append.1 tombstoned with old | new
    · exact (becomes entry).retired (tabled.tombstones entry was old)
    · simp only [List.mem_singleton.1 new, beq_self_eq_true, Bool.true_and]
      cases flag : entry.retired <;> simp [flag]

theorem Tabled.rendererDestroyed (tabled : Tabled a) (observerEpoch : Nat)
    (renderer : NativeWorkerToken) :
    Tabled (a.rendererDestroyed observerEpoch renderer).2 ∧
      Within a (a.rendererDestroyed observerEpoch renderer).2 := by
  rw [NativeWorkerAuthority.rendererDestroyed]
  split
  · exact ⟨tabled, .refl a⟩
  split
  · exact ⟨tabled, .refl a⟩
  split
  · exact ⟨tabled, .refl a⟩
  split
  · exact ⟨tabled, .refl a⟩
  split
  · obtain ⟨dropped, within⟩ := tabled.dropForCapacity
    obtain ⟨revoked, after⟩ := dropped.revoke observerEpoch
    exact ⟨revoked, within.trans after⟩
  · exact tabled.retireRenderer renderer

theorem Tabled.issue (tabled : Tabled a) (worker connection : NativeWorkerToken) (nowNs : Nat) :
    Tabled (a.issue worker connection nowNs).2.2 ∧
      Within a (a.issue worker connection nowNs).2.2 := by
  rw [NativeWorkerAuthority.issue]
  simp only []
  split
  · exact ⟨tabled, .refl a⟩
  split
  · exact ⟨tabled, .refl a⟩
  split
  · exact tabled.revoke _
  · exact ⟨{ tabled with lease := .inr ⟨rfl, rfl, rfl, rfl⟩ }, { Within.refl a with }⟩

/-- A report either works on the table of its epoch or opens a newer epoch. -/
theorem Tabled.told (tabled : Tabled a) (report : Report) :
    Tabled (a.told report) ∧ (Within a (a.told report) ∨
      a.scope.observerEpoch < (a.told report).scope.observerEpoch) := by
  cases report with
  | reset scope nowNs => exact tabled.reset scope nowNs
  | created observerEpoch owner nowNs => exact (tabled.created observerEpoch owner nowNs).imp_right .inl
  | destroyed observerEpoch worker => exact (tabled.destroyed observerEpoch worker).imp_right .inl
  | rendererDestroyed observerEpoch renderer =>
      exact (tabled.rendererDestroyed observerEpoch renderer).imp_right .inl
  | documentDestroyed observerEpoch document documentGeneration =>
      rw [NativeWorkerAuthority.told, documentDestroyed]
      split
      · exact (tabled.revoke observerEpoch).imp_right .inl
      · exact ⟨tabled, .inl (.refl a)⟩
  | revoke observerEpoch => exact (tabled.revoke observerEpoch).imp_right .inl
  | issue worker connection nowNs => exact (tabled.issue worker connection nowNs).imp_right .inl

/-- Reports that end in the epoch they began in have worked on one table. -/
theorem Tabled.run (tabled : Tabled a) (reports : List Report) :
    Tabled (a.run reports) ∧ a.scope.observerEpoch ≤ (a.run reports).scope.observerEpoch ∧
      ((a.run reports).scope.observerEpoch = a.scope.observerEpoch → Within a (a.run reports)) := by
  induction reports generalizing a with
  | nil => exact ⟨tabled, le_refl _, fun _ => .refl a⟩
  | cons report rest ih =>
      obtain ⟨next, moved⟩ := tabled.told report
      obtain ⟨last, later, within⟩ := ih next
      refine ⟨last, ?_, fun same => ?_⟩
      · rcases moved with stays | opens
        · exact stays.scope ▸ later
        · exact opens.le.trans later
      · rcases moved with stays | opens
        · exact stays.trans (within (same.trans (congrArg _ stays.scope.symm)))
        · have : (a.run (report :: rest)).scope.observerEpoch =
            ((a.told report).run rest).scope.observerEpoch := rfl
          omega

theorem tabled_initial : Tabled {} :=
  ⟨Nat.zero_le _, List.nodup_nil, by simp, by simp, rfl, .inl rfl⟩

end NativeWorkerAuthority

end Reb.Worker
