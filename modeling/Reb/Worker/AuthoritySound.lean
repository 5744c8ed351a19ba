/-
# Worker.AuthoritySound -- an allowed worker has a proven chain of creators

`Chain` follows the recorded creators; it ends at a document, and by that alone it has
no cycle.  What a report settles within an epoch stays settled, because the table of an
epoch only grows: `worker_authority_sound` is about every run of reports.
-/
import Reb.Worker.AuthorityTable

namespace Reb.Worker

set_option autoImplicit false

namespace NativeWorkerAuthority

variable {a a' b : NativeWorkerAuthority}

/-! ## Chains of creators -/

/-- The recorded creators of a worker, up to the one a document created. -/
inductive Chain (a : NativeWorkerAuthority) : NativeWorkerToken → List Entry → Prop
  | document {worker : NativeWorkerToken} {entry : Entry} (records : a.Records worker entry)
      (kind : entry.owner.creatorKind = .document) : Chain a worker [entry]
  | worker {worker : NativeWorkerToken} {entry : Entry} {rest : List Entry}
      (records : a.Records worker entry) (kind : entry.owner.creatorKind ≠ .document)
      (creators : Chain a entry.owner.creator rest) : Chain a worker (entry :: rest)

/-- The chain shows that the worker belongs to the selected document of the epoch. -/
structure Proves (a : NativeWorkerAuthority) (worker : NativeWorkerToken) (chain : List Entry) :
    Prop where
  creators : Chain a worker chain
  living : ∀ entry ∈ chain, entry.retired = false
  unambiguous : ∀ entry ∈ chain, entry.ambiguous = false
  acyclic : (chain.map (·.owner.worker)).Nodup
  root : ∃ entry, chain.getLast? = some entry ∧ entry.owner.creator = a.scope.selectedFrame ∧
    entry.owner.creatorDocument = a.scope.selectedDocument ∧
    entry.owner.documentGeneration = a.scope.documentGeneration

theorem Chain.unique (tabled : Tabled a) {worker : NativeWorkerToken} {chain chain' : List Entry}
    (first : Chain a worker chain) (second : Chain a worker chain') : chain = chain' := by
  induction first generalizing chain' with
  | document records kind =>
      cases second with
      | document records' => rw [tabled.unique records records']
      | worker records' kind' => exact absurd (tabled.unique records records' ▸ kind) kind'
  | worker records kind creators ih =>
      cases second with
      | document records' kind' => exact absurd (tabled.unique records' records ▸ kind') kind
      | worker records' kind' creators' =>
          obtain rfl := tabled.unique records records'
          rw [ih creators']

/-- Every member of a chain has the rest of it as its own chain. -/
theorem Chain.suffix {worker : NativeWorkerToken} {chain : List Entry} (proof : Chain a worker chain)
    {entry : Entry} (member : entry ∈ chain) :
    a.Records entry.owner.worker entry ∧
      ∃ rest, Chain a entry.owner.worker rest ∧ rest.length ≤ chain.length := by
  induction proof with
  | document records kind =>
      obtain rfl := List.mem_singleton.1 member
      exact ⟨⟨records.1, rfl⟩, _, .document ⟨records.1, rfl⟩ kind, le_refl _⟩
  | worker records kind creators ih =>
      rcases List.mem_cons.1 member with rfl | later
      · exact ⟨⟨records.1, rfl⟩, _, .worker ⟨records.1, rfl⟩ kind creators, le_refl _⟩
      · obtain ⟨own, rest, proof, shorter⟩ := ih later
        exact ⟨own, rest, proof, shorter.trans (Nat.le_succ _)⟩

/-- A chain ends, so no worker is its own creator's creator. -/
theorem Chain.acyclic (tabled : Tabled a) {worker : NativeWorkerToken} {chain : List Entry}
    (proof : Chain a worker chain) : (chain.map (·.owner.worker)).Nodup := by
  induction proof with
  | document records kind => exact List.nodup_singleton _
  | @worker worker entry rest records kind creators ih =>
      rw [List.map_cons, List.nodup_cons]
      refine ⟨fun again => ?_, ih⟩
      obtain ⟨entry', member, same⟩ := List.mem_map.1 again
      obtain ⟨-, rest', proof', shorter⟩ := creators.suffix member
      rw [same, records.2] at proof'
      have whole := proof'.unique tabled (.worker records kind creators)
      rw [whole, List.length_cons] at shorter
      omega

theorem resolveFrom_allowed {hops index visited : Nat} (known : index < a.entries.length)
    (allowed : a.resolveFrom hops index visited = .allowed) :
    ∃ chain, Chain a (a.entry index).owner.worker chain ∧
      (∀ entry ∈ chain, entry.retired = false ∧ entry.ambiguous = false) ∧
      ∃ entry, chain.getLast? = some entry ∧ a.endsAt entry.owner = .allowed := by
  induction hops generalizing index visited with
  | zero => cases allowed
  | succ hops ih =>
      have records : a.Records (a.entry index).owner.worker (a.entry index) := by
        refine ⟨?_, rfl⟩
        rw [entry, List.getD_eq_getElem?_getD, List.getElem?_eq_getElem known]
        exact List.getElem_mem _
      rw [resolveFrom] at allowed
      simp only [] at allowed
      split at allowed
      · cases allowed
      split at allowed
      · cases allowed
      next living =>
      split at allowed
      · cases allowed
      next unambiguous =>
      rw [Bool.not_eq_true] at living unambiguous
      split at allowed
      · next kind =>
          refine ⟨[a.entry index], .document records (beq_iff_eq.1 kind), ?_, _, rfl, allowed⟩
          intro entry member
          rw [List.mem_singleton.1 member]
          exact ⟨living, unambiguous⟩
      next kind =>
      split at allowed
      · cases allowed
      next resolved =>
      have next' : a.find (a.entry index).owner.creator < a.entries.length :=
        lt_of_le_of_ne (find_le _) (by simpa using resolved)
      obtain ⟨chain, creators, sound, last, ends, root⟩ := ih next' allowed
      rw [(records_find next').2] at creators
      refine ⟨a.entry index :: chain, .worker records (by simpa using kind) creators, ?_, last, ?_, root⟩
      · intro entry member
        rcases List.mem_cons.1 member with rfl | later
        · exact ⟨living, unambiguous⟩
        · exact sound entry later
      · rw [List.getLast?_cons, ends]
        rfl

/-- An allowed decision rests on a proven chain. -/
theorem resolve_allowed (tabled : Tabled a) {worker : NativeWorkerToken} {nowNs : Nat}
    (allowed : a.resolve worker nowNs = .allowed) : a.active = true ∧ ∃ chain, a.Proves worker chain := by
  rw [resolve] at allowed
  split at allowed
  · cases allowed
  next active =>
  split at allowed
  · cases allowed
  simp only [] at allowed
  split at allowed
  · cases allowed
  next known =>
  have known : a.find worker < a.entries.length :=
    lt_of_le_of_ne (find_le _) (by simpa using known)
  obtain ⟨chain, proof, sound, last, ends, root⟩ := resolveFrom_allowed known allowed
  rw [(records_find known).2] at proof
  refine ⟨by simpa using active, chain, proof, fun entry member => (sound entry member).1,
    fun entry member => (sound entry member).2, proof.acyclic tabled, last, ends, ?_⟩
  rw [endsAt] at root
  split at root
  · next selected =>
      simp only [Bool.and_eq_true, beq_iff_eq] at selected
      exact ⟨selected.1.1, selected.1.2, selected.2⟩
  · cases root

/-! ## The search ends by itself -/

theorem visited_iff {visited index : Nat} : (visited &&& 1 <<< index != 0) = visited.testBit index := by
  rw [Nat.one_shiftLeft, Nat.and_two_pow]
  cases visited.testBit index <;> simp

theorem length_le_of_lt (seen : List Nat) {n : Nat} (distinct : seen.Nodup) (below : ∀ i ∈ seen, i < n) :
    seen.length ≤ n := by
  have range : seen ⊆ List.range n := fun i member => List.mem_range.2 (below i member)
  have := (List.subperm_of_subset distinct range).length_le
  rwa [List.length_range] at this

/-- With as many turns as there are entries unseen, more turns change nothing. -/
theorem resolveFrom_settled (seen : List Nat) {hops index visited : Nat} (distinct : seen.Nodup)
    (below : ∀ i ∈ seen, i < a.entries.length)
    (bits : ∀ i, visited.testBit i = true ↔ i ∈ seen) (known : index < a.entries.length)
    (enough : a.entries.length ≤ seen.length + hops) :
    a.resolveFrom (hops + 1) index visited = a.resolveFrom hops index visited := by
  induction hops generalizing seen index visited with
  | zero =>
      have visits : visited.testBit index = true := by
        rw [bits]
        by_contra fresh
        have := length_le_of_lt (index :: seen) (List.nodup_cons.2 ⟨fresh, distinct⟩)
          (by simpa using ⟨known, below⟩)
        rw [List.length_cons] at this
        omega
      rw [resolveFrom, resolveFrom]
      simp only [visited_iff, visits, if_true]
  | succ hops ih =>
      rw [resolveFrom]
      conv_rhs => rw [resolveFrom]
      simp only [visited_iff]
      split
      · rfl
      next fresh =>
      rw [bits] at fresh
      split
      · rfl
      split
      · rfl
      split
      · rfl
      split
      · rfl
      next resolved =>
      refine ih (index :: seen) (List.nodup_cons.2 ⟨fresh, distinct⟩)
        (by simpa using ⟨known, below⟩) (fun i => ?_)
        (lt_of_le_of_ne (find_le _) (by simpa using resolved)) (by rw [List.length_cons]; omega)
      rw [Nat.testBit_or, Bool.or_eq_true, bits, Nat.one_shiftLeft, Nat.testBit_two_pow, List.mem_cons]
      simp [or_comm, eq_comm]

/-- The 64 turns of the loop are never what ends the search. -/
theorem resolve_terminates (tabled : Tabled a) (worker : NativeWorkerToken)
    (known : a.find worker < a.entries.length) (more : Nat) :
    a.resolveFrom (kNativeWorkerAuthorityCapacity + more) (a.find worker) 0 =
      a.resolveFrom kNativeWorkerAuthorityCapacity (a.find worker) 0 := by
  induction more with
  | zero => rfl
  | succ more ih =>
      rw [← Nat.add_assoc, ← ih]
      refine resolveFrom_settled [] List.nodup_nil (by simp) (by simp) known ?_
      exact tabled.capacity.trans (by rw [List.length_nil]; omega)

/-! ## What stays settled within an epoch -/

/-- A worker and whoever created it, as far as the table says. -/
def Ancestor (a : NativeWorkerAuthority) : NativeWorkerToken → NativeWorkerToken → Prop :=
  Relation.ReflTransGen fun worker creator => ∃ entry, a.Records worker entry ∧
    entry.owner.creatorKind ≠ .document ∧ entry.owner.creator = creator

theorem Within.records (within : Within a a') {worker : NativeWorkerToken} {entry : Entry}
    (records : a.Records worker entry) : ∃ entry', a'.Records worker entry' ∧ Becomes entry entry' := by
  obtain ⟨entry', member, becomes⟩ := within.grows entry records.1
  refine ⟨entry', ⟨member, ?_⟩, becomes⟩
  rw [becomes.owner]
  exact records.2

theorem Within.ancestor (within : Within a a') {worker ancestor : NativeWorkerToken}
    (above : a.Ancestor worker ancestor) : a'.Ancestor worker ancestor := by
  induction above with
  | refl => exact .refl
  | tail _ step ih =>
      obtain ⟨entry, records, kind, rfl⟩ := step
      obtain ⟨entry', records', becomes⟩ := within.records records
      exact ih.tail ⟨entry', records', by rw [becomes.owner]; exact kind, by rw [becomes.owner]⟩

/-- The chain of a worker passes through all its ancestors. -/
theorem Chain.ancestor (tabled : Tabled a) {worker ancestor : NativeWorkerToken} {chain : List Entry}
    (proof : Chain a worker chain) (above : a.Ancestor worker ancestor) :
    ∃ entry ∈ chain, a.Records ancestor entry := by
  induction above using Relation.ReflTransGen.head_induction_on generalizing chain with
  | refl =>
      cases proof with
      | document records => exact ⟨_, List.mem_singleton_self _, records⟩
      | worker records => exact ⟨_, List.mem_cons_self, records⟩
  | head step _ ih =>
      obtain ⟨entry, records, kind, rfl⟩ := step
      cases proof with
      | document records' kind' => exact absurd (tabled.unique records' records ▸ kind') kind
      | worker records' kind' creators =>
          obtain rfl := tabled.unique records records'
          obtain ⟨entry', member, found⟩ := ih creators
          exact ⟨entry', List.mem_cons_of_mem _ member, found⟩

/-- No entry for the worker, and no room for one. -/
def ShutOut (a : NativeWorkerAuthority) (worker : NativeWorkerToken) : Prop :=
  (∀ entry, ¬ a.Records worker entry) ∧ a.entries.length = kNativeWorkerAuthorityCapacity

theorem Within.shutOut (within : Within a a') (tabled : Tabled a) (tabled' : Tabled a')
    {worker : NativeWorkerToken} (out : a.ShutOut worker) : a'.ShutOut worker := by
  obtain ⟨unknown, full⟩ := out
  have full' : a'.entries.length = kNativeWorkerAuthorityCapacity :=
    le_antisymm tabled'.capacity (full ▸ within.length)
  refine ⟨fun entry' records' => ?_, full'⟩
  have same : (a.entries.map (·.owner.worker)).Perm (a'.entries.map (·.owner.worker)) := by
    refine (List.subperm_of_subset tabled.distinct ?_).perm_of_length_le ?_
    · intro token member
      obtain ⟨entry, known, rfl⟩ := List.mem_map.1 member
      obtain ⟨entry', known', becomes⟩ := within.grows entry known
      exact List.mem_map.2 ⟨entry', known', by rw [becomes.owner]⟩
    · rw [List.length_map, List.length_map, full, full']
  obtain ⟨entry, member, named⟩ :=
    List.mem_map.1 (same.mem_iff.2 (List.mem_map.2 ⟨entry', records'.1, records'.2⟩))
  exact unknown entry ⟨member, named⟩

/-- The worker will not be allowed again in this epoch. -/
def Gone (a : NativeWorkerAuthority) (worker : NativeWorkerToken) : Prop :=
  a.active = false ∨ worker.valid = false ∨ a.ShutOut worker ∨
    ∃ entry, a.Records worker entry ∧ entry.retired = true

theorem inactive_of_within (within : Within a a') (inactive : a.active = false) :
    a'.active = false := by
  rw [← Bool.not_eq_true] at inactive ⊢
  exact mt within.active inactive

theorem Gone.within {worker : NativeWorkerToken} (gone : a.Gone worker) (within : Within a a')
    (tabled : Tabled a) (tabled' : Tabled a') : a'.Gone worker := by
  rcases gone with inactive | invalid | out | ⟨entry, records, retired⟩
  · exact .inl (inactive_of_within within inactive)
  · exact .inr (.inl invalid)
  · exact .inr (.inr (.inl (within.shutOut tabled tabled' out)))
  · obtain ⟨entry', records', becomes⟩ := within.records records
    exact .inr (.inr (.inr ⟨entry', records', becomes.retired retired⟩))

/-- No worker of this renderer will be allowed again in this epoch. -/
def RendererGone (a : NativeWorkerAuthority) (renderer : NativeWorkerToken) : Prop :=
  a.active = false ∨ renderer.valid = false ∨ renderer ∈ a.retiredRenderers

theorem RendererGone.within {renderer : NativeWorkerToken} (gone : a.RendererGone renderer)
    (within : Within a a') : a'.RendererGone renderer := by
  rcases gone with inactive | invalid | retired
  · exact .inl (inactive_of_within within inactive)
  · exact .inr (.inl invalid)
  · exact .inr (.inr (within.renderers renderer retired))

/-- What was said of the worker's owner is on record, or the worker is lost to the epoch. -/
def Claimed (a : NativeWorkerAuthority) (owner : NativeWorkerOwner) : Prop :=
  a.ShutOut owner.worker ∨ ∃ entry, a.Records owner.worker entry ∧
    (entry.owner = owner ∨ entry.ambiguous = true ∨ entry.retired = true)

theorem Claimed.within {owner : NativeWorkerOwner} (claimed : a.Claimed owner) (within : Within a a')
    (tabled : Tabled a) (tabled' : Tabled a') : a'.Claimed owner := by
  rcases claimed with out | ⟨entry, records, said⟩
  · exact .inl (within.shutOut tabled tabled' out)
  · obtain ⟨entry', records', becomes⟩ := within.records records
    exact .inr ⟨entry', records', said.imp becomes.owner.trans
      (Or.imp becomes.ambiguous becomes.retired)⟩

/-- A creation that the authority takes up: in time, well formed, from a living renderer. -/
structure Admits (a : NativeWorkerAuthority) (owner : NativeWorkerOwner) (nowNs : Nat) : Prop where
  active : a.active = true
  inTime : nowNs < a.scope.expiresAtNs
  valid : ownerValid owner = true
  living : owner.rendererInstance ∉ a.retiredRenderers

theorem records_setEntry {index : Nat} (change : Entry → Entry) (stats : NativeWorkerAuthorityStats)
    (known : index < a.entries.length) {worker : NativeWorkerToken}
    (named : (change (a.entry index)).owner.worker = worker) :
    Records { a.setEntry index change with stats } worker (change (a.entry index)) := by
  refine ⟨?_, named⟩
  have at' : (a.entries.modify index change)[index]? = some (change (a.entry index)) := by
    rw [List.getElem?_modify, List.getElem?_eq_getElem known, entry, List.getD_eq_getElem?_getD,
      List.getElem?_eq_getElem known]
    simp
  exact List.mem_of_getElem? at'

theorem shutOut_of_unknown {worker : NativeWorkerToken} (unknown : ¬ a.find worker < a.entries.length)
    (full : a.entries.length = kNativeWorkerAuthorityCapacity) :
    a.dropForCapacity.ShutOut worker :=
  ⟨fun _ records => unknown (find_lt (a := a) records), full⟩

theorem Admits.claimed {owner : NativeWorkerOwner} {nowNs : Nat} (admits : a.Admits owner nowNs) :
    (a.created a.scope.observerEpoch owner nowNs).2.Claimed owner := by
  have living : a.retiredRenderers.contains owner.rendererInstance = false := by
    simpa using admits.living
  rw [NativeWorkerAuthority.created, if_neg (by simp), if_neg (by simp [admits.active]),
    if_neg (not_le.2 admits.inTime), if_neg (by simp [admits.valid]), if_neg (by simp only [living,
      Bool.false_eq_true, not_false_eq_true])]
  simp only []
  split
  · next known =>
      have records := records_find known
      split
      · next retired => exact .inr ⟨_, records, .inr (.inr retired)⟩
      split
      · next ambiguous => exact .inr ⟨_, records, .inr (.inl ambiguous)⟩
      split
      · next same => exact .inr ⟨_, records, .inl (beq_iff_eq.1 same)⟩
      · exact .inr ⟨_, records_setEntry (fun entry => { entry with ambiguous := true }) _
          known records.2, .inr (.inl rfl)⟩
  · next unknown =>
      split
      · next full => exact .inl (shutOut_of_unknown unknown (beq_iff_eq.1 full))
      · exact .inr ⟨{ owner }, ⟨List.mem_append_right _ (List.mem_singleton_self _), rfl⟩, .inl rfl⟩

theorem retire_gone {worker : NativeWorkerToken} (known : a.find worker < a.entries.length) :
    (a.retire (a.find worker)).2.Gone worker := by
  have records := records_find known
  rw [retire]
  split
  · next retired => exact .inr (.inr (.inr ⟨_, records, retired⟩))
  · exact .inr (.inr (.inr ⟨_, records_setEntry (fun entry => { entry with retired := true }) _
      known records.2, rfl⟩))

theorem destroyed_gone (worker : NativeWorkerToken) :
    (a.destroyed a.scope.observerEpoch worker).2.Gone worker := by
  rw [NativeWorkerAuthority.destroyed, if_neg (by simp)]
  split
  · next inactive => exact .inl (by simpa using inactive)
  split
  · next invalid => exact .inr (.inl (by simpa using invalid))
  simp only []
  split
  · next unknown =>
      rw [beq_iff_eq] at unknown
      split
      · next full =>
          rw [beq_iff_eq, unknown] at full
          exact .inr (.inr (.inl (shutOut_of_unknown (by omega) full)))
      · rw [retire_placed unknown]
        exact .inr (.inr (.inr ⟨{ owner := { worker }, retired := true },
          ⟨List.mem_append_right _ (List.mem_singleton_self _), rfl⟩, rfl⟩))
  · next known => exact retire_gone (lt_of_le_of_ne (find_le _) (by simpa using known))

theorem rendererDestroyed_gone (renderer : NativeWorkerToken) :
    (a.rendererDestroyed a.scope.observerEpoch renderer).2.RendererGone renderer := by
  rw [NativeWorkerAuthority.rendererDestroyed, if_neg (by simp)]
  split
  · next inactive => exact .inl (by simpa using inactive)
  next active =>
  split
  · next invalid => exact .inr (.inl (by simpa using invalid))
  split
  · next retired => exact .inr (.inr (by simpa using retired))
  split
  · refine .inl ?_
    have active : a.active = true := by simpa using active
    simp [NativeWorkerAuthority.revoke, NativeWorkerAuthority.dropForCapacity, active]
  · exact .inr (.inr (List.mem_append_right _ (List.mem_singleton_self _)))

/-! ## Every run -/

/-- The report says that the worker, a creator of it, or the renderer of one of these is
destroyed, by what the table has on record. -/
def Ends (a : NativeWorkerAuthority) (worker : NativeWorkerToken) : Report → Prop
  | .destroyed observerEpoch gone =>
      observerEpoch = a.scope.observerEpoch ∧ a.Ancestor worker gone
  | .rendererDestroyed observerEpoch renderer =>
      observerEpoch = a.scope.observerEpoch ∧ ∃ ancestor entry, a.Ancestor worker ancestor ∧
        a.Records ancestor entry ∧ entry.owner.rendererInstance = renderer
  | _ => False

theorem Within.ends (within : Within a a') {worker : NativeWorkerToken} {report : Report}
    (ends : a.Ends worker report) : a'.Ends worker report := by
  cases report with
  | destroyed observerEpoch gone =>
      exact ⟨ends.1.trans (congrArg _ within.scope.symm), within.ancestor ends.2⟩
  | rendererDestroyed observerEpoch renderer =>
      obtain ⟨same, ancestor, entry, above, records, rfl⟩ := ends
      obtain ⟨entry', records', becomes⟩ := within.records records
      exact ⟨same.trans (congrArg _ within.scope.symm), ancestor, entry', within.ancestor above,
        records', by rw [becomes.owner]⟩
  | reset | created | documentDestroyed | revoke | issue => exact ends.elim

theorem Gone.not_allowed (tabled : Tabled a) {worker ancestor : NativeWorkerToken} {nowNs : Nat}
    (gone : a.Gone ancestor) (above : a.Ancestor worker ancestor) :
    a.resolve worker nowNs ≠ .allowed := by
  intro allowed
  obtain ⟨active, chain, proves⟩ := resolve_allowed tabled allowed
  obtain ⟨entry, member, records⟩ := proves.creators.ancestor tabled above
  have living := proves.living entry member
  rcases gone with inactive | invalid | ⟨unknown, -⟩ | ⟨entry', records', retired⟩
  · rw [active] at inactive
    cases inactive
  · rcases tabled.owners entry records.1 with retired | valid
    · rw [living] at retired
      cases retired
    · simp only [ownerValid, Bool.and_eq_true] at valid
      rw [records.2, invalid] at valid
      simp at valid
  · exact unknown entry records
  · rw [tabled.unique records' records, living] at retired
    cases retired

theorem RendererGone.not_allowed (tabled : Tabled a) {worker ancestor : NativeWorkerToken}
    {entry : Entry} {nowNs : Nat} (gone : a.RendererGone entry.owner.rendererInstance)
    (records : a.Records ancestor entry) (above : a.Ancestor worker ancestor) :
    a.resolve worker nowNs ≠ .allowed := by
  intro allowed
  obtain ⟨active, chain, proves⟩ := resolve_allowed tabled allowed
  obtain ⟨entry', member, records'⟩ := proves.creators.ancestor tabled above
  obtain rfl := tabled.unique records records'
  have living := proves.living entry member
  rcases gone with inactive | invalid | retired
  · rw [active] at inactive
    cases inactive
  · rcases tabled.owners entry records.1 with retired | valid
    · rw [living] at retired
      cases retired
    · simp only [ownerValid, Bool.and_eq_true] at valid
      rw [invalid] at valid
      simp at valid
  · rw [tabled.tombstones entry records.1 retired] at living
    cases living

/-- What an allowed decision and a current lease rest on, now and for the rest of the epoch. -/
structure Sound (a : NativeWorkerAuthority) : Prop where
  allowed : ∀ worker nowNs, a.resolve worker nowNs = .allowed → ∃ chain, a.Proves worker chain
  current : ∀ lease nowNs, a.isCurrent lease nowNs = true →
    lease.observerEpoch = a.scope.observerEpoch ∧ lease.selectedDocument = a.scope.selectedDocument ∧
      ∃ chain, a.Proves lease.policy.worker chain
  /-- After a report of a destruction nothing that follows in the epoch allows the worker. -/
  ended : ∀ report later, (a.run (report :: later)).scope.observerEpoch = a.scope.observerEpoch →
    ∀ worker, a.Ends worker report ∨ (a.run (report :: later)).Ends worker report → ∀ nowNs,
      (a.run (report :: later)).resolve worker nowNs ≠ .allowed ∧
        ∀ lease, lease.policy.worker = worker →
          (a.run (report :: later)).isCurrent lease nowNs = false
  /-- Of one worker no two admitted reports of the epoch contradict each other. -/
  claims : ∀ owner saidNs later, a.Admits owner saidNs →
    (a.run (.created a.scope.observerEpoch owner saidNs :: later)).scope.observerEpoch =
      a.scope.observerEpoch →
    ∀ worker chain,
      (a.run (.created a.scope.observerEpoch owner saidNs :: later)).Proves worker chain →
      ∀ entry ∈ chain, entry.owner.worker = owner.worker → entry.owner = owner
  /-- No search needs more turns than the loop has. -/
  terminates : ∀ worker more, a.find worker < a.entries.length →
    a.resolveFrom (kNativeWorkerAuthorityCapacity + more) (a.find worker) 0 =
      a.resolveFrom kNativeWorkerAuthorityCapacity (a.find worker) 0

theorem isCurrent_allowed {lease : NativeWorkerLease} {nowNs : Nat}
    (current : a.isCurrent lease nowNs = true) :
    lease = a.current ∧ isValidNativeWorkerLease lease nowNs = true ∧
      a.resolve lease.policy.worker nowNs = .allowed := by
  simp only [isCurrent, Bool.and_eq_true, beq_iff_eq] at current
  exact ⟨current.1.1.2, current.1.2, current.2⟩

theorem Tabled.current (tabled : Tabled a) {lease : NativeWorkerLease} {nowNs : Nat}
    (current : a.isCurrent lease nowNs = true) :
    lease.observerEpoch = a.scope.observerEpoch ∧
      lease.selectedDocument = a.scope.selectedDocument := by
  obtain ⟨rfl, valid, -⟩ := isCurrent_allowed current
  rcases tabled.lease with none | ⟨epoch, -, document, -⟩
  · rw [none] at valid
    cases valid
  · exact ⟨epoch, document⟩

/-- Reports within an epoch: what the report settled holds of the last table. -/
theorem Tabled.settled (tabled : Tabled a) {report : Report} {later : List Report}
    (same : (a.run (report :: later)).scope.observerEpoch = a.scope.observerEpoch) :
    Tabled (a.told report) ∧ Within a (a.told report) ∧ Tabled (a.run (report :: later)) ∧
      Within (a.told report) (a.run (report :: later)) := by
  obtain ⟨next, moved⟩ := tabled.told report
  obtain ⟨last, grows, within⟩ := next.run later
  have within' : Within a (a.told report) := by
    rcases moved with stays | opens
    · exact stays
    · have : (a.run (report :: later)).scope.observerEpoch =
        ((a.told report).run later).scope.observerEpoch := rfl
      omega
  exact ⟨next, within', last, within (same.trans (congrArg _ within'.scope.symm))⟩

theorem Tabled.ended (tabled : Tabled a) {report : Report} {later : List Report}
    (same : (a.run (report :: later)).scope.observerEpoch = a.scope.observerEpoch)
    {worker : NativeWorkerToken} (ends : (a.run (report :: later)).Ends worker report) (nowNs : Nat) :
    (a.run (report :: later)).resolve worker nowNs ≠ .allowed := by
  obtain ⟨next, first, last, rest⟩ := tabled.settled same
  cases report with
  | destroyed observerEpoch gone =>
      obtain ⟨epoch, above⟩ := ends
      obtain rfl : observerEpoch = a.scope.observerEpoch := epoch.trans same
      have settled : (a.told (.destroyed a.scope.observerEpoch gone)).Gone gone := destroyed_gone gone
      exact (settled.within rest next last).not_allowed last above
  | rendererDestroyed observerEpoch renderer =>
      obtain ⟨epoch, ancestor, entry, above, records, rfl⟩ := ends
      obtain rfl : observerEpoch = a.scope.observerEpoch := epoch.trans same
      have settled : (a.told (.rendererDestroyed a.scope.observerEpoch
        entry.owner.rendererInstance)).RendererGone entry.owner.rendererInstance :=
        rendererDestroyed_gone _
      exact (settled.within rest).not_allowed last records above
  | reset | created | documentDestroyed | revoke | issue => exact ends.elim

/-- In every run of reports, in any order. -/
theorem worker_authority_sound (reports : List Report) : Sound (run {} reports) := by
  have tabled : Tabled (run {} reports) := (tabled_initial.run reports).1
  generalize run {} reports = a at tabled
  refine ⟨fun worker nowNs allowed => (resolve_allowed tabled allowed).2, ?_, ?_, ?_,
    fun worker more known => resolve_terminates tabled worker known more⟩
  · intro lease nowNs current
    obtain ⟨epoch, document⟩ := tabled.current current
    exact ⟨epoch, document, (resolve_allowed tabled (isCurrent_allowed current).2.2).2⟩
  · intro report later same worker ends nowNs
    obtain ⟨-, first, -, rest⟩ := tabled.settled same
    have ends' : (a.run (report :: later)).Ends worker report :=
      ends.elim (fun before => (first.trans rest).ends before) id
    have refused := tabled.ended same ends' nowNs
    refine ⟨refused, fun lease named => ?_⟩
    rw [← Bool.not_eq_true]
    intro current
    exact refused (named ▸ (isCurrent_allowed current).2.2)
  · intro owner saidNs later admits same worker chain proves entry member named
    obtain ⟨next, -, last, rest⟩ := tabled.settled same
    have claimed := Claimed.within (show (a.told (.created a.scope.observerEpoch owner saidNs)).Claimed
      owner from admits.claimed) rest next last
    have records := (proves.creators.suffix member).1
    rw [named] at records
    rcases claimed with ⟨unknown, -⟩ | ⟨entry', records', said⟩
    · exact absurd records (unknown entry)
    · obtain rfl := last.unique records records'
      rcases said with same' | ambiguous | retired
      · exact same'
      · rw [proves.unambiguous entry member] at ambiguous
        cases ambiguous
      · rw [proves.living entry member] at retired
        cases retired

/-- A worker that a document created, and the worker that this one created: the child's
lease falls with the parent. -/
example :
    let scope : NativeWorkerAuthorityScope := ⟨1, 71, 1, 1000, ⟨1, 2⟩, ⟨3, 4⟩, ⟨5, 6⟩, ⟨7, 8⟩⟩
    let root : NativeWorkerOwner := ⟨⟨9, 10⟩, ⟨11, 12⟩, ⟨5, 6⟩, .document, ⟨7, 8⟩, 1⟩
    let child : NativeWorkerOwner := ⟨⟨20, 21⟩, ⟨22, 23⟩, ⟨9, 10⟩, .dedicatedWorker, {}, 0⟩
    let granted := run {} [.reset scope 100, .created 1 child 100, .created 1 root 100,
      .issue ⟨20, 21⟩ ⟨30, 31⟩ 100]
    granted.isCurrent granted.current 100 = true ∧
      (granted.told (.destroyed 1 ⟨9, 10⟩)).isCurrent granted.current 100 = false := by
  decide +kernel

end NativeWorkerAuthority

end Reb.Worker
