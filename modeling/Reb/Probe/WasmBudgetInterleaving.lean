/-
# Probe.WasmBudgetInterleaving -- budget claims of racing threads

A thread that counts a sample compared the key some accesses ago.  What it may
conclude when its exchange succeeds is carried by lives: if the slot is still in
the life of the stamp it loaded, it has been published all along and its key
words have not moved.  A thread that stores a key owns the slot until it clears
the publish bit.
-/
import Reb.Probe.WasmBudgetLedger

namespace Reb.Probe

set_option autoImplicit false

open Theory.Interleaving

variable {ι : Type} {n : Nat} {run run' run'' : BudgetRun ι n} {i j : ι}

/-! ## The runs that are looked at -/

/-- The retain a thread is in. -/
def BudgetPc.frame? : BudgetPc n → Option (RetainFrame n)
  | .matching _ frame _ _ | .loadClaimed frame _ | .exchangeClaimed frame _ _ | .loadProbed frame
  | .takeOver frame _ _ | .storeKind frame _ | .storePrimary frame _ | .storeSecondary frame _
  | .publish frame _ | .loadPrior frame _ _ _ | .loadReleased _ _ _ (.retry frame)
  | .loadReleased _ _ _ (.claim frame _) | .exchangeReleased _ _ _ _ (.retry frame)
  | .exchangeReleased _ _ _ _ (.claim frame _) => some frame
  | _ => none

/-- The thread is not about to take over a slot of a newer epoch. -/
def TakesNoNewer (run : BudgetRun ι n) : BudgetPc n → Prop
  | .takeOver frame stamp _ =>
      (run.slots frame.index).stamp = stamp → nativeWasmBudgetEpochOf stamp ≤ frame.epoch
  | _ => True

instance decidableTakesNoNewer (run : BudgetRun ι n) : (pc : BudgetPc n) →
    Decidable (TakesNoNewer run pc)
  | .takeOver frame stamp _ => inferInstanceAs (Decidable ((run.slots frame.index).stamp = stamp →
      nativeWasmBudgetEpochOf stamp ≤ frame.epoch))
  | .idle | .matching .. | .loadClaimed .. | .exchangeClaimed .. | .loadProbed .. | .storeKind ..
  | .storePrimary .. | .storeSecondary .. | .publish .. | .loadPrior .. | .loadReleased ..
  | .exchangeReleased .. | .retainReturned .. | .releaseReturned => .isTrue trivial

/-- The retain asks as its callers do and takes over no slot of a newer epoch. -/
def Meets (_ : ι) (run : BudgetRun ι n) (pc : BudgetPc n) : Prop :=
  (∀ frame ∈ pc.frame?, frame.key.Asked) ∧ TakesNoNewer run pc

instance decidableMeets (i : ι) (run : BudgetRun ι n) (pc : BudgetPc n) :
    Decidable (Meets i run pc) :=
  inferInstanceAs (Decidable ((∀ frame ∈ pc.frame?, frame.key.Asked) ∧ TakesNoNewer run pc))

/-! ## What each thread relies on -/

/-- While the slot is in the life of `stamp` it is published with words in `P`. -/
def Since (run : BudgetRun ι n) (slot : Fin n) (stamp : UInt64)
    (P : UInt32 × UInt32 × UInt32 → Prop) : Prop :=
  life stamp ≤ life (run.slots slot).stamp ∧
    (life (run.slots slot).stamp = life stamp →
      publishBitSet (run.slots slot).stamp = false ∧ P (run.slots slot).words)

/-- The words `NativeWasmBudgetKeyMatches` has compared before a load. -/
def MatchLoad.Compared (key : BudgetKey) (words : UInt32 × UInt32 × UInt32) : MatchLoad → Prop
  | .stamp | .kind => True
  | .primary => words.1 = key.kind.toUInt32
  | .secondary => words.1 = key.kind.toUInt32 ∧ words.2.1 = key.primary

/-- The thread stores its key into the slot of its frame. -/
def Owned (i : ι) (run : BudgetRun ι n) (frame : RetainFrame n) (incarnation : UInt32) : Prop :=
  run.owner frame.index = some i ∧ incarnation.toNat < 2 ^ 16 ∧
    (run.slots frame.index).stamp = publishingStamp frame.epoch incarnation

/-- The change `index` is the thread's publication, not yet returned. -/
def Entered (i : ι) (run : BudgetRun ι n) (frame : RetainFrame n) (incarnation : UInt32)
    (index : Nat) : Prop :=
  (∃ change, run.changes[index]? = some change ∧ change.thread = i ∧
    BudgetRun.CountedBy ⟨frame.index, frame.epoch, incarnation, frame.key, index⟩ change) ∧
    index ∉ run.retained.map BudgetRetained.change

def BudgetPc.Asserts (i : ι) (run : BudgetRun ι n) : BudgetPc n → Prop
  | .matching load frame index (.claiming stamp) =>
      nativeWasmBudgetStampVisible stamp frame.epoch = true ∧
        Since run index stamp fun words => load.Compared frame.key words
  | .matching _ frame _ (.checkingEarlier incarnation change _) =>
      Entered i run frame incarnation change
  | .exchangeClaimed frame index stamp =>
      nativeWasmBudgetStampVisible stamp frame.epoch = true ∧
        nativeWasmBudgetCountOf stamp < frame.limit ∧
        Since run index stamp (WordsMatch frame.key)
  | .takeOver frame stamp incarnation =>
      publishBitSet stamp = false ∧ previousIncarnation stamp frame.epoch ≠ 0xffff ∧
        incarnation = previousIncarnation stamp frame.epoch + 1
  | .storeKind frame incarnation => Owned i run frame incarnation
  | .storePrimary frame incarnation =>
      Owned i run frame incarnation ∧
        (run.slots frame.index).kind = frame.key.kind.toUInt32
  | .storeSecondary frame incarnation =>
      Owned i run frame incarnation ∧
        (run.slots frame.index).kind = frame.key.kind.toUInt32 ∧
        (run.slots frame.index).primary = frame.key.primary
  | .publish frame incarnation =>
      Owned i run frame incarnation ∧ (run.slots frame.index).words = frame.key.words
  | .loadPrior frame incarnation change _ => Entered i run frame incarnation change
  | .exchangeReleased _ epoch incarnation stamp _ =>
      nativeWasmBudgetStampVisible stamp epoch = true ∧
        nativeWasmBudgetIncarnationOf stamp = incarnation ∧ nativeWasmBudgetCountOf stamp ≠ 0
  | .retainReturned (.kRetained slot incarnation) =>
      ∃ r ∈ run.retained, r.slot = slot ∧ r.incarnation = incarnation
  | _ => True

/-! ## What an access leaves alone -/

/-- A slot goes on to later lives; a published key stays as long as its life. -/
def Evolves (slot slot' : NativeWasmBudgetKeySlot) : Prop :=
  life slot.stamp ≤ life slot'.stamp ∧
    (life slot'.stamp = life slot.stamp → publishBitSet slot.stamp = false →
      publishBitSet slot'.stamp = false ∧ slot'.words = slot.words)

theorem Evolves.refl (slot : NativeWasmBudgetKeySlot) : Evolves slot slot :=
  ⟨le_refl _, fun _ shown => ⟨shown, rfl⟩⟩

theorem Evolves.trans {slot slot' slot'' : NativeWasmBudgetKeySlot} (first : Evolves slot slot')
    (second : Evolves slot' slot'') : Evolves slot slot'' := by
  refine ⟨first.1.trans second.1, fun same shown => ?_⟩
  have middle : life slot'.stamp = life slot.stamp :=
    le_antisymm (second.1.trans same.le) first.1
  obtain ⟨shown', words⟩ := first.2 middle shown
  obtain ⟨shown'', words'⟩ := second.2 (same.trans middle.symm) shown'
  exact ⟨shown'', words'.trans words⟩

/-- What the other threads may rely on when the thread `j` moves. -/
structure Follows (j : ι) (run run' : BudgetRun ι n) : Prop where
  evolves : ∀ slot, Evolves (run.slots slot) (run'.slots slot)
  owned : ∀ slot i, i ≠ j → run.owner slot = some i →
    publishBitSet (run.slots slot).stamp = true →
      run'.owner slot = some i ∧ run'.slots slot = run.slots slot
  changes : ∀ {index : Nat} {change}, run.changes[index]? = some change →
    run'.changes[index]? = some change
  returned : ∀ r ∈ run'.retained, r ∈ run.retained ∨
    ∃ change, run'.changes[r.change]? = some change ∧ change.thread = j
  retained : ∀ r ∈ run.retained, r ∈ run'.retained

namespace Follows

theorem refl (j : ι) (run : BudgetRun ι n) : Follows j run run where
  evolves _ := .refl _
  owned _ _ _ owner _ := ⟨owner, rfl⟩
  changes := id
  returned _ := .inl
  retained _ := id

theorem trans (first : Follows j run run') (second : Follows j run' run'') :
    Follows j run run'' where
  evolves slot := (first.evolves slot).trans (second.evolves slot)
  owned slot i other owner hidden := by
    obtain ⟨owner', same⟩ := first.owned slot i other owner hidden
    obtain ⟨owner'', same'⟩ := second.owned slot i other owner' (same ▸ hidden)
    exact ⟨owner'', same'.trans same⟩
  changes found := second.changes (first.changes found)
  returned r member := by
    rcases second.returned r member with before | now
    · rcases first.returned r before with old | ⟨change, found, thread⟩
      · exact .inl old
      · exact .inr ⟨change, second.changes found, thread⟩
    · exact .inr now
  retained r member := second.retained r (first.retained r member)

variable {slot : Fin n}

/-- An exchange of a stamp that no other thread owns. -/
theorem exchange {epoch : UInt64} {incarnation : UInt32} {effect : BudgetEffect} {stamp : UInt64}
    (evolves : Evolves (run.slots slot) { run.slots slot with stamp })
    (mine : publishBitSet (run.slots slot).stamp = true → run.owner slot = some j) :
    Follows j run (run.exchange j slot epoch incarnation effect stamp) where
  evolves s := by
    by_cases same : s = slot
    · subst same
      rw [BudgetRun.exchange_slot_same]
      exact evolves
    · rw [BudgetRun.exchange_slot_other same]
      exact .refl _
  owned s i other owner hidden := by
    refine ⟨owner, BudgetRun.exchange_slot_other ?_⟩
    rintro rfl
    rw [mine hidden] at owner
    exact other (Option.some.inj owner).symm
  changes := BudgetRun.exchange_keeps
  returned _ := .inl
  retained _ := id

/-- A thread that owns a slot, or finds it published, sets its owner. -/
theorem setOwner {owner : Option ι}
    (free : run.owner slot = some j ∨ publishBitSet (run.slots slot).stamp = false) :
    Follows j run (run.setOwner slot owner) where
  evolves s := .refl _
  owned s i other owned hidden := by
    refine ⟨?_, rfl⟩
    have apart : s ≠ slot := by
      rintro rfl
      rcases free with mine | shown
      · rw [mine] at owned
        exact other (Option.some.inj owned).symm
      · rw [shown] at hidden
        exact Bool.noConfusion hidden
    simpa [BudgetRun.setOwner, apart] using owned
  changes := id
  returned _ := .inl
  retained _ := id

/-- The owner stores a key word. -/
theorem setSlot {after : NativeWasmBudgetKeySlot} (mine : run.owner slot = some j)
    (same : after.stamp = (run.slots slot).stamp)
    (hidden : publishBitSet (run.slots slot).stamp = true) :
    Follows j run (run.setSlot slot after) where
  evolves s := by
    by_cases equal : s = slot
    · subst equal
      simp only [BudgetRun.setSlot, Function.update_self]
      refine ⟨(congrArg life same).ge, fun _ shown => ?_⟩
      rw [hidden] at shown
      exact Bool.noConfusion shown
    · simp only [BudgetRun.setSlot, Function.update_of_ne equal]
      exact .refl _
  owned s i other owned _ := by
    have apart : s ≠ slot := by
      rintro rfl
      rw [mine] at owned
      exact other (Option.some.inj owned).symm
    exact ⟨owned, Function.update_of_ne apart _ _⟩
  changes := id
  returned _ := .inl
  retained _ := id

theorem retain {epoch : UInt64} {incarnation : UInt32} {key : BudgetKey} {index : Nat}
    {change : BudgetChange ι n} (found : run.changes[index]? = some change)
    (thread : change.thread = j) : Follows j run (run.retain slot epoch incarnation key index) where
  evolves s := .refl _
  owned _ _ _ owner _ := ⟨owner, rfl⟩
  changes := id
  returned r member := by
    rcases List.mem_append.1 member with old | new
    · exact .inl old
    · rw [List.mem_singleton.1 new]
      exact .inr ⟨change, found, thread⟩
  retained _ := List.mem_append_left _

end Follows

theorem Since.follows {slot : Fin n} {stamp : UInt64} {P : UInt32 × UInt32 × UInt32 → Prop}
    (since : Since run slot stamp P) (follows : Follows j run run') : Since run' slot stamp P := by
  obtain ⟨later, stays⟩ := follows.evolves slot
  refine ⟨since.1.trans later, fun same => ?_⟩
  have before : life (run.slots slot).stamp = life stamp :=
    le_antisymm (later.trans same.le) since.1
  obtain ⟨shown, holds⟩ := since.2 before
  obtain ⟨shown', words⟩ := stays (same.trans before.symm) shown
  exact ⟨shown', words ▸ holds⟩

theorem Owned.hidden {frame : RetainFrame n} {incarnation : UInt32}
    (owned : Owned i run frame incarnation) :
    publishBitSet (run.slots frame.index).stamp = true := by
  rw [owned.2.2]
  exact (views_publishing (retain_arguments frame.valid).2.2 owned.2.1).2.2.1

theorem Owned.follows {frame : RetainFrame n} {incarnation : UInt32}
    (owned : Owned i run frame incarnation) (follows : Follows j run run') (other : i ≠ j) :
    Owned i run' frame incarnation ∧ run'.slots frame.index = run.slots frame.index := by
  obtain ⟨owner, same⟩ := follows.owned _ i other owned.1 owned.hidden
  exact ⟨⟨owner, owned.2.1, same ▸ owned.2.2⟩, same⟩

theorem Entered.follows {frame : RetainFrame n} {incarnation : UInt32} {index : Nat}
    (entered : Entered i run frame incarnation index) (follows : Follows j run run')
    (other : i ≠ j) : Entered i run' frame incarnation index := by
  obtain ⟨⟨change, found, thread, counted⟩, fresh⟩ := entered
  refine ⟨⟨change, follows.changes found, thread, counted⟩, fun member => ?_⟩
  obtain ⟨r, rMember, same⟩ := List.mem_map.1 member
  rcases follows.returned r rMember with old | ⟨change', found', thread'⟩
  · exact fresh (same ▸ List.mem_map_of_mem old)
  · rw [same, follows.changes found] at found'
    rw [← Option.some.inj found'] at thread'
    exact other (thread.symm.trans thread')

theorem BudgetPc.Asserts.follows {pc : BudgetPc n} (asserts : pc.Asserts i run)
    (follows : Follows j run run') (other : i ≠ j) : pc.Asserts i run' := by
  cases pc with
  | matching load frame index use =>
      cases use with
      | probing => exact trivial
      | claiming stamp => exact ⟨asserts.1, asserts.2.follows follows⟩
      | checkingEarlier incarnation change earlier =>
          exact Entered.follows asserts follows other
  | exchangeClaimed frame index stamp =>
      exact ⟨asserts.1, asserts.2.1, asserts.2.2.follows follows⟩
  | takeOver frame stamp incarnation => exact asserts
  | storeKind frame incarnation => exact (Owned.follows asserts follows other).1
  | storePrimary frame incarnation =>
      obtain ⟨owned, same⟩ := asserts.1.follows follows other
      exact ⟨owned, same ▸ asserts.2⟩
  | storeSecondary frame incarnation =>
      obtain ⟨owned, same⟩ := asserts.1.follows follows other
      exact ⟨owned, same ▸ asserts.2⟩
  | publish frame incarnation =>
      obtain ⟨owned, same⟩ := asserts.1.follows follows other
      exact ⟨owned, same ▸ asserts.2⟩
  | loadPrior frame incarnation change earlier => exact Entered.follows asserts follows other
  | exchangeReleased index epoch incarnation stamp next => exact asserts
  | retainReturned result =>
      cases result with
      | kRetained slot incarnation =>
          obtain ⟨r, member, same⟩ := asserts
          exact ⟨r, follows.retained r member, same⟩
      | kCapped => exact trivial
  | _ => exact trivial

/-! ## One access -/

/-- An access keeps the ledger, the other threads' assertions and its own thread's. -/
structure Sound (i : ι) (run : BudgetRun ι n) (moved : BudgetRun ι n × BudgetPc n) : Prop where
  consistent : moved.1.Consistent
  follows : Follows i run moved.1
  asserts : moved.2.Asserts i moved.1

theorem Sound.quiet (consistent : run.Consistent) {pc : BudgetPc n} (asserts : pc.Asserts i run) :
    Sound i run (run, pc) :=
  ⟨consistent, .refl i run, asserts⟩

theorem shown_of_visible {stamp epoch : UInt64}
    (visible : nativeWasmBudgetStampVisible stamp epoch = true) : publishBitSet stamp = false :=
  (stampVisible_iff.1 visible).2

theorem Since.loaded {slot : Fin n} {epoch : UInt64} {P : UInt32 × UInt32 × UInt32 → Prop}
    (visible : nativeWasmBudgetStampVisible (run.slots slot).stamp epoch = true)
    (holds : P (run.slots slot).words) : Since run slot (run.slots slot).stamp P :=
  ⟨le_refl _, fun _ => ⟨shown_of_visible visible, holds⟩⟩

theorem Since.compared {slot : Fin n} {stamp : UInt64} {P Q : UInt32 × UInt32 × UInt32 → Prop}
    (since : Since run slot stamp P)
    (compared : P (run.slots slot).words → Q (run.slots slot).words) : Since run slot stamp Q :=
  ⟨since.1, fun same => ⟨(since.2 same).1, compared (since.2 same).2⟩⟩

namespace RetainFrame

variable (frame : RetainFrame n)

end RetainFrame

/-- No retain has returned for a change that is yet to be recorded. -/
theorem BudgetRun.Consistent.fresh (consistent : run.Consistent) :
    run.changes.length ∉ run.retained.map BudgetRetained.change := by
  intro member
  obtain ⟨r, rMember, same⟩ := List.mem_map.1 member
  obtain ⟨change, found, -⟩ := consistent.retained r rMember
  obtain ⟨inRange, -⟩ := List.getElem?_eq_some_iff.1 found
  exact absurd same inRange.ne

/-- The owner stores one key word and goes on owning the slot. -/
theorem store_sound {frame : RetainFrame n} {incarnation : UInt32}
    {after : NativeWasmBudgetKeySlot} {pc : BudgetPc n} (consistent : run.Consistent)
    (owned : Owned i run frame incarnation)
    (same : after.stamp = (run.slots frame.index).stamp)
    (asserts : Owned i (run.setSlot frame.index after) frame incarnation →
      (run.setSlot frame.index after).slots frame.index = after →
      pc.Asserts i (run.setSlot frame.index after)) :
    Sound i run (run.setSlot frame.index after, pc) := by
  have stored : (run.setSlot frame.index after).slots frame.index = after :=
    Function.update_self ..
  refine ⟨consistent.setSlot same (same ▸ owned.hidden), .setSlot owned.1 same owned.hidden,
    asserts ⟨owned.1, owned.2.1, ?_⟩ stored⟩
  rw [stored, same]
  exact owned.2.2

/-- A schedule in which `thread` makes `accesses` accesses of one call. -/
def turns {n : Nat} (thread : Nat) (request : BudgetRequest n) (accesses : Nat) :
    List (Nat × (BudgetRequest n × Bool)) :=
  List.replicate accesses (thread, request, false)

end Reb.Probe
