/-
# Probe.WasmBudgetLedger -- the changes of the slots add up

The life of a slot is its epoch and incarnation.  While no thread takes over a
slot of a newer epoch, a take-over begins a later life of its slot and no life
comes back; the recorded changes of the current life then add up to its count.
-/
import Reb.Probe.WasmBudgetThreads

namespace Reb.Probe

set_option autoImplicit false

/-! ## Lives of a slot -/

def lifeOf (epoch : UInt64) (incarnation : UInt32) : Nat :=
  epoch.toNat * 2 ^ 16 + incarnation.toNat

def life (stamp : UInt64) : Nat :=
  lifeOf (nativeWasmBudgetEpochOf stamp) (nativeWasmBudgetIncarnationOf stamp)

def NativeWasmBudgetKeySlot.words (slot : NativeWasmBudgetKeySlot) : UInt32 × UInt32 × UInt32 :=
  (slot.kind, slot.primary, slot.secondary)

def BudgetKey.words (key : BudgetKey) : UInt32 × UInt32 × UInt32 :=
  (key.kind.toUInt32, key.primary, key.secondary)

/-- What a caller asks with: a function key has no call site. -/
def BudgetKey.Asked (key : BudgetKey) : Prop := key.kind = .kFunction → key.secondary = 0

instance decidableAsked (key : BudgetKey) : Decidable key.Asked :=
  inferInstanceAs (Decidable (key.kind = .kFunction → key.secondary = 0))

/-- What `NativeWasmBudgetKeyMatches` compares of the words. -/
def WordsMatch (key : BudgetKey) (words : UInt32 × UInt32 × UInt32) : Prop :=
  words.1 = key.kind.toUInt32 ∧ words.2.1 = key.primary ∧
    (key.kind = .kFunction ∨ words.2.2 = key.secondary)

/-- The key a change counts a sample for. -/
def BudgetEffect.counted : BudgetEffect → Option BudgetKey
  | .publish key | .increment key => some key
  | _ => none

variable {ι : Type} {n : Nat}

namespace BudgetChange

/-- The change stays in the life it was made for. -/
def InLife (change : BudgetChange ι n) : Prop :=
  nativeWasmBudgetEpochOf change.before.stamp = change.epoch ∧
    nativeWasmBudgetIncarnationOf change.before.stamp = change.incarnation ∧
    nativeWasmBudgetEpochOf change.after.stamp = change.epoch ∧
    nativeWasmBudgetIncarnationOf change.after.stamp = change.incarnation

/-- A sample is counted on a published slot that holds its key; a release takes one
sample of its own incarnation away. -/
structure Exact (change : BudgetChange ι n) : Prop where
  counts : ∀ key, change.effect.counted = some key → change.InLife ∧
    publishBitSet change.after.stamp = false ∧ change.after.words = key.words ∧
    (nativeWasmBudgetCountOf change.after.stamp).toNat =
      (nativeWasmBudgetCountOf change.before.stamp).toNat + 1
  releases : change.effect = .release → change.InLife ∧
    publishBitSet change.after.stamp = false ∧
    (nativeWasmBudgetCountOf change.after.stamp).toNat + 1 =
      (nativeWasmBudgetCountOf change.before.stamp).toNat

end BudgetChange

namespace BudgetRun

variable (run : BudgetRun ι n)

def countedIn (slot : Fin n) (epoch : UInt64) (incarnation : UInt32) : Nat :=
  run.changes.countP fun change => change.slot = slot ∧ change.epoch = epoch ∧
    change.incarnation = incarnation ∧ change.effect.counted.isSome

def releasedIn (slot : Fin n) (epoch : UInt64) (incarnation : UInt32) : Nat :=
  run.changes.countP fun change => change.slot = slot ∧ change.epoch = epoch ∧
    change.incarnation = incarnation ∧ change.effect = .release

/-- The change that counted a retain. -/
def CountedBy (retained : BudgetRetained n) (change : BudgetChange ι n) : Prop :=
  change.slot = retained.slot ∧ change.epoch = retained.epoch ∧
    change.incarnation = retained.incarnation ∧ change.effect.counted = some retained.key

structure Consistent : Prop where
  exact : ∀ change ∈ run.changes, change.Exact
  past : ∀ change ∈ run.changes,
    lifeOf change.epoch change.incarnation ≤ life (run.slots change.slot).stamp
  balance : ∀ slot, (nativeWasmBudgetCountOf (run.slots slot).stamp).toNat +
      run.releasedIn slot (nativeWasmBudgetEpochOf (run.slots slot).stamp)
        (nativeWasmBudgetIncarnationOf (run.slots slot).stamp) =
    run.countedIn slot (nativeWasmBudgetEpochOf (run.slots slot).stamp)
      (nativeWasmBudgetIncarnationOf (run.slots slot).stamp)
  floor : ∀ slot epoch incarnation,
    run.releasedIn slot epoch incarnation ≤ run.countedIn slot epoch incarnation
  function : ∀ slot, publishBitSet (run.slots slot).stamp = false →
    (run.slots slot).kind = 0 → (run.slots slot).secondary = 0
  retained : ∀ r ∈ run.retained, ∃ change, run.changes[r.change]? = some change ∧ CountedBy r change
  own : (run.retained.map BudgetRetained.change).Nodup

/-! ## One exchange -/

variable {run} {thread : ι} {slot other : Fin n} {epoch : UInt64} {incarnation : UInt32}
  {effect : BudgetEffect} {stamp : UInt64}

theorem exchange_slot_same :
    (run.exchange thread slot epoch incarnation effect stamp).slots slot =
      { run.slots slot with stamp } := by
  simp [exchange, setSlot]

theorem exchange_slot_other (apart : other ≠ slot) :
    (run.exchange thread slot epoch incarnation effect stamp).slots other = run.slots other := by
  simp [exchange, setSlot, apart]

theorem exchange_changes : (run.exchange thread slot epoch incarnation effect stamp).changes =
    run.changes ++ [run.change thread slot epoch incarnation effect stamp] := rfl

theorem exchange_keeps {index : Nat} {change : BudgetChange ι n}
    (found : run.changes[index]? = some change) :
    (run.exchange thread slot epoch incarnation effect stamp).changes[index]? = some change := by
  obtain ⟨inRange, _⟩ := List.getElem?_eq_some_iff.1 found
  rw [exchange_changes, List.getElem?_append_left inRange, found]

theorem countedIn_exchange (s : Fin n) (e : UInt64) (i : UInt32) :
    (run.exchange thread slot epoch incarnation effect stamp).countedIn s e i =
      run.countedIn s e i +
        if slot = s ∧ epoch = e ∧ incarnation = i ∧ effect.counted.isSome then 1 else 0 := by
  rw [countedIn, exchange_changes, List.countP_append, List.countP_singleton]
  simp only [decide_eq_true_eq]
  rfl

theorem releasedIn_exchange (s : Fin n) (e : UInt64) (i : UInt32) :
    (run.exchange thread slot epoch incarnation effect stamp).releasedIn s e i =
      run.releasedIn s e i +
        if slot = s ∧ epoch = e ∧ incarnation = i ∧ effect = .release then 1 else 0 := by
  rw [releasedIn, exchange_changes, List.countP_append, List.countP_singleton]
  simp only [decide_eq_true_eq]
  rfl

namespace Consistent

/-- Nothing is recorded of a life that has not begun. -/
theorem unused (consistent : run.Consistent)
    (later : life (run.slots slot).stamp < lifeOf epoch incarnation) :
    run.countedIn slot epoch incarnation = 0 := by
  rw [countedIn, List.countP_eq_zero]
  intro change member
  rw [decide_eq_true_eq]
  rintro ⟨rfl, rfl, rfl, -⟩
  exact absurd (consistent.past change member) (not_le.2 later)

/-- An exchange keeps the ledger, when the new stamp is of the change's life, that
life is not an earlier one, and its count is what the ledger then says. -/
theorem exchange (consistent : run.Consistent)
    (exact : (run.change thread slot epoch incarnation effect stamp).Exact)
    (epochs : nativeWasmBudgetEpochOf stamp = epoch)
    (incarnations : nativeWasmBudgetIncarnationOf stamp = incarnation)
    (later : life (run.slots slot).stamp ≤ lifeOf epoch incarnation)
    (balanced : (nativeWasmBudgetCountOf stamp).toNat +
        (run.releasedIn slot epoch incarnation + if effect = .release then 1 else 0) =
      run.countedIn slot epoch incarnation + if effect.counted.isSome then 1 else 0)
    (function : publishBitSet stamp = false → (run.slots slot).kind = 0 →
      (run.slots slot).secondary = 0) :
    (run.exchange thread slot epoch incarnation effect stamp).Consistent where
  exact := by
    intro change member
    rcases List.mem_append.1 member with old | new
    · exact consistent.exact change old
    · rw [List.mem_singleton.1 new]
      exact exact
  past := by
    have now : lifeOf epoch incarnation = life stamp := by rw [life, epochs, incarnations]
    intro change member
    rcases List.mem_append.1 member with old | new
    · have before := consistent.past change old
      by_cases same : change.slot = slot
      · rw [same] at before ⊢
        rw [exchange_slot_same]
        exact before.trans (later.trans now.le)
      · rw [exchange_slot_other same]
        exact before
    · rw [List.mem_singleton.1 new]
      show lifeOf epoch incarnation ≤ life (((run.exchange thread slot epoch incarnation effect
        stamp).slots slot).stamp)
      rw [exchange_slot_same]
      exact now.le
  balance := by
    intro s
    by_cases same : s = slot
    · subst same
      rw [exchange_slot_same, countedIn_exchange, releasedIn_exchange, epochs, incarnations]
      simpa only [true_and] using balanced
    · have apart : slot ≠ s := fun equal => same equal.symm
      rw [exchange_slot_other same, countedIn_exchange, releasedIn_exchange,
        if_neg (fun both => apart both.1), if_neg (fun both => apart both.1)]
      exact consistent.balance s
  floor := by
    intro s e i
    rw [countedIn_exchange, releasedIn_exchange]
    by_cases same : slot = s ∧ epoch = e ∧ incarnation = i
    · obtain ⟨rfl, rfl, rfl⟩ := same
      simp only [true_and]
      omega
    · rw [if_neg (fun both => same ⟨both.1, both.2.1, both.2.2.1⟩),
        if_neg (fun both => same ⟨both.1, both.2.1, both.2.2.1⟩)]
      exact consistent.floor s e i
  function := by
    intro s
    by_cases same : s = slot
    · subst same
      rw [exchange_slot_same]
      exact function
    · rw [exchange_slot_other same]
      exact consistent.function s
  retained := by
    intro r member
    obtain ⟨change, found, counted⟩ := consistent.retained r member
    exact ⟨change, exchange_keeps found, counted⟩
  own := consistent.own

theorem setOwner (consistent : run.Consistent) (owner : Option ι) :
    (run.setOwner slot owner).Consistent :=
  { consistent with }

/-- A key word is stored while the publish bit hides the slot. -/
theorem setSlot (consistent : run.Consistent) {after : NativeWasmBudgetKeySlot}
    (same : after.stamp = (run.slots slot).stamp) (hidden : publishBitSet after.stamp = true) :
    (run.setSlot slot after).Consistent := by
  have stamps : ∀ s, ((run.setSlot slot after).slots s).stamp = (run.slots s).stamp := by
    intro s
    by_cases equal : s = slot
    · subst equal
      simp [BudgetRun.setSlot, same]
    · simp [BudgetRun.setSlot, equal]
  exact
    { consistent with
      past := fun change member => (consistent.past change member).trans_eq
        (congrArg life (stamps change.slot).symm)
      balance := by
        intro s
        rw [stamps]
        exact consistent.balance s
      function := by
        intro s shown
        by_cases equal : s = slot
        · subst equal
          rw [stamps, ← same, hidden] at shown
          exact Bool.noConfusion shown
        · rw [stamps] at shown
          simpa [BudgetRun.setSlot, equal] using consistent.function s shown }

theorem retain (consistent : run.Consistent) {key : BudgetKey} {index : Nat}
    {change : BudgetChange ι n} (found : run.changes[index]? = some change)
    (counted : CountedBy ⟨slot, epoch, incarnation, key, index⟩ change)
    (fresh : index ∉ run.retained.map BudgetRetained.change) :
    (run.retain slot epoch incarnation key index).Consistent :=
  { consistent with
    retained := by
      intro r member
      rcases List.mem_append.1 member with old | new
      · exact consistent.retained r old
      · rw [List.mem_singleton.1 new]
        exact ⟨change, found, counted⟩
    own := by
      rw [BudgetRun.retain, List.map_append, List.nodup_append]
      refine ⟨consistent.own, List.nodup_singleton _, ?_⟩
      intro a old b new same
      rw [List.map_singleton, List.mem_singleton] at new
      rw [same, new] at old
      exact fresh old }

end Consistent

end BudgetRun

end Reb.Probe
