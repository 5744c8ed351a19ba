/-
# Probe.WasmBudgetCap -- when the sample cap of a key holds

A retain stops at the first slot of its probe sequence that holds the key or can
be reused.  When a slot before the key's own has become reusable, it publishes
the key a second time there and the first slot's samples are no longer counted:
the cap fails (`cap_exceeded_after_release`).

It holds in every run in which no retain meets a reusable slot before a live slot
of its key (`cap_holds_unless_bypassed`).  The invariant is that no slot ahead of
a claim's in its key's probe sequence holds the key, so all claims of one key are
counted in one word.
-/
import Reb.Probe.WasmBudget

namespace Reb.Probe

set_option autoImplicit false

variable {n : Nat}

/-! ## Slots between calls -/

/-- Between calls a slot is unused or of the run's epoch, and not being published. -/
def Settled (epoch : UInt64) (slots : BudgetSlots n) : Prop :=
  ∀ index, publishBitSet (slots index).stamp = false ∧
    (nativeWasmBudgetEpochOf (slots index).stamp = epoch ∨ (slots index).stamp = 0)

/-- Another key may take the slot. -/
def Reusable (epoch : UInt64) (slot : NativeWasmBudgetKeySlot) : Prop :=
  slotLive slot.stamp epoch = false ∧
    (previousIncarnation slot.stamp epoch).toUInt64 ≠ kNativeWasmBudgetIncarnationMask

instance (epoch : UInt64) (slot : NativeWasmBudgetKeySlot) : Decidable (Reusable epoch slot) :=
  inferInstanceAs (Decidable (_ ∧ _))

/-- The slot holds the key with samples outstanding. -/
def HoldsLive (epoch : UInt64) (key : BudgetKey) (slot : NativeWasmBudgetKeySlot) : Prop :=
  nativeWasmBudgetKeyMatches slot epoch key = true ∧ nativeWasmBudgetCountOf slot.stamp ≠ 0

instance (epoch : UInt64) (key : BudgetKey) (slot : NativeWasmBudgetKeySlot) :
    Decidable (HoldsLive epoch key slot) := inferInstanceAs (Decidable (_ ∧ _))

/-- A retain of the key would reuse a slot although a later slot of its probe
sequence still holds the key with samples outstanding. -/
def Bypassed (epoch : UInt64) (key : BudgetKey) (slots : BudgetSlots n) : Prop :=
  ∃ nonempty : 0 < n, ∃ p < n, ∃ q < n, p < q ∧
    (∀ p' ≤ p, nativeWasmBudgetKeyMatches (slots (probeAt nonempty key p')) epoch key = false) ∧
    Reusable epoch (slots (probeAt nonempty key p)) ∧
    HoldsLive epoch key (slots (probeAt nonempty key q))

instance (epoch : UInt64) (key : BudgetKey) (slots : BudgetSlots n) :
    Decidable (Bypassed epoch key slots) := by
  unfold Bypassed
  infer_instance

theorem probeAt_injective (nonempty : 0 < n) (key : BudgetKey) {p q : Nat} (pLt : p < n)
    (qLt : q < n) (same : probeAt nonempty key p = probeAt nonempty key q) : p = q := by
  have modular : probeStart n key + p ≡ probeStart n key + q [MOD n] := congrArg Fin.val same
  have := Nat.ModEq.add_left_cancel' _ modular
  rwa [Nat.ModEq, Nat.mod_eq_of_lt pLt, Nat.mod_eq_of_lt qLt] at this

/-- The probe sequence visits every slot. -/
theorem exists_probeAt (nonempty : 0 < n) (key : BudgetKey) (index : Fin n) :
    ∃ q < n, probeAt nonempty key q = index := by
  have injective : Function.Injective fun q : Fin n => probeAt nonempty key q.val :=
    fun p q same => Fin.ext (probeAt_injective nonempty key p.isLt q.isLt same)
  obtain ⟨q, eq⟩ := Finite.surjective_of_injective injective index
  exact ⟨q.val, q.isLt, eq⟩

/-! ## What a retain does -/

/-- The three ways a retain ends between settled states. -/
inductive Retained (slots : BudgetSlots n) (epoch : UInt64) (key : BudgetKey) (limit : UInt32) :
    BudgetSlots n → NativeWasmBudgetRetain n → Prop
  | capped : Retained slots epoch key limit slots .kCapped
  | claimed (nonempty : 0 < n) (probe : Nat) (inRange : probe < n)
      (ahead : ∀ p < probe,
        nativeWasmBudgetKeyMatches (slots (probeAt nonempty key p)) epoch key = false)
      (found : nativeWasmBudgetKeyMatches (slots (probeAt nonempty key probe)) epoch key = true)
      (below : (nativeWasmBudgetCountOf (slots (probeAt nonempty key probe)).stamp).toNat <
        limit.toNat)
      (countable : limit.toNat ≤ 0x7fff) :
      Retained slots epoch key limit
        (Function.update slots (probeAt nonempty key probe)
          { slots (probeAt nonempty key probe) with
            stamp := (slots (probeAt nonempty key probe)).stamp + 1 })
        (.kRetained (probeAt nonempty key probe)
          (nativeWasmBudgetIncarnationOf (slots (probeAt nonempty key probe)).stamp))
  | published (nonempty : 0 < n) (probe : Nat) (inRange : probe < n)
      (ahead : ∀ p ≤ probe,
        nativeWasmBudgetKeyMatches (slots (probeAt nonempty key p)) epoch key = false)
      (reusable : Reusable epoch (slots (probeAt nonempty key probe)))
      (positive : 0 < limit.toNat) (epochLt : epoch.toNat < 2 ^ 32) :
      Retained slots epoch key limit
        (Function.update slots (probeAt nonempty key probe) (publishedSlot epoch
          (previousIncarnation (slots (probeAt nonempty key probe)).stamp epoch + 1) key))
        (.kRetained (probeAt nonempty key probe)
          (previousIncarnation (slots (probeAt nonempty key probe)).stamp epoch + 1))

/-- Nothing earlier is being published or holds the key, so the publication
stands. -/
theorem check_earlier_keeps {nonempty : 0 < n} {index : Fin n} {epoch : UInt64}
    {incarnation : UInt32} {key : BudgetKey} {limit : UInt32} {slots : BudgetSlots n}
    {positions : List Nat}
    (quiet : ∀ p ∈ positions, publishBitSet (slots (probeAt nonempty key p)).stamp = false ∧
      nativeWasmBudgetKeyMatches (slots (probeAt nonempty key p)) epoch key = false) :
    checkEarlier nonempty index epoch incarnation key limit positions slots =
      (slots, .done (.kRetained index incarnation)) := by
  induction positions with
  | nil => rfl
  | cons p rest ih =>
      obtain ⟨notPublishing, noMatch⟩ := quiet p (by simp)
      simp only [checkEarlier, notPublishing, noMatch, Bool.false_and, Bool.false_eq_true, if_false,
        Bool.not_false, if_true]
      exact ih fun q member => quiet q (by simp [member])

/-- The probe loop from one position on, given that no earlier slot matches. -/
theorem probe_slots_cases {nonempty : 0 < n} {epoch : UInt64} {key : BudgetKey} {limit : UInt32}
    {slots : BudgetSlots n} (settled : Settled epoch slots)
    (valid : retainArgumentsValid epoch limit = true) (probe remaining : Nat)
    (total : probe + remaining = n)
    (ahead : ∀ p < probe,
      nativeWasmBudgetKeyMatches (slots (probeAt nonempty key p)) epoch key = false) :
    probeSlots nonempty epoch key limit (List.range' probe remaining) slots = (slots, .exhausted) ∨
      ∃ after result,
        probeSlots nonempty epoch key limit (List.range' probe remaining) slots =
          (after, .done result) ∧ Retained slots epoch key limit after result := by
  obtain ⟨positive, countable, epochLt⟩ := retain_arguments valid
  induction remaining generalizing probe with
  | zero => exact .inl rfl
  | succ remaining ih =>
      have inRange : probe < n := by omega
      rw [List.range'_succ]
      simp only [probeSlots]
      cases matched : nativeWasmBudgetKeyMatches (slots (probeAt nonempty key probe)) epoch key with
      | true =>
          have visible : nativeWasmBudgetStampVisible (slots (probeAt nonempty key probe)).stamp
              epoch = true := by
            simp only [nativeWasmBudgetKeyMatches, Bool.and_eq_true] at matched
            exact matched.1
          right
          simp only [if_true, claimSlot, visible, matched, Bool.and_self]
          split
          · exact ⟨_, _, rfl, .capped⟩
          · rename_i below
            refine ⟨_, _, rfl, .claimed nonempty probe inRange ahead matched ?_ countable⟩
            rw [ge_iff_le, UInt32.le_iff_toNat_le] at below
            exact not_le.1 below
      | false =>
          have aheadNext : ∀ p < probe + 1,
              nativeWasmBudgetKeyMatches (slots (probeAt nonempty key p)) epoch key = false := by
            intro p pLt
            rcases Nat.lt_succ_iff_lt_or_eq.1 pLt with lt | rfl
            · exact ahead p lt
            · exact matched
          simp only [Bool.false_eq_true, if_false, (settled _).1]
          split
          · exact ih (probe + 1) (by omega) aheadNext
          rename_i notLive
          split
          · exact ih (probe + 1) (by omega) aheadNext
          rename_i notExhausted
          right
          refine ⟨_, _, check_earlier_keeps fun p member => ?_,
            .published nonempty probe inRange (fun p le => aheadNext p (Nat.lt_succ_of_le le))
              ⟨by simpa using notLive, by simpa using notExhausted⟩ positive epochLt⟩
          have pLt : p < probe := List.mem_range.1 member
          have other : probeAt nonempty key p ≠ probeAt nonempty key probe := fun same =>
            absurd (probeAt_injective nonempty key (pLt.trans inRange) inRange same) pLt.ne
          rw [Function.update_of_ne other]
          exact ⟨(settled _).1, ahead p pLt⟩

/-- A retain between settled states is one of the three. -/
theorem retain_cases {epoch : UInt64} {key : BudgetKey} {limit : UInt32} {slots : BudgetSlots n}
    (settled : Settled epoch slots) :
    Retained slots epoch key limit (retainWasmBudgetKey slots epoch key limit).1
      (retainWasmBudgetKey slots epoch key limit).2 := by
  unfold retainWasmBudgetKey
  split
  · rename_i nonempty
    split
    · rename_i valid
      rw [attemptRetain, List.range_eq_range']
      rcases probe_slots_cases settled valid 0 n (by omega) (fun p lt => absurd lt (by omega)) with
        eq | ⟨after, result, eq, retained⟩
      · rw [eq]; exact .capped
      · rw [eq]; exact retained
    · exact .capped
  · exact .capped

/-! ## The invariant -/

/-- A word of the same epoch and publish bit leaves every match as it was. -/
theorem keyMatches_update_stamp {slots : BudgetSlots n} {index : Fin n} {stamp : UInt64}
    (sameEpoch : nativeWasmBudgetEpochOf stamp = nativeWasmBudgetEpochOf (slots index).stamp)
    (sameBit : publishBitSet stamp = publishBitSet (slots index).stamp) (epoch : UInt64) (i : Fin n)
    (key : BudgetKey) :
    nativeWasmBudgetKeyMatches (Function.update slots index { slots index with stamp } i) epoch
      key = nativeWasmBudgetKeyMatches (slots i) epoch key := by
  by_cases same : i = index
  · rw [same, Function.update_self]
    simp only [nativeWasmBudgetKeyMatches, nativeWasmBudgetStampVisible, keyFieldsMatch, sameEpoch,
      sameBit]
  · rw [Function.update_of_ne same]

theorem incarnation_update_stamp {slots : BudgetSlots n} {index : Fin n} {stamp : UInt64}
    (sameIncarnation : nativeWasmBudgetIncarnationOf stamp =
      nativeWasmBudgetIncarnationOf (slots index).stamp) (i : Fin n) :
    nativeWasmBudgetIncarnationOf
      (Function.update slots index { slots index with stamp } i).stamp =
      nativeWasmBudgetIncarnationOf (slots i).stamp := by
  by_cases same : i = index
  · rw [same, Function.update_self]; exact sameIncarnation
  · rw [Function.update_of_ne same]

theorem settled_update_stamp {slots : BudgetSlots n} {index : Fin n} {epoch stamp : UInt64}
    (settled : Settled epoch slots)
    (visible : nativeWasmBudgetStampVisible stamp epoch = true) :
    Settled epoch (Function.update slots index { slots index with stamp }) := by
  intro i
  by_cases same : i = index
  · rw [same, Function.update_self]
    obtain ⟨inEpoch, noBit⟩ := stampVisible_iff.1 visible
    exact ⟨noBit, .inl inEpoch⟩
  · rw [Function.update_of_ne same]
    exact settled i

/-- Two keys that one slot's words match are held by the same slots. -/
theorem keyFieldsMatch_transfer {slot : NativeWasmBudgetKeySlot} {epoch : UInt64}
    {incarnation : UInt32} {key other : BudgetKey} (held : keyFieldsMatch slot other = true)
    (shared : keyFieldsMatch (publishedSlot epoch incarnation key) other = true) :
    keyFieldsMatch slot key = true := by
  simp only [keyFieldsMatch, publishedSlot, Bool.and_eq_true, beq_iff_eq, Bool.or_eq_true] at *
  obtain ⟨⟨kind, primary⟩, secondary⟩ := held
  obtain ⟨⟨sameKind, samePrimary⟩, sameSecondary⟩ := shared
  have kinds : key.kind = other.kind := by
    cases firstKind : key.kind <;> cases secondKind : other.kind <;>
      simp [firstKind, secondKind, NativeWasmBudgetKeyKind.toUInt32] at sameKind ⊢
  refine ⟨⟨kind.trans sameKind.symm, primary.trans samePrimary.symm⟩, ?_⟩
  rw [kinds]
  rcases secondary with isFunction | eq
  · exact .inl isFunction
  · rcases sameSecondary with isFunction | sameEq
    · exact .inl isFunction
    · exact .inr (eq.trans sameEq.symm)

namespace BudgetState

/-- What holds between the calls of a run without bypass. -/
structure Counted (epoch : UInt64) (limit : BudgetKey → UInt32) (state : BudgetState n) :
    Prop where
  settled : Settled epoch state.slots
  counts : ∀ index, (nativeWasmBudgetCountOf (state.slots index).stamp).toNat =
    state.outstanding.countP (·.slot = index)
  claims : ∀ c ∈ state.outstanding,
    nativeWasmBudgetKeyMatches (state.slots c.slot) epoch c.key = true ∧
      nativeWasmBudgetIncarnationOf (state.slots c.slot).stamp = c.incarnation
  ahead : ∀ c ∈ state.outstanding, ∀ (nonempty : 0 < n) (p q : Nat), p < q → q < n →
    probeAt nonempty c.key q = c.slot →
    nativeWasmBudgetKeyMatches (state.slots (probeAt nonempty c.key p)) epoch c.key = false
  capped : ∀ key, state.outstandingOf key ≤ (limit key).toNat

variable {epoch : UInt64} {limit : BudgetKey → UInt32} {state : BudgetState n}

theorem counted_initial : Counted epoch limit ({} : BudgetState n) where
  settled _ := ⟨by simp [publishBitSet], .inr rfl⟩
  counts _ := by simp [toNat_countOf]
  claims _ member := absurd member List.not_mem_nil
  ahead _ member := absurd member List.not_mem_nil
  capped _ := Nat.zero_le _

/-- A slot with an outstanding claim has a nonzero count. -/
theorem Counted.count_ne_zero (counted : Counted epoch limit state) {c : Claim n}
    (member : c ∈ state.outstanding) :
    nativeWasmBudgetCountOf (state.slots c.slot).stamp ≠ 0 := by
  intro zero
  have count := counted.counts c.slot
  rw [zero, UInt32.toNat_zero] at count
  have := List.countP_eq_zero.1 count.symm c member
  simp at this

/-- The retain counted a sample on the first slot that holds its key: every
outstanding claim of the key is counted there too. -/
theorem Counted.claimed (counted : Counted epoch limit state) {key : BudgetKey}
    {nonempty : 0 < n} {probe : Nat} (inRange : probe < n)
    (ahead : ∀ p < probe,
      nativeWasmBudgetKeyMatches (state.slots (probeAt nonempty key p)) epoch key = false)
    (found :
      nativeWasmBudgetKeyMatches (state.slots (probeAt nonempty key probe)) epoch key = true)
    (below : (nativeWasmBudgetCountOf (state.slots (probeAt nonempty key probe)).stamp).toNat <
      (limit key).toNat)
    (countable : (limit key).toNat ≤ 0x7fff) :
    Counted epoch limit
      { slots := Function.update state.slots (probeAt nonempty key probe)
          { state.slots (probeAt nonempty key probe) with
            stamp := (state.slots (probeAt nonempty key probe)).stamp + 1 }
        outstanding := ⟨probeAt nonempty key probe, nativeWasmBudgetIncarnationOf
          (state.slots (probeAt nonempty key probe)).stamp, key⟩ :: state.outstanding } := by
  have together : ∀ c ∈ state.outstanding, c.key = key → c.slot = probeAt nonempty key probe := by
    rintro c member rfl
    obtain ⟨q, qLt, eq⟩ := exists_probeAt nonempty c.key c.slot
    rcases Nat.lt_trichotomy q probe with lt | rfl | gt
    · have matched := (counted.claims c member).1
      rw [← eq, ahead q lt] at matched
      cases matched
    · exact eq.symm
    · have notMatched := counted.ahead c member nonempty probe q gt qLt eq
      rw [found] at notMatched
      cases notMatched
  have counts := counted.counts (probeAt nonempty key probe)
  obtain ⟨sameEpoch, sameIncarnation, sameBit, more⟩ :=
    @views_add_one (state.slots (probeAt nonempty key probe)).stamp (by omega)
  obtain ⟨inEpoch, noBit⟩ := stampVisible_iff.1 (Bool.and_eq_true_iff.1 found).1
  have sameMatches := keyMatches_update_stamp sameEpoch sameBit epoch
  refine ⟨settled_update_stamp counted.settled ?_, fun i => ?_, fun c member => ?_,
    fun c member ne p q lt qLt eq => ?_, fun k => ?_⟩
  · exact stampVisible_iff.2 ⟨sameEpoch.trans inEpoch, sameBit.trans noBit⟩
  · dsimp only
    rw [List.countP_cons]
    by_cases same : i = probeAt nonempty key probe
    · rw [same, Function.update_self, more, counts]
      simp
    · rw [Function.update_of_ne same, counted.counts i]
      simp [Ne.symm same]
  · dsimp only
    rw [sameMatches, incarnation_update_stamp sameIncarnation]
    rcases List.mem_cons.1 member with rfl | old
    · exact ⟨found, rfl⟩
    · exact counted.claims c old
  · dsimp only
    rw [sameMatches]
    rcases List.mem_cons.1 member with rfl | old
    · have same : q = probe := probeAt_injective ne key qLt inRange eq
      exact ahead p (same ▸ lt)
    · exact counted.ahead c old ne p q lt qLt eq
  · rw [outstandingOf, List.countP_cons]
    by_cases same : key = k
    · subst same
      have within : state.outstanding.countP (·.key = key) ≤
          state.outstanding.countP (·.slot = probeAt nonempty key probe) :=
        List.countP_mono_left fun c member isKey => by
          simpa using together c member (by simpa using isKey)
      simp only [decide_true, if_true]
      omega
    · simp only [same, decide_false, Bool.false_eq_true, if_false, Nat.add_zero]
      exact counted.capped k

/-- The retain published its key on a reusable slot, and no live slot of the key
was bypassed: the key had no outstanding claim. -/
theorem Counted.published (counted : Counted epoch limit state) {key : BudgetKey}
    {nonempty : 0 < n} {probe : Nat} (inRange : probe < n)
    (ahead : ∀ p ≤ probe,
      nativeWasmBudgetKeyMatches (state.slots (probeAt nonempty key p)) epoch key = false)
    (reusable : Reusable epoch (state.slots (probeAt nonempty key probe)))
    (positive : 0 < (limit key).toNat) (epochLt : epoch.toNat < 2 ^ 32)
    (direct : ¬ Bypassed epoch key state.slots) :
    Counted epoch limit
      { slots := Function.update state.slots (probeAt nonempty key probe) (publishedSlot epoch
          (previousIncarnation (state.slots (probeAt nonempty key probe)).stamp epoch + 1) key)
        outstanding := ⟨probeAt nonempty key probe,
          previousIncarnation (state.slots (probeAt nonempty key probe)).stamp epoch + 1, key⟩ ::
            state.outstanding } := by
  -- No slot holds the key live: not up to `probe`, and not after it.
  have noneLive : ∀ i, ¬ HoldsLive epoch key (state.slots i) := by
    intro i held
    obtain ⟨q, qLt, rfl⟩ := exists_probeAt nonempty key i
    rcases Nat.lt_or_ge probe q with after | upTo
    · exact direct ⟨nonempty, probe, inRange, q, qLt, after, ahead, reusable, held⟩
    · rw [HoldsLive, ahead q upTo] at held
      exact Bool.false_ne_true held.1
  have unused : nativeWasmBudgetCountOf (state.slots (probeAt nonempty key probe)).stamp = 0 := by
    obtain ⟨-, inEpoch | zero⟩ := counted.settled (probeAt nonempty key probe)
    · have notLive := reusable.1
      simp only [slotLive, inEpoch, beq_self_eq_true, Bool.true_and, Bool.and_eq_false_iff,
        bne_eq_false_iff_eq] at notLive
      rcases notLive with count | zero
      · exact count
      · rw [zero]; rfl
    · rw [zero]; rfl
  have elsewhere : ∀ c ∈ state.outstanding, c.slot ≠ probeAt nonempty key probe := by
    intro c member same
    exact counted.count_ne_zero member (same ▸ unused)
  have fits : (previousIncarnation (state.slots (probeAt nonempty key probe)).stamp epoch + 1).toNat
      < 2 ^ 16 := by
    have small : (previousIncarnation (state.slots (probeAt nonempty key probe)).stamp
        epoch).toNat < 2 ^ 16 := by
      unfold previousIncarnation
      split
      · rw [toNat_incarnationOf]; omega
      · decide
    have notMask : (previousIncarnation (state.slots (probeAt nonempty key probe)).stamp
        epoch).toNat ≠ 0xffff := fun mask => reusable.2 (by
      rw [← UInt64.toNat_inj, UInt32.toNat_toUInt64, mask]; rfl)
    rw [UInt32.toNat_add, UInt32.toNat_one]
    omega
  obtain ⟨ofEpoch, ofIncarnation, ofBit, ofCount⟩ :=
    @views_stamp epoch _ 1 epochLt fits (by decide)
  generalize previousIncarnation (state.slots (probeAt nonempty key probe)).stamp epoch + 1 =
    incarnation at *
  refine ⟨fun i => ?_, fun i => ?_, fun c member => ?_, fun c member ne p q lt qLt eq => ?_,
    fun k => ?_⟩
  · by_cases same : i = probeAt nonempty key probe
    · dsimp only
      rw [same, Function.update_self]
      exact ⟨ofBit, .inl ofEpoch⟩
    · dsimp only
      rw [Function.update_of_ne same]
      exact counted.settled i
  · dsimp only
    rw [List.countP_cons]
    by_cases same : i = probeAt nonempty key probe
    · have none : state.outstanding.countP (·.slot = probeAt nonempty key probe) = 0 :=
        List.countP_eq_zero.2 fun c member => by simpa using elsewhere c member
      rw [same, Function.update_self, none, publishedSlot, ofCount]
      simp
    · rw [Function.update_of_ne same, counted.counts i]
      simp [Ne.symm same]
  · dsimp only
    rcases List.mem_cons.1 member with rfl | old
    · rw [Function.update_self]
      refine ⟨?_, ofIncarnation⟩
      simp [nativeWasmBudgetKeyMatches, stampVisible_iff.2 ⟨ofEpoch, ofBit⟩, publishedSlot,
        keyFieldsMatch]
    · rw [Function.update_of_ne (elsewhere c old)]
      exact counted.claims c old
  · dsimp only
    rcases List.mem_cons.1 member with rfl | old
    · have same : q = probe := probeAt_injective ne key qLt inRange eq
      dsimp only at lt ⊢
      have other : probeAt ne key p ≠ probeAt nonempty key probe := fun same' =>
        absurd (probeAt_injective ne key (lt.trans qLt) inRange same') (by omega)
      rw [Function.update_of_ne other]
      exact ahead p (by omega)
    · by_cases here : probeAt ne c.key p = probeAt nonempty key probe
      · -- Were the new key the claim's, the claim's slot would hold the new key live.
        rw [here, Function.update_self]
        by_contra matched
        have shared := (Bool.and_eq_true_iff.1 (Bool.not_eq_false _ ▸ matched)).2
        have held := counted.claims c old
        rw [nativeWasmBudgetKeyMatches, Bool.and_eq_true] at held
        refine noneLive c.slot ⟨?_, counted.count_ne_zero old⟩
        rw [nativeWasmBudgetKeyMatches, Bool.and_eq_true]
        exact ⟨held.1.1, keyFieldsMatch_transfer held.1.2 shared⟩
      · rw [Function.update_of_ne here]
        exact counted.ahead c old ne p q lt qLt eq
  · rw [outstandingOf, List.countP_cons]
    by_cases same : key = k
    · subst same
      have none : state.outstanding.countP (·.key = key) = 0 :=
        List.countP_eq_zero.2 fun c member isKey => by
          have eq : c.key = key := by simpa using isKey
          exact noneLive c.slot ⟨eq ▸ (counted.claims c member).1, counted.count_ne_zero member⟩
      simp only [none, decide_true, if_true]
      omega
    · simp only [same, decide_false, Bool.false_eq_true, if_false, Nat.add_zero]
      exact counted.capped k

/-- Releasing an outstanding claim takes its sample off its slot. -/
theorem Counted.released (counted : Counted epoch limit state) {c : Claim n}
    (member : c ∈ state.outstanding) :
    Counted epoch limit
      { slots := Function.update state.slots c.slot
          (releaseWasmBudgetKey (state.slots c.slot) epoch c.incarnation)
        outstanding := state.outstanding.erase c } := by
  obtain ⟨matched, incarnation⟩ := counted.claims c member
  have nonzero := counted.count_ne_zero member
  obtain ⟨sameEpoch, sameIncarnation, sameBit, less⟩ := views_sub_one nonzero
  obtain ⟨inEpoch, noBit⟩ := stampVisible_iff.1 (Bool.and_eq_true_iff.1 matched).1
  have taken : releaseWasmBudgetKey (state.slots c.slot) epoch c.incarnation =
      { state.slots c.slot with stamp := (state.slots c.slot).stamp - 1 } := by
    rw [releaseWasmBudgetKey, if_pos]
    simp [stampVisible_iff.2 ⟨inEpoch, noBit⟩, incarnation, nonzero]
  rw [taken]
  have sameMatches := keyMatches_update_stamp sameEpoch sameBit epoch
  have perm := List.perm_cons_erase member
  refine ⟨settled_update_stamp counted.settled ?_, fun i => ?_, fun d dMember => ?_,
    fun d dMember => ?_, fun k => ?_⟩
  · exact stampVisible_iff.2 ⟨sameEpoch.trans inEpoch, sameBit.trans noBit⟩
  · have counts := counted.counts i
    rw [perm.countP_eq, List.countP_cons] at counts
    dsimp only
    by_cases same : i = c.slot
    · subst same
      rw [Function.update_self]
      simp only [decide_true, if_true] at counts ⊢
      omega
    · rw [Function.update_of_ne same]
      simpa [Ne.symm same] using counts
  · dsimp only
    rw [sameMatches, incarnation_update_stamp sameIncarnation]
    exact counted.claims d (List.mem_of_mem_erase dMember)
  · intro ne p q lt qLt eq
    dsimp only
    rw [sameMatches]
    exact counted.ahead d (List.mem_of_mem_erase dMember) ne p q lt qLt eq
  · exact (List.erase_sublist.countP_le).trans (counted.capped k)

/-! ## Runs without bypass -/

/-- No retain of the run bypasses a live slot of its key. -/
def NeverBypassed (epoch : UInt64) (limit : BudgetKey → UInt32) :
    BudgetState n → List (BudgetCall n) → Prop
  | _, [] => True
  | state, first :: rest =>
      (∀ key, first = .retain key → ¬ Bypassed epoch key state.slots) ∧
        ∀ next, state.call epoch limit first = some next → NeverBypassed epoch limit next rest

theorem Counted.call (counted : Counted epoch limit state) {next : BudgetState n}
    {call : BudgetCall n} (step : state.call epoch limit call = some next)
    (direct : ∀ key, call = .retain key → ¬ Bypassed epoch key state.slots) :
    Counted epoch limit next := by
  cases call with
  | retain key =>
      have retained : Retained state.slots epoch key (limit key) _ _ := retain_cases counted.settled
      rw [BudgetState.call] at step
      revert step retained
      generalize retainWasmBudgetKey state.slots epoch key (limit key) = outcome
      obtain ⟨slots, result⟩ := outcome
      intro step retained
      cases retained with
      | capped => cases step; exact counted
      | claimed nonempty probe inRange ahead found below countable =>
          cases step
          exact counted.claimed inRange ahead found below countable
      | published nonempty probe inRange ahead reusable positive epochLt =>
          cases step
          exact counted.published inRange ahead reusable positive epochLt (direct key rfl)
  | release claim =>
      rw [BudgetState.call] at step
      split at step
      · rename_i member
        cases step
        exact counted.released member
      · cases step

theorem Counted.calls (counted : Counted epoch limit state) {run : List (BudgetCall n)}
    {last : BudgetState n} (ran : state.calls epoch limit run = some last)
    (direct : NeverBypassed epoch limit state run) : Counted epoch limit last := by
  induction run generalizing state with
  | nil => cases ran; exact counted
  | cons first rest ih =>
      obtain ⟨next, step, tail⟩ := Option.bind_eq_some_iff.1 ran
      exact ih (counted.call step direct.1) tail (direct.2 next step)

/-- **The cap of every key holds** after any run from unused slots in which no
retain bypasses a live slot of its key. -/
theorem cap_holds_unless_bypassed {run : List (BudgetCall n)} {last : BudgetState n}
    (ran : ({} : BudgetState n).calls epoch limit run = some last)
    (direct : NeverBypassed epoch limit {} run) (key : BudgetKey) :
    last.outstandingOf key ≤ (limit key).toNat :=
  (counted_initial.calls ran direct).capped key

/-- Two functions whose probe sequences start at the same slot of sixteen. -/
def firstFunction : BudgetKey := ⟨.kFunction, 0, 0⟩
def secondFunction : BudgetKey := ⟨.kFunction, 16, 0⟩

theorem cap_holds_unless_bypassed_once :
    ∃ last : BudgetState 16,
      ({} : BudgetState 16).calls 2 (fun _ => 1) [.retain firstFunction, .retain firstFunction] =
        some last ∧ last.outstandingOf firstFunction ≤ 1 := by
  have direct : NeverBypassed 2 (fun _ => 1) ({} : BudgetState 16)
      [.retain firstFunction, .retain firstFunction] := by
    refine ⟨?_, fun next step => ⟨?_, fun _ _ => trivial⟩⟩
    · rintro key ⟨⟩
      decide +kernel
    · rintro key ⟨⟩
      cases step
      decide +kernel
  obtain ⟨last, ran⟩ : ∃ last, ({} : BudgetState 16).calls 2 (fun _ => 1)
      [.retain firstFunction, .retain firstFunction] = some last := ⟨_, rfl⟩
  exact ⟨last, ran, cap_holds_unless_bypassed ran direct firstFunction⟩

/-- With a cap of one: the second function is counted behind the first; once the
first is released, retaining the second again publishes it a second time. -/
theorem cap_exceeded_after_release :
    ∃ last : BudgetState 16,
      ({} : BudgetState 16).calls 2 (fun _ => 1)
        [.retain firstFunction, .retain secondFunction, .release ⟨0, 1, firstFunction⟩,
          .retain secondFunction] = some last ∧
      ¬ last.outstandingOf secondFunction ≤ 1 := by
  obtain ⟨last, ran, two⟩ := Option.map_eq_some_iff.1 (show
    (({} : BudgetState 16).calls 2 (fun _ => 1)
      [.retain firstFunction, .retain secondFunction, .release ⟨0, 1, firstFunction⟩,
        .retain secondFunction]).map (·.outstandingOf secondFunction) = some 2 by decide +kernel)
  exact ⟨last, ran, by omega⟩

end BudgetState

end Reb.Probe
