/-
# Probe.ProbeQueueLinear -- the queue is linear under every interleaving

The window is the ring of positions from the first unreleased one on: every slot
carries exactly one of them.  In the window a slot's sequence says whether its
position is published, and only the producer that won a position and has not
published it yet writes that position's slot.
-/
import Reb.Probe.ProbeQueue

namespace Reb.Probe

set_option autoImplicit false

open Theory.Interleaving

/-! ## Slots of positions -/

theorem slotIndex_val (p : UInt64) : (slotIndex p).val = p.toNat % 8192 := by
  show (p &&& kIndexMask).toNat = p.toNat % 8192
  rw [UInt64.toNat_and]
  exact Nat.and_two_pow_sub_one_eq_mod _ 13

theorem slotIndex_eq_iff {p q : UInt64} :
    slotIndex p = slotIndex q ↔ p.toNat % 8192 = q.toNat % 8192 := by
  rw [← Fin.val_inj, slotIndex_val, slotIndex_val]

/-- The signed difference of the code is zero exactly for equal words. -/
theorem toInt64_sub_eq_zero {a b : UInt64} : (a - b).toInt64 = 0 ↔ a = b := by
  constructor
  · intro zero
    have : a - b = 0 := congrArg Int64.toUInt64 zero
    rwa [UInt64.sub_eq_iff_eq_add, UInt64.zero_add] at this
  · rintro rfl
    rw [UInt64.sub_self]
    rfl

theorem toNat_add_of_small {p n : UInt64} (small : p.toNat + n.toNat < 2 ^ 64) :
    (p + n).toNat = p.toNat + n.toNat := by
  rw [UInt64.toNat_add, Nat.mod_eq_of_lt small]

theorem succ_ne_self (p : UInt64) : p + 1 ≠ p := by
  simp

namespace ProbeQueueRun

variable {ι Event : Type} {run : ProbeQueueRun ι Event} {i j : ι} {p q : UInt64} {e : Event}

theorem slot_eq_of_index (same : slotIndex p = slotIndex q) : run.slot p = run.slot q := by
  rw [slot, slot, NativeProbeQueue.slot, NativeProbeQueue.slot, same]

theorem slot_write :
    (run.write p e).slot q =
      if slotIndex q = slotIndex p then { run.slot p with event := e } else run.slot q := by
  simp only [slot, write, NativeProbeQueue.setSlot, NativeProbeQueue.slot, Function.update_apply]

theorem slot_publish :
    (run.publish p).slot q =
      if slotIndex q = slotIndex p then { run.slot p with sequence := p + 1 } else run.slot q := by
  simp only [slot, publish, NativeProbeQueue.setSlot, NativeProbeQueue.slot, Function.update_apply]

theorem slot_release :
    (run.release p).slot q =
      if slotIndex q = slotIndex p then
        { run.slot p with sequence := p + kNativeProbeQueueCapacity }
      else run.slot q := by
  simp only [slot, release, NativeProbeQueue.setSlot, NativeProbeQueue.slot, Function.update_apply]

/-! ## The invariant of the shared region -/

def InWindow (run : ProbeQueueRun ι Event) (p : UInt64) : Prop :=
  run.released ≤ p.toNat ∧ p.toNat < run.released + 8192

/-- One slot carries one position of the window. -/
theorem InWindow.eq_of_slot (pIn : run.InWindow p) (qIn : run.InWindow q)
    (same : slotIndex p = slotIndex q) : p = q := by
  have := slotIndex_eq_iff.1 same
  obtain ⟨pLow, pHigh⟩ := pIn
  obtain ⟨qLow, qHigh⟩ := qIn
  exact UInt64.toNat_inj.1 (by omega)

structure Consistent (run : ProbeQueueRun ι Event) : Prop where
  enqueued : run.queue.enqueuePosition.toNat = run.won.length
  wonBelow : ∀ win ∈ run.won, win.position.toNat < run.won.length
  wonOnce : (run.won.map Win.position).Nodup
  publishedWon : ∀ p ∈ run.published, p.toNat < run.won.length
  releasedPublished : ∀ p : UInt64, p.toNat < run.released → p ∈ run.published
  releasedPopped : run.released ≤ run.popped.length
  room : run.won.length ≤ run.released + 8192
  sequences : ∀ p, run.InWindow p → (run.slot p).sequence = if p ∈ run.published then p + 1 else p
  contents : ∀ p ∈ run.published, run.popped.length ≤ p.toNat →
    ∃ i, ⟨i, p, (run.slot p).event⟩ ∈ run.won
  poppedInOrder : run.popped.map (fun x => x.1.toNat) = List.range run.popped.length
  poppedWon : ∀ x ∈ run.popped, ∃ i, ⟨i, x.1, x.2⟩ ∈ run.won

namespace Consistent

theorem new [Inhabited Event] : Consistent (ProbeQueueRun.new : ProbeQueueRun ι Event) where
  enqueued := rfl
  wonBelow := by simp [ProbeQueueRun.new]
  wonOnce := List.nodup_nil
  publishedWon := by simp [ProbeQueueRun.new]
  releasedPublished := by simp [ProbeQueueRun.new]
  releasedPopped := le_refl 0
  room := Nat.zero_le _
  sequences := by
    rintro p ⟨-, below⟩
    have small : p.toNat < 8192 := by simpa [ProbeQueueRun.new] using below
    have index : (slotIndex p).val = p.toNat := by
      rw [slotIndex_val, Nat.mod_eq_of_lt small]
    simp [ProbeQueueRun.new, slot, NativeProbeQueue.slot, NativeProbeQueue.new, index]
  contents := by simp [ProbeQueueRun.new]
  poppedInOrder := rfl
  poppedWon := by simp [ProbeQueueRun.new]

variable (consistent : run.Consistent)
include consistent

theorem held_inWindow (won : ⟨i, p, e⟩ ∈ run.won) (unpublished : p ∉ run.published) :
    run.InWindow p :=
  ⟨not_lt.1 (mt (consistent.releasedPublished p) unpublished),
    lt_of_lt_of_le (consistent.wonBelow _ won) consistent.room⟩

theorem unpopped_inWindow (published : p ∈ run.published) (unpopped : run.popped.length ≤ p.toNat) :
    run.InWindow p :=
  ⟨consistent.releasedPopped.trans unpopped,
    lt_of_lt_of_le (consistent.publishedWon p published) consistent.room⟩

/-- A full ring is seen: one ring ahead, the slot still carries the first unreleased position. -/
theorem turn_inRing (turn : (run.slot p).sequence = p) (loaded : p.toNat ≤ run.won.length) :
    p.toNat < run.released + 8192 := by
  by_contra full
  have := consistent.room
  have := p.toNat_lt
  have first : (UInt64.ofNat run.released).toNat = run.released :=
    UInt64.toNat_ofNat_of_lt' (show run.released < 2 ^ 64 by omega)
  have firstIn : run.InWindow (UInt64.ofNat run.released) := ⟨first.ge, by omega⟩
  have same : slotIndex p = slotIndex (UInt64.ofNat run.released) :=
    slotIndex_eq_iff.2 (by omega)
  have carried := consistent.sequences _ firstIn
  rw [← slot_eq_of_index same, turn] at carried
  split at carried
  · have ahead : p.toNat = run.released + 1 := by
      rw [carried, toNat_add_of_small (by rw [UInt64.toNat_one]; omega), first, UInt64.toNat_one]
    omega
  · rw [carried] at full
    omega

/-- A position has one winner. -/
theorem winner_unique {e' : Event} (won : ⟨i, p, e⟩ ∈ run.won) (won' : ⟨j, p, e'⟩ ∈ run.won) :
    i = j := by
  have same := List.inj_on_of_nodup_map consistent.wonOnce won won' rfl
  exact congrArg Win.producer same

theorem reserve (position : run.queue.enqueuePosition = p) (inRing : p.toNat < run.released + 8192)
    (few : run.won.length + 1 < 2 ^ 63) : (run.reserve i p e).Consistent := by
  have length : p.toNat = run.won.length := position ▸ consistent.enqueued
  exact
    { enqueued := by
        rw [ProbeQueueRun.reserve, toNat_add_of_small (by rw [UInt64.toNat_one]; omega),
          List.length_append, length, UInt64.toNat_one, List.length_singleton]
      wonBelow := by
        intro win member
        rw [ProbeQueueRun.reserve, List.length_append, List.length_singleton]
        rcases List.mem_append.1 member with old | new
        · exact (consistent.wonBelow win old).trans (Nat.lt_succ_self _)
        · rw [List.mem_singleton.1 new]
          exact length.trans_lt (Nat.lt_succ_self _)
      wonOnce := by
        rw [ProbeQueueRun.reserve, List.map_append, List.nodup_append]
        refine ⟨consistent.wonOnce, List.nodup_singleton _, ?_⟩
        intro a old b new
        obtain ⟨win, member, rfl⟩ := List.mem_map.1 old
        obtain rfl := List.mem_singleton.1 new
        rintro same
        have below := consistent.wonBelow win member
        rw [same] at below
        omega
      publishedWon := by
        intro q published
        rw [ProbeQueueRun.reserve, List.length_append, List.length_singleton]
        exact (consistent.publishedWon q published).trans (Nat.lt_succ_self _)
      releasedPublished := consistent.releasedPublished
      releasedPopped := consistent.releasedPopped
      room := by
        rw [ProbeQueueRun.reserve, List.length_append, List.length_singleton]
        show run.won.length + 1 ≤ run.released + 8192
        omega
      sequences := consistent.sequences
      contents := by
        intro q published unpopped
        obtain ⟨k, member⟩ := consistent.contents q published unpopped
        exact ⟨k, List.mem_append_left _ member⟩
      poppedInOrder := consistent.poppedInOrder
      poppedWon := by
        intro x member
        obtain ⟨k, won⟩ := consistent.poppedWon x member
        exact ⟨k, List.mem_append_left _ won⟩ }

/-- The slot a producer writes carries no published and unpopped position. -/
theorem write (won : ⟨i, p, e⟩ ∈ run.won) (unpublished : p ∉ run.published) :
    (run.write p e).Consistent :=
  { consistent with
    sequences := by
      intro q qIn
      rw [slot_write]
      split
      · next same =>
          rw [← slot_eq_of_index same]
          exact consistent.sequences q qIn
      · exact consistent.sequences q qIn
    contents := by
      intro q published unpopped
      have apart : slotIndex q ≠ slotIndex p := by
        intro same
        have := InWindow.eq_of_slot (consistent.unpopped_inWindow published unpopped)
          (consistent.held_inWindow won unpublished) same
        exact unpublished (this ▸ published)
      rw [slot_write, if_neg apart]
      exact consistent.contents q published unpopped }

theorem publish (won : ⟨i, p, e⟩ ∈ run.won) (unpublished : p ∉ run.published)
    (written : (run.slot p).event = e) : (run.publish p).Consistent := by
  have pIn := consistent.held_inWindow won unpublished
  exact
    { consistent with
      publishedWon := by
        intro q published
        rcases List.mem_append.1 published with old | new
        · exact consistent.publishedWon q old
        · rw [List.mem_singleton.1 new]
          exact consistent.wonBelow _ won
      releasedPublished := fun q below =>
        List.mem_append_left _ (consistent.releasedPublished q below)
      sequences := by
        intro q qIn
        rw [slot_publish]
        split
        · next same =>
            obtain rfl := InWindow.eq_of_slot qIn pIn same
            have now : q ∈ (run.publish q).published :=
              List.mem_append_right _ (List.mem_singleton_self q)
            rw [if_pos now]
        · next apart =>
            have other : q ≠ p := fun same => apart (congrArg slotIndex same)
            have stays : q ∈ (run.publish p).published ↔ q ∈ run.published := by
              simp [ProbeQueueRun.publish, other]
            simp only [stays]
            exact consistent.sequences q qIn
      contents := by
        intro q published unpopped
        rw [slot_publish]
        rcases List.mem_append.1 published with old | new
        · split
          · next same =>
              have := InWindow.eq_of_slot (consistent.unpopped_inWindow old unpopped) pIn same
              exact absurd (this ▸ old) unpublished
          · exact consistent.contents q old unpopped
        · rw [List.mem_singleton.1 new, if_pos rfl]
          exact ⟨i, written ▸ won⟩ }

theorem setDropped (dropped : UInt64) : (run.setDropped dropped).Consistent :=
  { consistent with }

/-- The consumer copies the first unpopped position. -/
theorem read (published : p ∈ run.published) (first : run.popped.length = p.toNat) :
    (run.read p).Consistent :=
  { consistent with
    releasedPopped := by
      rw [ProbeQueueRun.read, List.length_append]
      exact consistent.releasedPopped.trans (Nat.le_add_right _ _)
    contents := by
      intro q qPublished unpopped
      rw [ProbeQueueRun.read, List.length_append] at unpopped
      exact consistent.contents q qPublished ((Nat.le_add_right _ _).trans unpopped)
    poppedInOrder := by
      rw [ProbeQueueRun.read, List.map_append, List.length_append, List.length_singleton,
        List.range_succ, consistent.poppedInOrder, first]
      rfl
    poppedWon := by
      intro x member
      rcases List.mem_append.1 member with old | new
      · exact consistent.poppedWon x old
      · rw [List.mem_singleton.1 new]
        exact consistent.contents p published first.le }

/-- A released slot carries the position one ring further on. -/
theorem release (published : p ∈ run.published) (first : run.released = p.toNat)
    (popped : run.popped.length = p.toNat + 1) (few : run.won.length < 2 ^ 63) :
    (run.release p).Consistent := by
  have capacity : kNativeProbeQueueCapacity.toNat = 8192 := rfl
  have below := consistent.publishedWon p published
  exact
    { consistent with
      releasedPublished := by
        intro q qBelow
        rcases Nat.lt_succ_iff_lt_or_eq.1 qBelow with old | last
        · exact consistent.releasedPublished q old
        · rw [UInt64.toNat_inj.1 (last.trans first)]
          exact published
      releasedPopped := by
        show run.released + 1 ≤ run.popped.length
        omega
      room := by
        have := consistent.room
        show run.won.length ≤ run.released + 1 + 8192
        omega
      sequences := by
        rintro q ⟨low, high⟩
        have low : run.released + 1 ≤ q.toNat := low
        have high : q.toNat < run.released + 1 + 8192 := high
        rw [slot_release]
        split
        · next same =>
            have := slotIndex_eq_iff.1 same
            have next : q = p + kNativeProbeQueueCapacity := by
              apply UInt64.toNat_inj.1
              rw [toNat_add_of_small (by omega)]
              omega
            have unpublished : q ∉ (run.release p).published := by
              intro qPublished
              have := consistent.publishedWon q qPublished
              have := consistent.room
              omega
            rw [if_neg unpublished, next]
        · next apart =>
            rw [slotIndex_eq_iff] at apart
            exact consistent.sequences q ⟨by omega, by omega⟩
      contents := by
        intro q qPublished unpopped
        obtain ⟨k, won⟩ := consistent.contents q qPublished unpopped
        refine ⟨k, ?_⟩
        rw [slot_release]
        split
        · next same =>
            rw [← slot_eq_of_index same]
            exact won
        · exact won }

theorem advance : (run.advance p).Consistent :=
  { consistent with }

end Consistent

end ProbeQueueRun

/-! ## What each thread relies on -/

variable {ι Event : Type} {run run' : ProbeQueueRun ι Event} {i j : ι}

/-- A producer past its exchange holds its position; before, its slot's turn has come. -/
def TryPush.Asserts (i : ι) (run : ProbeQueueRun ι Event) : TryPush Event → Prop
  | .loadSequence _ _ position => position.toNat ≤ run.won.length
  | .exchangePosition _ _ position => position.toNat < run.released + 8192
  | .writeEvent event position => ⟨i, position, event⟩ ∈ run.won ∧ position ∉ run.published
  | .storeSequence event position =>
      ⟨i, position, event⟩ ∈ run.won ∧ position ∉ run.published ∧
        (run.slot position).event = event
  | _ => True

/-- Between two pops everything popped is released and `dequeue_position_` counts it. -/
def TryPop.Settled (run : ProbeQueueRun ι Event) : Prop :=
  run.released = run.queue.dequeuePosition.toNat ∧
    run.popped.length = run.queue.dequeuePosition.toNat

/-- The consumer at `position` has copied `event` from it. -/
def TryPop.Copied (run : ProbeQueueRun ι Event) (position : UInt64) (event : Event) : Prop :=
  position = run.queue.dequeuePosition ∧ position ∈ run.published ∧
    run.popped.length = position.toNat + 1 ∧ run.popped.getLast? = some (position, event)

def TryPop.Asserts (run : ProbeQueueRun ι Event) : TryPop Event → Prop
  | .loadSequence position => TryPop.Settled run ∧ position = run.queue.dequeuePosition
  | .readEvent position =>
      TryPop.Settled run ∧ position = run.queue.dequeuePosition ∧ position ∈ run.published
  | .storeSequence position event =>
      run.released = position.toNat ∧ TryPop.Copied run position event
  | .storePosition position event =>
      run.released = position.toNat + 1 ∧ TryPop.Copied run position event
  | .returned (some event) =>
      TryPop.Settled run ∧ run.popped.getLast?.map Prod.snd = some event
  | _ => TryPop.Settled run

def QueueThread.Asserts :
    (t : QueueThread ι) → ProbeQueueRun ι Event → QueueThread.Local ι Event t → Prop
  | .producer i, run, pc => TryPush.Asserts i run pc
  | .consumer, run, pc => TryPop.Asserts run pc

/-! ## Producers -/

/-- What an access of a producer does to the shared region. -/
theorem TryPush.access_run {call : Event × UInt64} {spurious : Bool} {pc pc' : TryPush Event}
    (moves : TryPush.access i call spurious run pc = (run', pc')) :
    run' = run ∨ (∃ dropped, run' = run.setDropped dropped) ∨
      (∃ event droppedWeight position, pc = .exchangePosition event droppedWeight position ∧
        run.queue.enqueuePosition = position ∧ run' = run.reserve i position event) ∨
      (∃ event position, pc = .writeEvent event position ∧ run' = run.write position event) ∨
      (∃ event position, pc = .storeSequence event position ∧ run' = run.publish position) := by
  have moved := congrArg Prod.fst moves
  cases pc with
  | idle => exact .inl moved.symm
  | loadPosition event droppedWeight => exact .inl moved.symm
  | loadSequence event droppedWeight position =>
      refine .inl (moved.symm.trans ?_)
      simp only [TryPush.access]
      split
      · rfl
      · split <;> rfl
  | exchangePosition event droppedWeight position =>
      rw [TryPush.access] at moved
      split at moved
      · next won =>
          exact .inr (.inr (.inl ⟨event, droppedWeight, position, rfl, won.1, moved.symm⟩))
      · exact .inl moved.symm
  | writeEvent event position =>
      exact .inr (.inr (.inr (.inl ⟨event, position, rfl, moved.symm⟩)))
  | storeSequence event position =>
      exact .inr (.inr (.inr (.inr ⟨event, position, rfl, moved.symm⟩)))
  | loadDropped droppedWeight => exact .inl moved.symm
  | exchangeDropped droppedWeight dropped =>
      rw [TryPush.access] at moved
      split at moved
      · exact .inr (.inl ⟨_, moved.symm⟩)
      · exact .inl moved.symm
  | returned accepted => exact .inl moved.symm

theorem TryPush.access_won {call : Event × UInt64} {spurious : Bool} {pc pc' : TryPush Event}
    (moves : TryPush.access i call spurious run pc = (run', pc')) :
    run.won.length ≤ run'.won.length := by
  rcases TryPush.access_run moves with rfl | ⟨_, rfl⟩ | ⟨event, _, position, _, _, rfl⟩ |
    ⟨_, _, _, rfl⟩ | ⟨_, _, _, rfl⟩
  · exact le_refl _
  · exact le_refl _
  · rw [ProbeQueueRun.reserve, List.length_append]
    exact Nat.le_add_right _ _
  · exact le_refl _
  · exact le_refl _

theorem TryPush.access_consistent {call : Event × UInt64} {spurious : Bool}
    {pc pc' : TryPush Event} (moves : TryPush.access i call spurious run pc = (run', pc'))
    (few : run'.won.length < 2 ^ 63) (consistent : run.Consistent)
    (asserts : TryPush.Asserts i run pc) : run'.Consistent := by
  rcases TryPush.access_run moves with rfl | ⟨dropped, rfl⟩ |
    ⟨event, _, position, rfl, enqueue, rfl⟩ | ⟨event, position, rfl, rfl⟩ | ⟨event, position, rfl, rfl⟩
  · exact consistent
  · exact consistent.setDropped dropped
  · rw [ProbeQueueRun.reserve, List.length_append, List.length_singleton] at few
    exact consistent.reserve enqueue asserts few
  · exact consistent.write asserts.1 asserts.2
  · exact consistent.publish asserts.1 asserts.2.1 asserts.2.2

theorem TryPush.countDropped_asserts (droppedWeight dropped : UInt64) :
    TryPush.Asserts i run (TryPush.countDropped droppedWeight dropped) := by
  rw [TryPush.countDropped]
  split <;> exact trivial

theorem TryPush.access_asserts {call : Event × UInt64} {spurious : Bool}
    {pc pc' : TryPush Event} (moves : TryPush.access i call spurious run pc = (run', pc'))
    (consistent : run.Consistent) (asserts : TryPush.Asserts i run pc) :
    TryPush.Asserts i run' pc' := by
  cases pc with
  | idle =>
      obtain ⟨rfl, rfl⟩ := Prod.mk.inj moves
      exact trivial
  | loadPosition event droppedWeight =>
      obtain ⟨rfl, rfl⟩ := Prod.mk.inj moves
      exact consistent.enqueued.le
  | loadSequence event droppedWeight position =>
      simp only [TryPush.access] at moves
      split at moves
      · next zero =>
          obtain ⟨rfl, rfl⟩ := Prod.mk.inj moves
          exact consistent.turn_inRing (toInt64_sub_eq_zero.1 zero) asserts
      · split at moves
        · obtain ⟨rfl, rfl⟩ := Prod.mk.inj moves
          exact trivial
        · obtain ⟨rfl, rfl⟩ := Prod.mk.inj moves
          exact trivial
  | exchangePosition event droppedWeight position =>
      simp only [TryPush.access] at moves
      split at moves
      · next won =>
          obtain ⟨rfl, rfl⟩ := Prod.mk.inj moves
          refine ⟨List.mem_append_right _ (List.mem_singleton_self _), fun published => ?_⟩
          have := consistent.publishedWon position published
          have := consistent.enqueued
          rw [won.1] at this
          omega
      · obtain ⟨rfl, rfl⟩ := Prod.mk.inj moves
        exact consistent.enqueued.le
  | writeEvent event position =>
      obtain ⟨rfl, rfl⟩ := Prod.mk.inj moves
      refine ⟨asserts.1, asserts.2, ?_⟩
      rw [ProbeQueueRun.slot_write, if_pos rfl]
  | storeSequence event position =>
      obtain ⟨rfl, rfl⟩ := Prod.mk.inj moves
      exact trivial
  | loadDropped droppedWeight =>
      obtain ⟨rfl, rfl⟩ := Prod.mk.inj moves
      exact TryPush.countDropped_asserts _ _
  | exchangeDropped droppedWeight dropped =>
      simp only [TryPush.access] at moves
      split at moves
      · obtain ⟨rfl, rfl⟩ := Prod.mk.inj moves
        exact trivial
      · obtain ⟨rfl, rfl⟩ := Prod.mk.inj moves
        exact TryPush.countDropped_asserts _ _
  | returned accepted =>
      obtain ⟨rfl, rfl⟩ := Prod.mk.inj moves
      exact trivial

/-! ## The consumer -/

/-- What an access of the consumer does to the shared region. -/
theorem TryPop.access_run {pc pc' : TryPop Event} (moves : TryPop.access run pc = (run', pc')) :
    run' = run ∨ (∃ position, pc = .readEvent position ∧ run' = run.read position) ∨
      (∃ position event, pc = .storeSequence position event ∧ run' = run.release position) ∨
      (∃ position event, pc = .storePosition position event ∧ run' = run.advance position) := by
  have moved := congrArg Prod.fst moves
  cases pc with
  | idle => exact .inl moved.symm
  | loadPosition => exact .inl moved.symm
  | loadSequence position =>
      refine .inl (moved.symm.trans ?_)
      simp only [TryPop.access]
      split <;> rfl
  | readEvent position => exact .inr (.inl ⟨position, rfl, moved.symm⟩)
  | storeSequence position event => exact .inr (.inr (.inl ⟨position, event, rfl, moved.symm⟩))
  | storePosition position event => exact .inr (.inr (.inr ⟨position, event, rfl, moved.symm⟩))
  | returned event => exact .inl moved.symm

theorem TryPop.access_won {pc pc' : TryPop Event} (moves : TryPop.access run pc = (run', pc')) :
    run'.won = run.won := by
  rcases TryPop.access_run moves with rfl | ⟨_, _, rfl⟩ | ⟨_, _, _, rfl⟩ | ⟨_, _, _, rfl⟩ <;> rfl

theorem TryPop.access_consistent {pc pc' : TryPop Event}
    (moves : TryPop.access run pc = (run', pc')) (few : run.won.length < 2 ^ 63)
    (consistent : run.Consistent) (asserts : TryPop.Asserts run pc) : run'.Consistent := by
  rcases TryPop.access_run moves with rfl | ⟨position, rfl, rfl⟩ | ⟨position, event, rfl, rfl⟩ |
    ⟨position, event, rfl, rfl⟩
  · exact consistent
  · obtain ⟨⟨_, popped⟩, rfl, published⟩ := asserts
    exact consistent.read published popped
  · obtain ⟨released, _, published, popped, _⟩ := asserts
    exact consistent.release published released popped few
  · exact consistent.advance

theorem TryPop.access_asserts {pc pc' : TryPop Event}
    (moves : TryPop.access run pc = (run', pc')) (few : run.won.length < 2 ^ 63)
    (consistent : run.Consistent) (asserts : TryPop.Asserts run pc) :
    TryPop.Asserts run' pc' := by
  cases pc with
  | idle =>
      obtain ⟨rfl, rfl⟩ := Prod.mk.inj moves
      exact asserts
  | loadPosition =>
      obtain ⟨rfl, rfl⟩ := Prod.mk.inj moves
      exact ⟨asserts, rfl⟩
  | loadSequence position =>
      obtain ⟨settled, rfl⟩ := asserts
      simp only [TryPop.access] at moves
      split at moves
      · obtain ⟨rfl, rfl⟩ := Prod.mk.inj moves
        exact settled
      · next zero =>
          obtain ⟨rfl, rfl⟩ := Prod.mk.inj moves
          refine ⟨settled, rfl, ?_⟩
          by_contra unpublished
          have carried := consistent.sequences _
            ⟨settled.1.le, by rw [settled.1]; exact Nat.lt_add_of_pos_right (by decide)⟩
          rw [if_neg unpublished] at carried
          have turn := toInt64_sub_eq_zero.1 (not_not.1 zero)
          exact succ_ne_self _ (turn.symm.trans carried)
  | readEvent position =>
      obtain ⟨rfl, rfl⟩ := Prod.mk.inj moves
      obtain ⟨⟨released, popped⟩, rfl, published⟩ := asserts
      refine ⟨released, rfl, published, ?_, List.getLast?_concat⟩
      rw [ProbeQueueRun.read, List.length_append, List.length_singleton, popped]
  | storeSequence position event =>
      obtain ⟨rfl, rfl⟩ := Prod.mk.inj moves
      exact ⟨congrArg (· + 1) asserts.1, asserts.2⟩
  | storePosition position event =>
      obtain ⟨rfl, rfl⟩ := Prod.mk.inj moves
      obtain ⟨released, _, published, popped, last⟩ := asserts
      have := consistent.publishedWon position published
      have next : (position + 1).toNat = position.toNat + 1 :=
        toNat_add_of_small (by rw [UInt64.toNat_one]; omega)
      refine ⟨⟨released.trans next.symm, popped.trans next.symm⟩, ?_⟩
      show run.popped.getLast?.map Prod.snd = some event
      rw [last]
      rfl
  | returned event =>
      obtain ⟨rfl, rfl⟩ := Prod.mk.inj moves
      cases event with
      | none => exact asserts
      | some event => exact asserts.1

/-! ## No thread disturbs another -/

/-- What the producer `j` relies on when another thread moves. -/
structure Undisturbed (j : ι) (run run' : ProbeQueueRun ι Event) : Prop where
  won : ∀ win ∈ run.won, win ∈ run'.won
  wonLength : run.won.length ≤ run'.won.length
  released : run.released ≤ run'.released
  held : ∀ position event, ⟨j, position, event⟩ ∈ run.won → position ∉ run.published →
    position ∉ run'.published ∧ (run'.slot position).event = (run.slot position).event

theorem Undisturbed.refl (j : ι) (run : ProbeQueueRun ι Event) : Undisturbed j run run :=
  ⟨fun _ => id, le_refl _, le_refl _, fun _ _ _ unpublished => ⟨unpublished, rfl⟩⟩

theorem Undisturbed.asserts (undisturbed : Undisturbed j run run') {pc : TryPush Event}
    (asserts : TryPush.Asserts j run pc) : TryPush.Asserts j run' pc := by
  cases pc with
  | loadSequence event droppedWeight position => exact asserts.trans undisturbed.wonLength
  | exchangePosition event droppedWeight position =>
      exact lt_of_lt_of_le asserts (Nat.add_le_add_right undisturbed.released _)
  | writeEvent event position =>
      obtain ⟨won, unpublished⟩ := asserts
      exact ⟨undisturbed.won _ won, (undisturbed.held _ _ won unpublished).1⟩
  | storeSequence event position =>
      obtain ⟨won, unpublished, written⟩ := asserts
      obtain ⟨still, same⟩ := undisturbed.held _ _ won unpublished
      exact ⟨undisturbed.won _ won, still, same.trans written⟩
  | _ => exact trivial

/-- Two producers hold positions of different slots. -/
theorem ProbeQueueRun.Consistent.held_apart (consistent : run.Consistent) (other : j ≠ i)
    {p q : UInt64} {e f : Event} (pWon : ⟨i, p, e⟩ ∈ run.won) (pHeld : p ∉ run.published)
    (qWon : ⟨j, q, f⟩ ∈ run.won) (qHeld : q ∉ run.published) : slotIndex q ≠ slotIndex p := by
  intro same
  obtain rfl := ProbeQueueRun.InWindow.eq_of_slot (consistent.held_inWindow qWon qHeld)
    (consistent.held_inWindow pWon pHeld) same
  exact other (consistent.winner_unique qWon pWon)

theorem TryPush.access_undisturbed {call : Event × UInt64} {spurious : Bool}
    {pc pc' : TryPush Event} (moves : TryPush.access i call spurious run pc = (run', pc'))
    (consistent : run.Consistent) (asserts : TryPush.Asserts i run pc) (other : j ≠ i) :
    Undisturbed j run run' := by
  rcases TryPush.access_run moves with rfl | ⟨dropped, rfl⟩ |
    ⟨event, _, position, rfl, _, rfl⟩ | ⟨event, position, rfl, rfl⟩ | ⟨event, position, rfl, rfl⟩
  · exact .refl j _
  · exact ⟨fun _ => id, le_refl _, le_refl _, fun _ _ _ held => ⟨held, rfl⟩⟩
  · refine ⟨fun _ => List.mem_append_left _, ?_, le_refl _, fun _ _ _ held => ⟨held, rfl⟩⟩
    rw [ProbeQueueRun.reserve, List.length_append]
    exact Nat.le_add_right _ _
  · refine ⟨fun _ => id, le_refl _, le_refl _, fun q f qWon qHeld => ⟨qHeld, ?_⟩⟩
    rw [ProbeQueueRun.slot_write,
      if_neg (consistent.held_apart other asserts.1 asserts.2 qWon qHeld)]
  · obtain ⟨won, unpublished, _⟩ := asserts
    refine ⟨fun _ => id, le_refl _, le_refl _, fun q f qWon qHeld => ?_⟩
    have apart := consistent.held_apart other won unpublished qWon qHeld
    refine ⟨fun published => ?_, ?_⟩
    · rcases List.mem_append.1 published with old | new
      · exact qHeld old
      · exact apart (congrArg slotIndex (List.mem_singleton.1 new))
    · rw [ProbeQueueRun.slot_publish, if_neg apart]

theorem TryPop.access_undisturbed {pc pc' : TryPop Event}
    (moves : TryPop.access run pc = (run', pc')) : Undisturbed j run run' := by
  rcases TryPop.access_run moves with rfl | ⟨position, _, rfl⟩ | ⟨position, event, _, rfl⟩ |
    ⟨position, event, _, rfl⟩
  · exact .refl j _
  · exact ⟨fun _ => id, le_refl _, le_refl _, fun _ _ _ held => ⟨held, rfl⟩⟩
  · refine ⟨fun _ => id, le_refl _, Nat.le_succ _, fun q f _ qHeld => ⟨qHeld, ?_⟩⟩
    rw [ProbeQueueRun.slot_release]
    split
    · next same => rw [ProbeQueueRun.slot_eq_of_index same]
    · rfl
  · exact ⟨fun _ => id, le_refl _, le_refl _, fun _ _ _ held => ⟨held, rfl⟩⟩

/-- The consumer relies on nothing a producer changes but the publications. -/
theorem TryPush.access_consumer {call : Event × UInt64} {spurious : Bool}
    {pc pc' : TryPush Event} (moves : TryPush.access i call spurious run pc = (run', pc')) :
    run'.released = run.released ∧ run'.popped = run.popped ∧
      run'.queue.dequeuePosition = run.queue.dequeuePosition ∧
      ∀ position ∈ run.published, position ∈ run'.published := by
  rcases TryPush.access_run moves with rfl | ⟨_, rfl⟩ | ⟨_, _, _, _, _, rfl⟩ |
    ⟨_, _, _, rfl⟩ | ⟨_, _, _, rfl⟩
  · exact ⟨rfl, rfl, rfl, fun _ => id⟩
  · exact ⟨rfl, rfl, rfl, fun _ => id⟩
  · exact ⟨rfl, rfl, rfl, fun _ => id⟩
  · exact ⟨rfl, rfl, rfl, fun _ => id⟩
  · exact ⟨rfl, rfl, rfl, fun _ => List.mem_append_left _⟩

theorem TryPop.Asserts.stable {pc : TryPop Event} (asserts : TryPop.Asserts run pc)
    (released : run'.released = run.released) (popped : run'.popped = run.popped)
    (dequeue : run'.queue.dequeuePosition = run.queue.dequeuePosition)
    (published : ∀ position ∈ run.published, position ∈ run'.published) :
    TryPop.Asserts run' pc := by
  have settled : TryPop.Settled run → TryPop.Settled run' := by
    rw [TryPop.Settled, TryPop.Settled, released, popped, dequeue]
    exact id
  have copied : ∀ position event, TryPop.Copied run position event →
      TryPop.Copied run' position event := by
    intro position event
    rw [TryPop.Copied, TryPop.Copied, popped, dequeue]
    exact fun copied => ⟨copied.1, published _ copied.2.1, copied.2.2⟩
  cases pc with
  | idle => exact settled asserts
  | loadPosition => exact settled asserts
  | loadSequence position => exact ⟨settled asserts.1, asserts.2.trans dequeue.symm⟩
  | readEvent position =>
      exact ⟨settled asserts.1, asserts.2.1.trans dequeue.symm, published _ asserts.2.2⟩
  | storeSequence position event =>
      exact ⟨released.trans asserts.1, copied _ _ asserts.2⟩
  | storePosition position event =>
      exact ⟨released.trans asserts.1, copied _ _ asserts.2⟩
  | returned event =>
      cases event with
      | none => exact settled asserts
      | some event => exact ⟨settled asserts.1, popped ▸ asserts.2⟩

/-- Fewer than 2^63 pushes so far. -/
def FewPushes (run : ProbeQueueRun ι Event) : Prop := run.won.length < 2 ^ 63

theorem queueMachine_won {t : QueueThread ι} {pc pc' : QueueThread.Local ι Event t}
    (moves : queueMachine.access t run pc run' pc') : run.won.length ≤ run'.won.length := by
  cases t with
  | producer i =>
      obtain ⟨⟨call, spurious⟩, moves⟩ := moves
      exact TryPush.access_won moves
  | consumer =>
      obtain ⟨_, moves⟩ := moves
      rw [TryPop.access_won moves]

theorem queue_outline : Outline (@queueMachine ι Event).access FewPushes
    ProbeQueueRun.Consistent QueueThread.Asserts where
  earlier moves few := (queueMachine_won moves).trans_lt few
  keeps {t _ _ _ _} moves few consistent asserts := by
    have before := (queueMachine_won moves).trans_lt few
    cases t with
    | producer i =>
        obtain ⟨⟨call, spurious⟩, moves⟩ := moves
        exact TryPush.access_consistent moves few consistent asserts
    | consumer =>
        obtain ⟨_, moves⟩ := moves
        exact TryPop.access_consistent moves before consistent asserts
  reaches {t _ _ _ _} moves few consistent asserts := by
    have before := (queueMachine_won moves).trans_lt few
    cases t with
    | producer i =>
        obtain ⟨⟨call, spurious⟩, moves⟩ := moves
        exact TryPush.access_asserts moves consistent asserts
    | consumer =>
        obtain ⟨_, moves⟩ := moves
        exact TryPop.access_asserts moves before consistent asserts
  stable {t _ _ _ _ u k} moves _ consistent asserts other others := by
    cases t with
    | producer i =>
        obtain ⟨⟨call, spurious⟩, moves⟩ := moves
        cases u with
        | producer j =>
            have apart : j ≠ i := fun same => other (congrArg QueueThread.producer same)
            exact (TryPush.access_undisturbed moves consistent asserts apart).asserts others
        | consumer =>
            obtain ⟨released, popped, dequeue, published⟩ := TryPush.access_consumer moves
            exact others.stable released popped dequeue published
    | consumer =>
        obtain ⟨_, moves⟩ := moves
        cases u with
        | producer j => exact (TryPop.access_undisturbed moves).asserts others
        | consumer => exact absurd rfl other

theorem constructed_holds [Inhabited Event] :
    Outline.Holds ProbeQueueRun.Consistent QueueThread.Asserts (constructed ι Event) := by
  refine ⟨ProbeQueueRun.Consistent.new, fun t => ?_⟩
  cases t with
  | producer i => exact trivial
  | consumer => exact ⟨rfl, rfl⟩

/-! ## The queue is linear -/

/-- What the queue's users see in a configuration of its threads. -/
structure Linear
    (config : QueueConfig ι Event) : Prop where
  /-- What was popped from a position is the event of the push that won it. -/
  poppedWon : ∀ x ∈ config.memory.popped, ∃ i, ⟨i, x.1, x.2⟩ ∈ config.memory.won
  wonOnce : (config.memory.won.map Win.position).Nodup
  poppedOnce : (config.memory.popped.map Prod.fst).Nodup
  inOrder : config.memory.popped.map Prod.fst =
    (List.range config.memory.popped.length).map UInt64.ofNat
  /-- What is published and not popped stands in its slot, and nobody is about to write there. -/
  kept : ∀ p ∈ config.memory.published, p ∉ config.memory.popped.map Prod.fst →
    (∃ i, ⟨i, p, (config.memory.slot p).event⟩ ∈ config.memory.won) ∧
      ∀ i event q, config.locals (.producer i) = TryPush.writeEvent event q →
        slotIndex q ≠ slotIndex p
  /-- A pop returns what it has just recorded as popped. -/
  returned : ∀ event, config.locals .consumer = TryPop.returned (some event) →
    config.memory.popped.getLast?.map Prod.snd = some event

theorem ProbeQueueRun.Consistent.popped_positions (consistent : run.Consistent) :
    run.popped.map Prod.fst = (List.range run.popped.length).map UInt64.ofNat := by
  rw [← consistent.poppedInOrder, List.map_map]
  exact List.map_congr_left fun x _ => (UInt64.ofNat_toNat).symm

theorem ProbeQueueRun.Consistent.popped_once (consistent : run.Consistent) :
    (run.popped.map Prod.fst).Nodup := by
  have order : (run.popped.map Prod.fst).map UInt64.toNat = List.range run.popped.length := by
    rw [List.map_map]
    exact consistent.poppedInOrder
  exact List.Nodup.of_map _ (order ▸ List.nodup_range)

/-- A position that was never popped comes after all that were. -/
theorem ProbeQueueRun.Consistent.unpopped (consistent : run.Consistent) {p : UInt64}
    (unpopped : p ∉ run.popped.map Prod.fst) : run.popped.length ≤ p.toNat := by
  by_contra popped
  have member : p.toNat ∈ run.popped.map (fun x => x.1.toNat) := by
    rw [consistent.poppedInOrder, List.mem_range]
    exact not_le.1 popped
  obtain ⟨x, xMember, same⟩ := List.mem_map.1 member
  exact unpopped (List.mem_map.2 ⟨x, xMember, UInt64.toNat_inj.1 same⟩)

theorem linear_of_holds
    {config : QueueConfig ι Event}
    (holds : Outline.Holds ProbeQueueRun.Consistent QueueThread.Asserts config) :
    Linear config := by
  obtain ⟨consistent, asserts⟩ := holds
  refine ⟨consistent.poppedWon, consistent.wonOnce, consistent.popped_once,
    consistent.popped_positions, fun p published unpopped => ?_, fun event atReturn => ?_⟩
  · have later := consistent.unpopped unpopped
    refine ⟨consistent.contents p published later, fun i event q atWrite same => ?_⟩
    have held : TryPush.Asserts i config.memory (TryPush.writeEvent event q) :=
      atWrite ▸ asserts (.producer i)
    obtain rfl := ProbeQueueRun.InWindow.eq_of_slot (consistent.held_inWindow held.1 held.2)
      (consistent.unpopped_inWindow published later) same
    exact held.2 published
  · have settled : TryPop.Asserts config.memory (TryPop.returned (some event)) :=
      atReturn ▸ asserts .consumer
    exact settled.2

/-- No two plain copies of an event meet in one slot. -/
theorem plain_copies_apart [Inhabited Event]
    {config : QueueConfig ι Event}
    (reached : Reachable queueMachine.access (constructed ι Event) config) (few : FewPushes config.memory)
    {e f : Event} {p q : UInt64} (writing : config.locals (.producer i) = TryPush.writeEvent e p) :
    (∀ j, j ≠ i → config.locals (.producer j) = TryPush.writeEvent f q →
      slotIndex q ≠ slotIndex p) ∧
      (config.locals .consumer = TryPop.readEvent q → slotIndex q ≠ slotIndex p) := by
  obtain ⟨consistent, asserts⟩ := queue_outline.reachable reached few constructed_holds
  have held : TryPush.Asserts i config.memory (TryPush.writeEvent e p) :=
    writing ▸ asserts (.producer i)
  constructor
  · intro j other alsoWriting
    have alsoHeld : TryPush.Asserts j config.memory (TryPush.writeEvent f q) :=
      alsoWriting ▸ asserts (.producer j)
    exact consistent.held_apart other held.1 held.2 alsoHeld.1 alsoHeld.2
  · intro reading same
    have settled : TryPop.Asserts config.memory (TryPop.readEvent q) :=
      reading ▸ asserts .consumer
    obtain ⟨⟨_, popped⟩, position, published⟩ := settled
    obtain rfl := ProbeQueueRun.InWindow.eq_of_slot
      (consistent.unpopped_inWindow published (by rw [popped, position]))
      (consistent.held_inWindow held.1 held.2) same
    exact held.2 published

deriving instance DecidableEq for TryPush

/-- Two producers that have won positions 0 and 1 and are about to write. -/
def bothWriting : List (QueueThread Bool × QueueChoice Nat) :=
  List.replicate 4 (.producer false, (10, 1), false) ++
    List.replicate 4 (.producer true, (11, 1), false)

theorem plain_copies_apart_both : slotIndex 1 ≠ slotIndex 0 := by
  have first : @Eq (TryPush Nat)
      ((bothWriting.foldl queueMachine.perform (constructed Bool Nat)).locals (.producer false))
      (.writeEvent 10 0) := by decide +kernel
  have second : @Eq (TryPush Nat)
      ((bothWriting.foldl queueMachine.perform (constructed Bool Nat)).locals (.producer true))
      (.writeEvent 11 1) := by decide +kernel
  exact (plain_copies_apart (queueMachine.schedule_reachable _ _)
    (show List.length _ < _ by decide +kernel) first).1 true (by decide) second

/-- Any number of producers and one consumer, interleaved in any way, use a linear queue. -/
theorem probe_queue_linear [Inhabited Event]
    {config : QueueConfig ι Event}
    (reached : Reachable queueMachine.access (constructed ι Event) config)
    (few : FewPushes config.memory) : Linear config :=
  linear_of_holds (queue_outline.reachable reached few constructed_holds)

/-- A producer stalls between winning position 0 and publishing it. -/
def stalledPush : List (QueueThread Bool × QueueChoice Nat) :=
  List.replicate 4 (.producer false, (10, 1), false) ++
    List.replicate 6 (.producer true, (11, 1), false) ++
    List.replicate 3 (.consumer, (0, 0), false) ++
    List.replicate 2 (.producer false, (10, 1), false) ++
    List.replicate 11 (.consumer, (0, 0), false)

theorem probe_queue_linear_stalled :
    (stalledPush.foldl queueMachine.perform (constructed Bool Nat)).memory.popped =
      [(0, 10), (1, 11)] ∧
      Linear (stalledPush.foldl queueMachine.perform (constructed Bool Nat)) :=
  ⟨by decide +kernel,
    probe_queue_linear (queueMachine.schedule_reachable _ _)
      (show List.length _ < _ by decide +kernel)⟩

end Reb.Probe
