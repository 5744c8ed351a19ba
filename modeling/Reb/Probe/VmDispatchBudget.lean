/-
# Probe.VmDispatchBudget -- sample slots claimed by racing threads

`TryReserve` and `Release` of `NativeVmDispatchBudget` as programs of single
accesses.  One word a slot is both the owning generation and the occupancy: a
claim writes its even generation, a release writes the odd number below it, and a
word is only ever exchanged for a larger one or for the one just below.

Recorded beside the words: every claim that was made, and how far its release
has come.  `Kept` is the invariant; `budget_exclusive` collects what follows.
-/
import Reb.Theory.Interleaving

namespace Reb.Probe

set_option autoImplicit false

open Theory.Interleaving

def kNativeVmDispatchSampleBudget : Nat := 16

/-- How far the release of a claim has come. -/
inductive ClaimStatus (ι : Type) where
  | held
  | releasing (thread : ι)
  | released
  deriving DecidableEq

structure VmBudgetClaim (ι : Type) where
  slot : Fin kNativeVmDispatchSampleBudget
  generation : UInt64
  status : ClaimStatus ι

/-- Not yet given back: the exchange of its release has not been made. -/
def VmBudgetClaim.outstanding {ι : Type} (claim : VmBudgetClaim ι) : Bool :=
  match claim.status with
  | .released => false
  | _ => true

structure VmBudgetRun (ι : Type) where
  generations : Fin kNativeVmDispatchSampleBudget → UInt64 := fun _ => 0
  claims : List (VmBudgetClaim ι) := []

namespace VmBudgetRun

variable {ι : Type}

def setGeneration (run : VmBudgetRun ι) (slot : Fin kNativeVmDispatchSampleBudget)
    (generation : UInt64) : VmBudgetRun ι :=
  { run with generations := Function.update run.generations slot generation }

/-- A successful reservation. -/
def claim (run : VmBudgetRun ι) (slot : Fin kNativeVmDispatchSampleBudget) (generation : UInt64) :
    VmBudgetRun ι :=
  { run.setGeneration slot generation with
    claims := run.claims ++ [⟨slot, generation, .held⟩] }

def setStatus (run : VmBudgetRun ι) (index : Nat) (status : ClaimStatus ι) : VmBudgetRun ι :=
  { run with claims := run.claims.modify index fun claim => { claim with status } }

end VmBudgetRun

/-- The next access of a thread. -/
inductive VmBudgetPc where
  | idle
  | load (generation : UInt64) (slot : Fin kNativeVmDispatchSampleBudget)
  | exchange (generation : UInt64) (slot : Fin kNativeVmDispatchSampleBudget) (claimed : UInt64)
  | exchangeReleased (index : Nat) (slot : Fin kNativeVmDispatchSampleBudget) (generation : UInt64)
  | reserved (slot : Option (Fin kNativeVmDispatchSampleBudget))
  | released

inductive VmBudgetRequest where
  | reserve (generation : UInt64)
  | release (index : Nat)

def validGeneration (generation : UInt64) : Bool := generation != 0 && generation &&& 1 == 0

/-- The next turn of the loop over the slots. -/
def nextSlot (generation : UInt64) (slot : Fin kNativeVmDispatchSampleBudget) : VmBudgetPc :=
  if more : slot.val + 1 < kNativeVmDispatchSampleBudget then .load generation ⟨slot.val + 1, more⟩
  else .reserved none

section Access

variable {ι : Type}

/-- A call; a claim is released by whoever asks first, and only once. -/
def callBudget (thread : ι) (run : VmBudgetRun ι) :
    VmBudgetRequest → VmBudgetRun ι × VmBudgetPc
  | .reserve generation =>
      if validGeneration generation then (run, .load generation ⟨0, by decide⟩)
      else (run, .reserved none)
  | .release index =>
      match run.claims[index]? with
      | some ⟨slot, generation, .held⟩ =>
          if validGeneration generation then
            (run.setStatus index (.releasing thread), .exchangeReleased index slot generation)
          else (run.setStatus index (.releasing thread), .released)
      | _ => (run, .idle)

def vmBudgetAccess (thread : ι) (request : VmBudgetRequest) (run : VmBudgetRun ι) :
    VmBudgetPc → VmBudgetRun ι × VmBudgetPc
  | .idle | .reserved _ | .released => callBudget thread run request
  | .load generation slot =>
      let claimed := run.generations slot
      if claimed < generation then (run, .exchange generation slot claimed)
      else (run, nextSlot generation slot)
  | .exchange generation slot claimed =>
      if run.generations slot = claimed then (run.claim slot generation, .reserved (some slot))
      else (run, nextSlot generation slot)
  | .exchangeReleased index slot generation =>
      if run.generations slot = generation then
        ((run.setStatus index .released).setGeneration slot (generation - 1), .released)
      else (run.setStatus index .released, .released)

def vmBudgetMachine (ι : Type) : Machine (fun _ : ι => VmBudgetPc) (VmBudgetRun ι)
    VmBudgetRequest :=
  fun thread request run pc => vmBudgetAccess thread request run pc

end Access

/-- The budget as constructed: every word zero, every thread between two calls. -/
def unclaimed (ι : Type) : Config (fun _ : ι => VmBudgetPc) (VmBudgetRun ι) :=
  ⟨{}, fun _ => .idle⟩

/-! ## Words -/

theorem validGeneration_iff {generation : UInt64} :
    validGeneration generation = true ↔ 0 < generation.toNat ∧ generation.toNat % 2 = 0 := by
  have low : (generation &&& 1).toNat = generation.toNat % 2 := by
    rw [UInt64.toNat_and]
    exact Nat.and_one_is_mod _
  rw [validGeneration, Bool.and_eq_true, bne_iff_ne, beq_iff_eq, ne_eq, ← UInt64.toNat_inj,
    ← UInt64.toNat_inj, low]
  simp [Nat.pos_iff_ne_zero]

theorem toNat_sub_one {generation : UInt64} (positive : 0 < generation.toNat) :
    (generation - 1).toNat = generation.toNat - 1 :=
  UInt64.toNat_sub_of_le _ _ (UInt64.le_iff_toNat_le.2 positive)

theorem getElem?_concat {α : Type} {xs : List α} {x y : α} {i : Nat}
    (found : (xs ++ [x])[i]? = some y) : xs[i]? = some y ∨ (i = xs.length ∧ y = x) := by
  rcases Nat.lt_or_ge i xs.length with old | new
  · rw [List.getElem?_append_left old] at found
    exact .inl found
  · rw [List.getElem?_append_right new, List.getElem?_singleton] at found
    split at found
    · next at' =>
        cases found
        exact .inr ⟨by omega, rfl⟩
    · cases found

/-! ## The invariant -/

section Invariant

variable {ι : Type} {run run' : VmBudgetRun ι}

structure Kept (run : VmBudgetRun ι) : Prop where
  valid : ∀ claim ∈ run.claims, validGeneration claim.generation = true
  /-- A word never falls below the release of a claim that was made on it. -/
  reached : ∀ claim ∈ run.claims,
    claim.generation.toNat ≤ (run.generations claim.slot).toNat + 1
  occupied : ∀ claim ∈ run.claims, claim.outstanding = true →
    claim.generation.toNat ≤ (run.generations claim.slot).toNat
  apart : ∀ {i j : Nat} {c d : VmBudgetClaim ι}, run.claims[i]? = some c → run.claims[j]? = some d →
    c.outstanding = true → d.outstanding = true → c.generation = d.generation → c.slot = d.slot →
    i = j

/-- What a thread knows where it stands. -/
def VmBudgetPc.Knows (thread : ι) (run : VmBudgetRun ι) : VmBudgetPc → Prop
  | .load generation _ => validGeneration generation = true
  | .exchange generation _ claimed => validGeneration generation = true ∧ claimed < generation
  | .exchangeReleased index slot generation =>
      run.claims[index]? = some ⟨slot, generation, .releasing thread⟩
  | _ => True

theorem Kept.claim (kept : Kept run) {slot : Fin kNativeVmDispatchSampleBudget}
    {generation : UInt64} (valid : validGeneration generation = true)
    (newer : run.generations slot < generation) : Kept (run.claim slot generation) := by
  have grows : (run.generations slot).toNat < generation.toNat := UInt64.lt_iff_toNat_lt.1 newer
  have word : ∀ other, ((run.claim slot generation).generations other).toNat
      = if other = slot then generation.toNat else (run.generations other).toNat := by
    intro other
    show (Function.update run.generations slot generation other).toNat = _
    rw [Function.update_apply]
    split <;> rfl
  have split : ∀ claim ∈ (run.claim slot generation).claims,
      claim ∈ run.claims ∨ claim = ⟨slot, generation, .held⟩ := by
    intro claim member
    simpa [VmBudgetRun.claim] using member
  refine ⟨?_, ?_, ?_, ?_⟩
  · intro claim member
    rcases split claim member with old | rfl
    · exact kept.valid claim old
    · exact valid
  · intro claim member
    rw [word]
    rcases split claim member with old | rfl
    · have := kept.reached claim old
      split
      · next same => rw [same] at this; omega
      · exact this
    · simp
  · intro claim member out
    rw [word]
    rcases split claim member with old | rfl
    · have := kept.occupied claim old out
      split
      · next same => rw [same] at this; omega
      · exact this
    · simp
  · have fresh : ∀ {i : Nat} {c : VmBudgetClaim ι}, run.claims[i]? = some c → c.outstanding = true →
        c.generation = generation → c.slot = slot → False := by
      intro i c found out same at'
      have := kept.occupied c (List.mem_of_getElem? found) out
      rw [at', same] at this
      omega
    intro i j c d foundC foundD outC outD same at'
    rcases getElem?_concat foundC with oldC | ⟨rfl, rfl⟩ <;>
      rcases getElem?_concat foundD with oldD | ⟨rfl, rfl⟩
    · exact kept.apart oldC oldD outC outD same at'
    · exact (fresh oldC outC same at').elim
    · exact (fresh oldD outD same.symm at'.symm).elim
    · rfl

/-- A claim after one claim's status has changed. -/
theorem getElem?_setStatus {index i : Nat} {status : ClaimStatus ι} {claim : VmBudgetClaim ι}
    (found : (run.setStatus index status).claims[i]? = some claim) :
    ∃ old, run.claims[i]? = some old ∧ claim.slot = old.slot ∧ claim.generation = old.generation
      ∧ claim.status = if index = i then status else old.status := by
  rw [VmBudgetRun.setStatus, List.getElem?_modify] at found
  obtain ⟨old, at', rfl⟩ := Option.map_eq_some_iff.1 found
  refine ⟨old, at', ?_⟩
  split <;> exact ⟨rfl, rfl, rfl⟩

/-- A status that is no more outstanding than the one it replaces. -/
theorem Kept.setStatus (kept : Kept run) {index : Nat} {status : ClaimStatus ι}
    (was : ∀ claim, run.claims[index]? = some claim → claim.outstanding = true) :
    Kept (run.setStatus index status) := by
  have before : ∀ {i : Nat} {claim}, (run.setStatus index status).claims[i]? = some claim →
      ∃ old, run.claims[i]? = some old ∧ claim.slot = old.slot ∧ claim.generation = old.generation
        ∧ (claim.outstanding = true → old.outstanding = true) := by
    intro i claim found
    obtain ⟨old, at', slot, generation, status'⟩ := getElem?_setStatus found
    refine ⟨old, at', slot, generation, fun out => ?_⟩
    split at status'
    · next same =>
        subst same
        exact was old at'
    · rw [VmBudgetClaim.outstanding, status'] at out
      exact out
  refine ⟨?_, ?_, ?_, ?_⟩
  · intro claim member
    obtain ⟨i, found⟩ := List.mem_iff_getElem?.1 member
    obtain ⟨old, at', -, generation, -⟩ := before found
    rw [generation]
    exact kept.valid old (List.mem_of_getElem? at')
  · intro claim member
    obtain ⟨i, found⟩ := List.mem_iff_getElem?.1 member
    obtain ⟨old, at', slot, generation, -⟩ := before found
    rw [generation, slot]
    exact kept.reached old (List.mem_of_getElem? at')
  · intro claim member out
    obtain ⟨i, found⟩ := List.mem_iff_getElem?.1 member
    obtain ⟨old, at', slot, generation, kept'⟩ := before found
    rw [generation, slot]
    exact kept.occupied old (List.mem_of_getElem? at') (kept' out)
  · intro i j c d foundC foundD outC outD same at'
    obtain ⟨oldC, atC, slotC, generationC, keptC⟩ := before foundC
    obtain ⟨oldD, atD, slotD, generationD, keptD⟩ := before foundD
    rw [generationC, generationD] at same
    rw [slotC, slotD] at at'
    exact kept.apart atC atD (keptC outC) (keptD outD) same at'

/-- The exchange of a release: the word falls to the odd number below the generation. -/
theorem Kept.release (kept : Kept run) {index : Nat} {slot : Fin kNativeVmDispatchSampleBudget}
    {generation : UInt64} {status : ClaimStatus ι}
    (claimed : run.claims[index]? = some ⟨slot, generation, status⟩) (out : status ≠ .released)
    (word : run.generations slot = generation) :
    Kept ((run.setStatus index .released).setGeneration slot (generation - 1)) := by
  have outstanding : VmBudgetClaim.outstanding ⟨slot, generation, status⟩ = true := by
    cases status with
    | released => exact absurd rfl out
    | _ => rfl
  have valid : 0 < generation.toNat ∧ generation.toNat % 2 = 0 :=
    validGeneration_iff.1 (kept.valid _ (List.mem_of_getElem? claimed))
  have marked : Kept (run.setStatus index .released) := kept.setStatus fun claim found => by
    rw [claimed] at found
    cases found
    exact outstanding
  have fallen : ∀ other, ((run.setStatus index .released).setGeneration slot
      (generation - 1)).generations other
      = if other = slot then generation - 1 else run.generations other :=
    fun other => Function.update_apply ..
  refine ⟨marked.valid, ?_, ?_, marked.apart⟩
  · intro claim member
    have := marked.reached claim member
    rw [fallen]
    split
    · next same =>
        have even := validGeneration_iff.1 (marked.valid claim member)
        rw [same] at this
        change claim.generation.toNat ≤ (run.generations slot).toNat + 1 at this
        rw [word] at this
        rw [toNat_sub_one valid.1]
        omega
    · exact this
  · intro claim member stays
    have := marked.occupied claim member stays
    rw [fallen]
    split
    · next same =>
        obtain ⟨i, found⟩ := List.mem_iff_getElem?.1 member
        obtain ⟨old, at', slot', generation', status'⟩ := getElem?_setStatus found
        rw [same] at this
        change claim.generation.toNat ≤ (run.generations slot).toNat at this
        rw [word] at this
        have other : claim.generation ≠ generation := by
          intro equal
          have apart : index ≠ i := by
            rintro rfl
            rw [if_pos rfl] at status'
            rw [VmBudgetClaim.outstanding, status'] at stays
            cases stays
          rw [if_neg apart] at status'
          rw [VmBudgetClaim.outstanding, status'] at stays
          exact apart (kept.apart claimed at' outstanding stays (equal.symm.trans generation')
            (same.symm.trans slot'))
        have less : claim.generation.toNat ≠ generation.toNat := fun equal =>
          other (UInt64.toNat_inj.1 equal)
        rw [toNat_sub_one valid.1]
        omega
    · exact this

/-! ## Every access -/

variable {thread : ι} {request : VmBudgetRequest} {pc pc' : VmBudgetPc}

/-- What an access does: it leaves the words and the claims alone but for one of these. -/
inductive BudgetMoves (thread : ι) (run : VmBudgetRun ι) :
    VmBudgetRun ι → VmBudgetPc → Prop
  | local (pc' : VmBudgetPc) (knows : pc'.Knows thread run) : BudgetMoves thread run run pc'
  | claim (slot : Fin kNativeVmDispatchSampleBudget) (generation : UInt64)
      (valid : validGeneration generation = true) (newer : run.generations slot < generation) :
      BudgetMoves thread run (run.claim slot generation) (.reserved (some slot))
  | start (index : Nat) (slot : Fin kNativeVmDispatchSampleBudget) (generation : UInt64)
      (held : run.claims[index]? = some ⟨slot, generation, .held⟩) (pc' : VmBudgetPc)
      (knows : pc'.Knows thread (run.setStatus index (.releasing thread))) :
      BudgetMoves thread run (run.setStatus index (.releasing thread)) pc'
  | release (index : Nat) (slot : Fin kNativeVmDispatchSampleBudget) (generation : UInt64)
      (own : run.claims[index]? = some ⟨slot, generation, .releasing thread⟩)
      (word : run.generations slot = generation) :
      BudgetMoves thread run
        ((run.setStatus index .released).setGeneration slot (generation - 1)) .released
  | overtaken (index : Nat) (slot : Fin kNativeVmDispatchSampleBudget) (generation : UInt64)
      (own : run.claims[index]? = some ⟨slot, generation, .releasing thread⟩)
      (word : run.generations slot ≠ generation) :
      BudgetMoves thread run (run.setStatus index .released) .released

theorem nextSlot_knows {generation : UInt64} {slot : Fin kNativeVmDispatchSampleBudget}
    (valid : validGeneration generation = true) :
    (nextSlot generation slot).Knows thread run := by
  rw [nextSlot]
  split
  · exact valid
  · trivial

theorem callBudget_moves : BudgetMoves thread run (callBudget thread run request).1
    (callBudget thread run request).2 := by
  cases request with
  | reserve generation =>
      rw [callBudget]
      split
      · next valid => exact .local _ valid
      · exact .local _ trivial
  | release index =>
      rw [callBudget]
      split
      · next slot generation held =>
          split
          · refine .start index slot generation held _ ?_
            show (run.setStatus index (.releasing thread)).claims[index]? = _
            rw [VmBudgetRun.setStatus, List.getElem?_modify, held]
            simp
          · exact .start index slot generation held _ trivial
      · exact .local _ trivial

theorem vmBudgetAccess_moves (request : VmBudgetRequest) (knows : pc.Knows thread run) :
    BudgetMoves thread run (vmBudgetAccess thread request run pc).1
      (vmBudgetAccess thread request run pc).2 := by
  cases pc with
  | idle | reserved | released => exact callBudget_moves
  | load generation slot =>
      rw [vmBudgetAccess]
      split
      · next newer => exact .local _ ⟨knows, newer⟩
      · exact .local _ (nextSlot_knows knows)
  | exchange generation slot claimed =>
      rw [vmBudgetAccess]
      split
      · next same => exact .claim slot generation knows.1 (by rw [same]; exact knows.2)
      · exact .local _ (nextSlot_knows knows.1)
  | exchangeReleased index slot generation =>
      rw [vmBudgetAccess]
      split
      · next word => exact .release index slot generation knows word
      · next word => exact .overtaken index slot generation knows word

theorem BudgetMoves.kept (moves : BudgetMoves thread run run' pc') (kept : Kept run) :
    Kept run' := by
  cases moves with
  | «local» => exact kept
  | claim slot generation valid newer => exact kept.claim valid newer
  | start index slot generation held =>
      refine kept.setStatus fun claim found => ?_
      rw [held] at found
      cases found
      rfl
  | release index slot generation own word => exact kept.release own (by simp) word
  | overtaken index slot generation own =>
      refine kept.setStatus fun claim found => ?_
      rw [own] at found
      cases found
      rfl

theorem BudgetMoves.knows (moves : BudgetMoves thread run run' pc') : pc'.Knows thread run' := by
  cases moves with
  | «local» knows => assumption
  | start index slot generation held knows => assumption
  | claim | release | overtaken => trivial

/-- Another thread's release is not this thread's. -/
theorem setStatus_other {index i : Nat} {status : ClaimStatus ι} {claim : VmBudgetClaim ι}
    {slot : Fin kNativeVmDispatchSampleBudget} {generation : UInt64} {was : ClaimStatus ι}
    (own : run.claims[index]? = some ⟨slot, generation, was⟩)
    (found : run.claims[i]? = some claim) (other : claim.status ≠ was) :
    (run.setStatus index status).claims[i]? = some claim := by
  have apart : index ≠ i := by
    rintro rfl
    rw [own] at found
    cases found
    exact other rfl
  rw [VmBudgetRun.setStatus, List.getElem?_modify, found]
  simp [apart]

theorem BudgetMoves.stable (moves : BudgetMoves thread run run' pc') {j : ι} (other : j ≠ thread)
    {k : VmBudgetPc} (knows : k.Knows j run) : k.Knows j run' := by
  cases k with
  | idle | reserved | released => trivial
  | load => exact knows
  | exchange => exact knows
  | exchangeReleased i slot generation =>
      have claims : ∀ {index : Nat} {status was} {slot' generation'},
          run.claims[index]? = some ⟨slot', generation', was⟩ → was ≠ .releasing j →
          (run.setStatus index status).claims[i]? = some ⟨slot, generation, .releasing j⟩ :=
        fun own apart => setStatus_other own knows apart.symm
      have foreign : ClaimStatus.releasing thread ≠ .releasing j := by
        intro same
        cases same
        exact other rfl
      cases moves with
      | «local» => exact knows
      | claim slot' generation' =>
          exact (List.getElem?_append_left (List.getElem?_eq_some_iff.1 knows).1).trans knows
      | start index slot' generation' held => exact claims held (by simp)
      | release index slot' generation' own => exact claims own foreign
      | overtaken index slot' generation' own => exact claims own foreign

end Invariant

/-! ## Every run -/

section Runs

variable {ι : Type} {config config' : Config (fun _ : ι => VmBudgetPc) (VmBudgetRun ι)}

theorem budgetOutline (ι : Type) : Outline (vmBudgetMachine ι).access (fun _ => True) Kept
    (fun thread run pc => pc.Knows thread run) where
  earlier := fun _ alive => alive
  keeps := by
    rintro i m l m' l' ⟨request, moved⟩ - kept knows
    have moves := vmBudgetAccess_moves request knows
    rw [show vmBudgetAccess i request m l = (m', l') from moved] at moves
    exact moves.kept kept
  reaches := by
    rintro i m l m' l' ⟨request, moved⟩ - kept knows
    have moves := vmBudgetAccess_moves request knows
    rw [show vmBudgetAccess i request m l = (m', l') from moved] at moves
    exact moves.knows
  stable := by
    rintro i m l m' l' j k ⟨request, moved⟩ - kept knows other knows'
    have moves := vmBudgetAccess_moves request knows
    rw [show vmBudgetAccess i request m l = (m', l') from moved] at moves
    exact moves.stable other knows'

theorem reachable_kept
    (run : Reachable (vmBudgetMachine ι).access (unclaimed ι) config) :
    Outline.Holds Kept (fun thread run pc => VmBudgetPc.Knows thread run pc) config := by
  refine (budgetOutline ι).reachable run trivial ⟨⟨?_, ?_, ?_, ?_⟩, fun _ => trivial⟩
  · exact fun claim member => absurd member List.not_mem_nil
  · exact fun claim member => absurd member List.not_mem_nil
  · exact fun claim member => absurd member List.not_mem_nil
  · intro i j c d found
    cases found

namespace VmBudgetRun

/-- The slots of the outstanding claims of a generation. -/
def outstandingOf (run : VmBudgetRun ι) (generation : UInt64) :
    List (Fin kNativeVmDispatchSampleBudget) :=
  (run.claims.filter fun claim => claim.outstanding && claim.generation == generation).map (·.slot)

/-- The claim is outstanding, and no newer generation has taken its slot. -/
def Holds (run : VmBudgetRun ι) (index : Nat) : Prop :=
  ∃ claim, run.claims[index]? = some claim ∧ claim.outstanding = true
    ∧ run.generations claim.slot = claim.generation

end VmBudgetRun

theorem Kept.outstandingOf_nodup {run : VmBudgetRun ι} (kept : Kept run) (generation : UInt64) :
    (run.outstandingOf generation).Nodup := by
  have apart : run.claims.Pairwise fun c d => c.outstanding = true → d.outstanding = true →
      c.generation = d.generation → c.slot ≠ d.slot := by
    rw [List.pairwise_iff_getElem]
    intro i j hi hj less outC outD same at'
    have equal := kept.apart (List.getElem?_eq_getElem hi) (List.getElem?_eq_getElem hj) outC outD
      same at'
    omega
  rw [VmBudgetRun.outstandingOf, List.Nodup, List.pairwise_map, List.pairwise_filter]
  refine apart.imp fun {c d} apart inC inD => ?_
  rw [Bool.and_eq_true, beq_iff_eq] at inC inD
  exact apart inC.1 inD.1 (inC.2.trans inD.2.symm)

/-- A release frees its own slot or none. -/
theorem Kept.release_holds {run : VmBudgetRun ι} (kept : Kept run) {thread : ι}
    {request : VmBudgetRequest} {index : Nat} {slot : Fin kNativeVmDispatchSampleBudget}
    {generation : UInt64} (own : run.claims[index]? = some ⟨slot, generation, .releasing thread⟩)
    {other : Nat} (apart : other ≠ index) (holds : run.Holds other) :
    (vmBudgetAccess thread request run (.exchangeReleased index slot generation)).1.Holds other := by
  obtain ⟨claim, found, out, word⟩ := holds
  have stays : (run.setStatus index .released).claims[other]? = some claim := by
    rw [VmBudgetRun.setStatus, List.getElem?_modify, found]
    simp [Ne.symm apart]
  rw [vmBudgetAccess]
  split
  · next same =>
      have elsewhere : claim.slot ≠ slot := by
        intro at'
        refine apart (kept.apart found own out rfl ?_ at')
        rw [← word, at', same]
      refine ⟨claim, stays, out, ?_⟩
      exact (Function.update_of_ne elsewhere _ _).trans word
  · exact ⟨claim, stays, out, word⟩

/-- A claim is made on no slot that a newer generation has claimed. -/
theorem BudgetMoves.newest {run run' : VmBudgetRun ι} {thread : ι} {pc' : VmBudgetPc}
    (moves : BudgetMoves thread run run' pc') (kept : Kept run) {claim earlier : VmBudgetClaim ι}
    (longer : run'.claims = run.claims ++ [claim]) (member : earlier ∈ run.claims)
    (same : earlier.slot = claim.slot) : earlier.generation ≤ claim.generation := by
  have unchanged : run'.claims.length ≠ run.claims.length := by
    rw [longer]
    simp
  cases moves with
  | «local» => exact absurd rfl unchanged
  | start | release | overtaken => exact absurd (List.length_modify ..) unchanged
  | claim slot generation valid newer =>
      have made : claim = ⟨slot, generation, .held⟩ :=
        (List.cons.inj (List.append_cancel_left longer)).1.symm
      subst made
      have reached := kept.reached earlier member
      have grows := UInt64.lt_iff_toNat_lt.1 newer
      rw [same] at reached
      change earlier.generation.toNat ≤ (run.generations slot).toNat + 1 at reached
      rw [UInt64.le_iff_toNat_le]
      show earlier.generation.toNat ≤ generation.toNat
      omega

/-- In every interleaving of any number of threads: the outstanding claims of a generation are
on distinct slots, so there are never more than the slots; the exchange of a release leaves
every other claim the slot it holds; and a claim is only made on a slot that no newer
generation has claimed before. -/
theorem budget_exclusive (run : Reachable (vmBudgetMachine ι).access (unclaimed ι) config) :
    (∀ generation, (config.memory.outstandingOf generation).Nodup
        ∧ (config.memory.outstandingOf generation).length ≤ kNativeVmDispatchSampleBudget)
      ∧ (∀ thread request index slot generation,
        config.locals thread = .exchangeReleased index slot generation →
        ∀ other ≠ index, config.memory.Holds other →
          (vmBudgetMachine ι thread request config.memory (config.locals thread)).1.Holds other)
      ∧ ∀ config', Step (vmBudgetMachine ι).access config config' →
        ∀ claim, config'.memory.claims = config.memory.claims ++ [claim] →
          ∀ earlier ∈ config.memory.claims, earlier.slot = claim.slot →
            earlier.generation ≤ claim.generation := by
  obtain ⟨kept, knows⟩ := reachable_kept run
  refine ⟨fun generation => ⟨kept.outstandingOf_nodup generation, ?_⟩, ?_, ?_⟩
  · have distinct := kept.outstandingOf_nodup generation
    rw [← List.toFinset_card_of_nodup distinct]
    exact (Finset.card_le_univ _).trans (by rw [Fintype.card_fin])
  · intro thread request index slot generation stands other apart holds
    have own := knows thread
    rw [stands] at own ⊢
    exact kept.release_holds own apart holds
  · rintro config' ⟨thread, ⟨request, moved⟩, -⟩ claim longer earlier member same
    have moves := vmBudgetAccess_moves request (knows thread)
    rw [show vmBudgetAccess thread request config.memory (config.locals thread)
      = (config'.memory, config'.locals thread) from moved] at moves
    exact moves.newest kept longer member same

/-- Two threads race for the first slot; the one that loses takes the second. -/
def racingReservations : List (Bool × VmBudgetRequest) :=
  [false, true, false, true, false, true, true, true].map fun thread => (thread, .reserve 2)

theorem budget_exclusive_race :
    let memory := (racingReservations.foldl (vmBudgetMachine Bool).perform (unclaimed Bool)).memory
    memory.outstandingOf 2 = [⟨0, by decide⟩, ⟨1, by decide⟩]
      ∧ (memory.outstandingOf 2).Nodup
      ∧ (memory.outstandingOf 2).length ≤ kNativeVmDispatchSampleBudget :=
  ⟨by decide +kernel,
    (budget_exclusive ((vmBudgetMachine Bool).schedule_reachable _ racingReservations)).1 2⟩

end Runs

end Reb.Probe
