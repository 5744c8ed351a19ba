/-
# Worker.ObservationSteps -- every access keeps the outline

One lemma for each program point that does something: the accounts stay sound, the
thread knows what it needs at its next access, and it touched only what it holds.
-/
import Reb.Worker.ObservationOutline

namespace Reb.Worker

set_option autoImplicit false

open Theory.Interleaving

variable {ι : Type} {i : ι} {memory memory' : QueueMemory ι} {pc pc' : QueuePc}

structure Keeps (i : ι) (memory : QueueMemory ι) (moved : QueueMemory ι × QueuePc) : Prop where
  kept : moved.1.Kept
  asserts : Asserts i moved.1 moved.2
  touches : Touches i memory moved.1

/-- The accounts and the words stay, and no generation becomes active. -/
theorem QueueMemory.Kept.along (kept : memory.Kept) (guarded : memory'.guarded = memory.guarded)
    (words : memory'.sessionId = memory.sessionId ∧ memory'.workerHigh = memory.workerHigh ∧
      memory'.workerLow = memory.workerLow)
    (readable : memory'.readableGeneration = memory.readableGeneration)
    (active : memory'.activeGeneration = memory.activeGeneration ∨ memory'.activeGeneration = 0) :
    memory'.Kept := by
  obtain ⟨sessionId, high, low⟩ := words
  refine ⟨guarded ▸ kept.sound, fun now => ?_, ?_⟩
  · have same := active.resolve_right now
    obtain ⟨generation, equal, published, carried⟩ := kept.active (same ▸ now)
    refine ⟨?_, ?_, ⟨?_, ?_, ?_⟩, guarded ▸ carried⟩
    · rw [same, guarded, generation]
    · rw [readable, same, equal]
    · rw [sessionId, guarded, published.sessionId]
    · rw [high, guarded, published.workerHigh]
    · rw [low, guarded, published.workerLow]
  · rw [readable, guarded]
    exact kept.readable

/-- With neither generation there is nothing but the accounts. -/
theorem QueueMemory.Kept.withdrawn (sound : memory.guarded.Sound)
    (active : memory.activeGeneration = 0) (readable : memory.readableGeneration = 0) :
    memory.Kept :=
  ⟨sound, fun now => absurd active now, fun now => absurd readable now⟩

/-- The accounts move on under the policy in force. -/
theorem QueueMemory.Kept.accounts {guarded : Guarded} (kept : memory.Kept) (sound : guarded.Sound)
    (policy : guarded.policy = memory.guarded.policy)
    (carried : memory.activeGeneration ≠ 0 → guarded.Carried)
    (readable : memory.readableGeneration ≠ 0 → guarded.Readable) :
    (memory.setGuarded guarded).Kept := by
  refine ⟨sound, fun now => ?_, fun now => ⟨?_, readable now⟩⟩
  · obtain ⟨generation, equal, published, -⟩ := kept.active now
    refine ⟨?_, equal, ⟨?_, ?_, ?_⟩, carried now⟩
    · exact generation.trans (congrArg _ policy.symm)
    · exact published.sessionId.trans (congrArg _ policy.symm)
    · exact published.workerHigh.trans (congrArg (·.worker.high) policy.symm)
    · exact published.workerLow.trans (congrArg (·.worker.low) policy.symm)
  · exact (kept.readable now).1.trans (congrArg _ policy.symm)

theorem QueueMemory.Kept.carried (kept : memory.Kept) (active : memory.activeGeneration ≠ 0) :
    memory.guarded.Carried :=
  (kept.active active).carried

theorem QueueMemory.Kept.linked (kept : memory.Kept) (readable : memory.readableGeneration ≠ 0) :
    memory.guarded.Readable :=
  (kept.readable readable).2

/-- The memory stays, or nothing of it that matters here changes. -/
theorem Keeps.stays (kept : memory.Kept) (asserts : Asserts i memory pc)
    (inside : pc'.inSection ↔ pc.inSection) (control : pc'.inControl ↔ pc.inControl)
    (knows : memory.Knows pc') : Keeps i memory (memory, pc') :=
  ⟨kept, asserts.along rfl rfl inside control knows, {}⟩

/-- The accounts move on inside the section, and no generation is published. -/
theorem Keeps.accounts {guarded : Guarded} (asserts : Asserts i memory pc) (inside : pc.inSection)
    (uncontrolled : pc'.inControl ↔ pc.inControl) (inside' : pc'.inSection)
    (kept : (memory.setGuarded guarded).Kept)
    (policy : guarded.policy = memory.guarded.policy)
    (greatest : guarded.greatestGeneration = memory.guarded.greatestGeneration)
    (knows : (memory.setGuarded guarded).Knows pc') :
    Keeps i memory (memory.setGuarded guarded, pc') where
  kept := kept
  asserts := asserts.along rfl rfl (iff_of_true inside' inside) uncontrolled knows
  touches :=
    { guarded := .inr (asserts.locked inside)
      policy := .inl policy
      greatest := greatest.ge
      published := fun same published =>
        ⟨published.1.trans (congrArg _ same.symm), published.2.trans (congrArg (·.worker.high) same.symm),
          published.3.trans (congrArg (·.worker.low) same.symm)⟩ }

/-! ## The mutex -/

/-- The mutex is taken and the accounts are left alone. -/
theorem Keeps.locks (kept : memory.Kept) (asserts : Asserts i memory pc) (free : memory.locked = none)
    (inside : pc'.inSection) (control : pc'.inControl ↔ pc.inControl)
    (knows : ({ memory with locked := some i } : QueueMemory ι).Knows pc') :
    Keeps i memory ({ memory with locked := some i }, pc') where
  kept := kept.along rfl ⟨rfl, rfl, rfl⟩ rfl (.inl rfl)
  asserts :=
    { mutex := iff_of_true inside rfl
      control := fun now => asserts.control (control.1 now)
      idle := fun out => asserts.idle (fun was => out (control.2 was))
      knows := knows }
  touches := { locked := .inr (.inl ⟨free, rfl⟩) }

theorem Keeps.unlock (kept : memory.Kept) (asserts : Asserts i memory pc) (inside : pc.inSection)
    (uncontrolled : ¬ pc.inControl) (result : QueueResult) :
    Keeps i memory ({ memory with locked := none }, .returned result) where
  kept := kept.along rfl ⟨rfl, rfl, rfl⟩ rfl (.inl rfl)
  asserts :=
    { mutex := iff_of_false id (Option.some_ne_none i).symm
      control := False.elim
      idle := fun _ => asserts.idle uncontrolled
      knows := trivial }
  touches := { locked := .inr (.inr ⟨asserts.locked inside, rfl⟩) }

theorem Keeps.tryLock {held contended : QueuePc} (fails : Bool) (kept : memory.Kept)
    (asserts : Asserts i memory pc) (outside : ¬ pc.inSection) (uncontrolled : ¬ pc.inControl)
    (inside : held.inSection) (calm : ¬ held.inControl ∧ ¬ contended.inControl)
    (knows : ∀ memory : QueueMemory ι, memory.Knows held ∧ memory.Knows contended)
    (stays : ¬ contended.inSection) :
    Keeps i memory (tryLock i fails memory held contended) := by
  rw [Worker.tryLock]
  split
  case isTrue =>
    exact .stays kept asserts (iff_of_false stays outside) (iff_of_false calm.2 uncontrolled)
      (knows memory).2
  case isFalse free =>
    simp only [Bool.or_eq_true, not_or, Option.isSome_iff_ne_none, not_not] at free
    exact .locks kept asserts free.1 inside (iff_of_false calm.1 uncontrolled) (knows _).1

-- A held mutex stays with its holder.
example : (tryLock true false ({ locked := some false } : QueueMemory Bool) .expireActive .contend).1.locked
    = some false := by decide +kernel

/-! ## Expiry -/

theorem Keeps.expireActive (kept : memory.Kept) (asserts : Asserts i memory .expireActive) :
    Keeps i memory ({ memory with activeGeneration := 0 }, .expireReadable) where
  kept := kept.along rfl ⟨rfl, rfl, rfl⟩ rfl (.inr rfl)
  asserts := asserts.along rfl rfl Iff.rfl Iff.rfl rfl
  touches := { active := .inr (.inl rfl) }

theorem Keeps.expireReadable (kept : memory.Kept) (asserts : Asserts i memory .expireReadable) :
    Keeps i memory
      ({ memory with readableGeneration := 0, guarded := memory.guarded.clearLocked },
        .unlock { status := .expired }) where
  kept := .withdrawn kept.sound.clearLocked asserts.knows rfl
  asserts := asserts.along rfl rfl Iff.rfl Iff.rfl (.inl rfl)
  touches :=
    { guarded := .inr (asserts.locked trivial)
      readable := .inr (.inl ⟨rfl, .inl (asserts.locked trivial)⟩) }

example : (queueAccess true {} ({ activeGeneration := 3 } : QueueMemory Bool) .expireActive).1.activeGeneration
    = 0 := by decide +kernel

/-! ## Begin and Capture -/

theorem Keeps.beginSection {generation : Nat} {worker creator : NativeWorkerToken}
    {creatorKind : NativeWorkerCreatorKind} {nowNs : Nat} (kept : memory.Kept)
    (asserts : Asserts i memory (.beginCheck generation worker creator creatorKind nowNs)) :
    Keeps i memory (beginSection generation worker creator creatorKind nowNs memory) := by
  rw [Worker.beginSection]
  split
  · exact .accounts asserts trivial Iff.rfl trivial
      (kept.accounts kept.sound.countStale rfl kept.carried kept.linked) rfl rfl (.inl rfl)
  · split
    · exact .stays kept asserts Iff.rfl Iff.rfl trivial
    · split
      · exact .stays kept asserts Iff.rfl Iff.rfl (.inl rfl)
      · exact .stays kept asserts Iff.rfl Iff.rfl (.inl rfl)

variable {ticket : NativeWorkerCaptureTicket} {input : NativeWorkerObservationInput} {nowNs : Nat}

/-- A record that is dropped counts as an attempt and widens the gap. -/
theorem QueueMemory.Kept.drop (kept : memory.Kept) (room : memory.guarded.attempted ≠ uint64Max) :
    (memory.setGuarded memory.guarded.attempt.dropLocked).Kept :=
  kept.accounts (kept.sound.attempt room).dropLocked rfl
    (fun active => (kept.carried active).attempt_dropLocked room kept.sound.attempts.2) kept.linked

theorem Keeps.captureSection (kept : memory.Kept)
    (asserts : Asserts i memory (.captureCheck ticket input nowNs)) :
    Keeps i memory (captureSection ticket input nowNs memory) := by
  rw [Worker.captureSection]
  split
  case isTrue =>
    exact .accounts asserts trivial Iff.rfl trivial
      (kept.accounts kept.sound.countStale rfl kept.carried kept.linked) rfl rfl (.inl rfl)
  case isFalse names =>
  simp only [Bool.or_eq_true, bne_iff_ne, not_or, not_not] at names
  split
  · exact .stays kept asserts Iff.rfl Iff.rfl trivial
  next unexpired =>
  split
  · exact .stays kept asserts Iff.rfl Iff.rfl trivial
  next room =>
  have room : memory.guarded.attempted ≠ uint64Max := fun same => room (beq_iff_eq.2 same)
  split
  · exact .accounts asserts trivial Iff.rfl trivial (kept.drop room) rfl rfl (.inl rfl)
  next accepts =>
  split
  · exact .accounts asserts trivial Iff.rfl trivial (kept.drop room) rfl rfl (.inl rfl)
  next space =>
    exact .stays kept asserts Iff.rfl Iff.rfl
      ⟨⟨names.1.1.1.symm, names.1.1.2.symm, names.1.2.symm⟩, Nat.lt_of_not_le unexpired, room,
        Bool.not_eq_true _ ▸ accepts, fun full => space (beq_iff_eq.2 full)⟩

theorem Keeps.captureExhausted (kept : memory.Kept) (asserts : Asserts i memory .captureExhausted) :
    Keeps i memory
      ({ memory with activeGeneration := 0, guarded := memory.guarded.dropLocked },
        .unlock { status := .full }) where
  kept := ⟨kept.sound.dropLocked, fun now => absurd rfl now, kept.readable⟩
  asserts := asserts.along rfl rfl Iff.rfl Iff.rfl (.inl rfl)
  touches :=
    { guarded := .inr (asserts.locked trivial)
      active := .inr (.inl rfl) }

/-- The record is made while its generation is active, or it is dropped. -/
theorem Keeps.captureCommit (kept : memory.Kept)
    (asserts : Asserts i memory (.captureCommit ticket input nowNs)) :
    Keeps i memory (captureCommit ticket input nowNs memory) := by
  have admits : memory.guarded.Admits ticket input nowNs := asserts.knows
  rw [Worker.captureCommit]
  split
  case isTrue stale =>
    refine .accounts asserts trivial Iff.rfl trivial ?_ rfl rfl (.inl rfl)
    refine kept.accounts (kept.sound.attempt admits.room).countStale.dropLocked rfl
      (fun active => ?_) kept.linked
    refine absurd ((kept.active active).generation.trans admits.names.generation) ?_
    exact bne_iff_ne.1 stale
  case isFalse current =>
    have active : memory.activeGeneration ≠ 0 := by
      simp only [bne_iff_ne, not_not] at current
      rw [current, ← admits.names.generation]
      exact validPolicy_generation (kept.sound.unexpired admits.unexpired)
    refine .accounts asserts trivial Iff.rfl trivial ?_ rfl rfl (.inl rfl)
    exact kept.accounts (kept.sound.accept admits) rfl (fun _ => Guarded.carried_accept)
      (fun readable => (kept.linked readable).accept (kept.carried active))

-- A capture of a generation that is no longer active is dropped.
example : (captureCommit ⟨1, 2, ⟨3, 4⟩⟩ {} 5 ({} : QueueMemory Bool)).1.guarded.dropped = 1 := by decide +kernel

/-! ## Take -/

theorem Keeps.takeSection (kept : memory.Kept) (asserts : Asserts i memory (.takeCheck nowNs)) :
    Keeps i memory (takeSection nowNs memory) := by
  rw [Worker.takeSection]
  split
  · exact .stays kept asserts Iff.rfl Iff.rfl (.inl rfl)
  · split
    · exact .stays kept asserts Iff.rfl Iff.rfl trivial
    next unexpired =>
    split
    · exact .stays kept asserts Iff.rfl Iff.rfl (.inl rfl)
    · exact .stays kept asserts Iff.rfl Iff.rfl (Nat.lt_of_not_le unexpired)

/-- A record is returned while its generation is readable, or it is retired. -/
theorem Keeps.takeCommit (kept : memory.Kept) (asserts : Asserts i memory (.takeCommit nowNs)) :
    Keeps i memory (takeCommit nowNs memory) := by
  rw [Worker.takeCommit]
  split
  case h_1 => exact .stays kept asserts Iff.rfl Iff.rfl (.inl rfl)
  case h_2 record rest front =>
    have mine := kept.sound.queued record (front ▸ List.mem_cons_self)
    have generation : memory.guarded.policy.generation ≠ 0 := validPolicy_generation mine.authorized
    split
    case isTrue stale =>
      have unreadable : memory.readableGeneration = 0 := by
        by_contra readable
        exact bne_iff_ne.1 stale ((kept.readable readable).1.trans mine.generation.symm)
      have inactive : memory.activeGeneration = 0 := by
        by_contra active
        exact active ((kept.active active).readable.symm.trans unreadable)
      exact .accounts asserts trivial Iff.rfl trivial
        (.withdrawn (kept.sound.discard front) inactive unreadable) rfl rfl (.inl rfl)
    case isFalse current =>
      simp only [bne_iff_ne, not_not] at current
      have readable : memory.readableGeneration ≠ 0 := by
        rw [current, mine.generation]
        exact generation
      have same := Guarded.current_take nowNs kept.sound front
      refine .accounts asserts trivial Iff.rfl trivial ?_ rfl rfl
        (.inr (mine.generation.trans kept.sound.greatest))
      refine kept.accounts (kept.sound.take (kept.linked readable) front asserts.knows) rfl
        (fun active => ?_) (fun _ => ?_)
      · rw [Guarded.Carried, same]
        exact kept.carried active
      · rw [Guarded.Readable, same]
        exact kept.linked readable

-- An empty ring gives nothing.
example : (takeCommit 5 ({} : QueueMemory Bool)).1.guarded.taken.length = 0 := by decide +kernel

/-! ## Configure and Disable -/

variable {policy : NativeWorkerObservationPolicy}

/-- The first access of a control operation: no other is under way. -/
theorem Keeps.begins (kept : memory.Kept) (asserts : Asserts i memory pc)
    (alone : memory.controllers = []) (outside : ¬ pc.inSection) (stays : ¬ pc'.inSection)
    (control : pc'.inControl)
    (knows : ({ memory with activeGeneration := 0, controllers := i :: memory.controllers } :
      QueueMemory ι).Knows pc') :
    Keeps i memory
      ({ memory with activeGeneration := 0, controllers := i :: memory.controllers }, pc') where
  kept := kept.along rfl ⟨rfl, rfl, rfl⟩ rfl (.inr rfl)
  asserts :=
    { mutex := (iff_of_false stays outside).trans asserts.mutex
      control := fun _ => congrArg (i :: ·) alone
      idle := fun out => absurd control out
      knows := knows }
  touches :=
    { active := .inr (.inl rfl)
      controllers := .inr (.inl ⟨alone, congrArg (i :: ·) alone⟩) }

/-- The second access: with `readable_generation_` nothing is left to take. -/
theorem Keeps.hides (kept : memory.Kept) (asserts : Asserts i memory pc)
    (inactive : memory.activeGeneration = 0) (inside : pc'.inSection ↔ pc.inSection)
    (control : pc'.inControl ↔ pc.inControl) (controlled : pc.inControl)
    (knows : ({ memory with readableGeneration := 0 } : QueueMemory ι).Knows pc') :
    Keeps i memory ({ memory with readableGeneration := 0 }, pc') where
  kept := .withdrawn kept.sound inactive rfl
  asserts := asserts.along rfl rfl inside control knows
  touches := { readable := .inr (.inl ⟨rfl, .inr (asserts.control controlled)⟩) }

/-- The section of a control operation begins with both generations withdrawn. -/
theorem Keeps.takesOver {guarded : Guarded} (asserts : Asserts i memory pc)
    (withdrawn : memory.activeGeneration = 0 ∧ memory.readableGeneration = 0)
    (free : memory.locked = none) (controlled : pc.inControl) (inside : pc'.inSection)
    (control : pc'.inControl) (sound : guarded.Sound)
    (newer : guarded.policy = memory.guarded.policy ∧
        guarded.greatestGeneration = memory.guarded.greatestGeneration ∨
      memory.guarded.greatestGeneration < guarded.policy.generation)
    (knows : ({ memory with locked := some i, guarded } : QueueMemory ι).Knows pc') :
    Keeps i memory ({ memory with locked := some i, guarded }, pc') where
  kept := .withdrawn sound withdrawn.1 withdrawn.2
  asserts :=
    { mutex := iff_of_true inside rfl
      control := fun _ => asserts.control controlled
      idle := fun out => absurd control out
      knows := knows }
  touches :=
    { locked := .inr (.inl ⟨free, rfl⟩)
      guarded := .inr rfl
      policy := newer.imp_left And.left
      greatest := newer.elim (fun same => same.2.ge) (fun newer => newer.le.trans sound.greatest.le)
      published := fun same published =>
        ⟨published.1.trans (congrArg _ same.symm), published.2.trans (congrArg (·.worker.high) same.symm),
          published.3.trans (congrArg (·.worker.low) same.symm)⟩ }

theorem Keeps.configureSection (kept : memory.Kept)
    (asserts : Asserts i memory (.configureLock policy nowNs)) (free : memory.locked = none) :
    Keeps i memory (configureSection i policy nowNs memory) := by
  rw [Worker.configureSection]
  split
  case isTrue =>
    exact .takesOver asserts asserts.knows free trivial trivial trivial kept.sound.clearLocked
      (.inl ⟨rfl, rfl⟩) trivial
  case isFalse accepted =>
    simp only [Bool.or_eq_true, not_or, Bool.not_eq_true', Bool.not_eq_false, decide_eq_true_eq,
      Nat.not_le] at accepted
    obtain ⟨⟨valid, newer⟩, -⟩ := accepted
    exact .takesOver asserts asserts.knows free trivial trivial trivial
      (kept.sound.configure valid newer) (.inr newer)
      ⟨⟨asserts.knows.1, kept.sound.fresh newer⟩, asserts.knows.2⟩

/-- A word of the identity is written while nothing is published. -/
theorem Keeps.identifies (kept : memory.Kept) (asserts : Asserts i memory pc)
    (withdrawn : memory.activeGeneration = 0 ∧ memory.readableGeneration = 0)
    (inside : pc'.inSection ↔ pc.inSection) (control : pc'.inControl ↔ pc.inControl)
    (controlled : pc.inControl)
    (guarded : memory'.guarded = memory.guarded) (locked : memory'.locked = memory.locked)
    (controllers : memory'.controllers = memory.controllers)
    (generations : memory'.activeGeneration = memory.activeGeneration ∧
      memory'.readableGeneration = memory.readableGeneration)
    (published : memory.Published → memory'.Published)
    (knows : memory'.Knows pc') : Keeps i memory (memory', pc') where
  kept := .withdrawn (guarded ▸ kept.sound) (generations.1.trans withdrawn.1)
    (generations.2.trans withdrawn.2)
  asserts := asserts.along locked controllers inside control knows
  touches :=
    { locked := .inl locked
      guarded := .inl guarded
      controllers := .inl controllers
      active := .inl generations.1
      readable := .inl generations.2
      words := .inr (asserts.control controlled)
      policy := .inl (congrArg _ guarded)
      greatest := (congrArg (·.greatestGeneration) guarded).ge
      published := fun _ => published }

theorem Keeps.configureSession (kept : memory.Kept)
    (asserts : Asserts i memory (.configureSession policy)) :
    Keeps i memory ({ memory with sessionId := policy.sessionId }, .configureWorkerHigh policy) := by
  obtain ⟨configuring, unreadable⟩ := asserts.knows
  exact .identifies kept asserts ⟨configuring.inactive, unreadable⟩ Iff.rfl Iff.rfl trivial rfl rfl
    rfl ⟨rfl, rfl⟩
    (fun published => ⟨congrArg (·.sessionId) configuring.fresh.inForce.symm, published.2, published.3⟩)
    ⟨⟨configuring.inactive, configuring.fresh⟩, unreadable, rfl⟩

theorem Keeps.configureWorkerHigh (kept : memory.Kept)
    (asserts : Asserts i memory (.configureWorkerHigh policy)) :
    Keeps i memory ({ memory with workerHigh := policy.worker.high }, .configureWorkerLow policy) := by
  obtain ⟨configuring, unreadable, session⟩ := asserts.knows
  exact .identifies kept asserts ⟨configuring.inactive, unreadable⟩ Iff.rfl Iff.rfl trivial rfl rfl
    rfl ⟨rfl, rfl⟩
    (fun published =>
      ⟨published.1, congrArg (·.worker.high) configuring.fresh.inForce.symm, published.3⟩)
    ⟨⟨configuring.inactive, configuring.fresh⟩, unreadable, session, rfl⟩

theorem Keeps.configureWorkerLow (kept : memory.Kept)
    (asserts : Asserts i memory (.configureWorkerLow policy)) :
    Keeps i memory ({ memory with workerLow := policy.worker.low }, .publishReadable policy) := by
  obtain ⟨configuring, unreadable, session, high⟩ := asserts.knows
  have same := configuring.fresh.inForce.symm
  exact .identifies kept asserts ⟨configuring.inactive, unreadable⟩ Iff.rfl Iff.rfl trivial rfl rfl
    rfl ⟨rfl, rfl⟩
    (fun published => ⟨published.1, published.2, congrArg (·.worker.low) same⟩)
    ⟨⟨configuring.inactive, configuring.fresh⟩, unreadable, session.trans (congrArg _ same),
      high.trans (congrArg (·.worker.high) same), congrArg (·.worker.low) same⟩

theorem Keeps.publishReadable (kept : memory.Kept)
    (asserts : Asserts i memory (.publishReadable policy)) :
    Keeps i memory
      ({ memory with readableGeneration := policy.generation }, .publishActive policy) := by
  obtain ⟨configuring, -, published⟩ := asserts.knows
  refine ⟨⟨kept.sound, fun now => absurd configuring.inactive now, fun _ => ?_⟩, asserts.along rfl rfl Iff.rfl Iff.rfl
    ⟨⟨configuring.inactive, configuring.fresh⟩, rfl, published.1, published.2, published.3⟩,
    { readable := .inr (.inr ⟨asserts.locked trivial, asserts.control trivial⟩) }⟩
  exact ⟨congrArg (·.generation) configuring.fresh.inForce.symm, configuring.fresh.readable⟩

theorem Keeps.publishActive (kept : memory.Kept)
    (asserts : Asserts i memory (.publishActive policy)) :
    Keeps i memory
      ({ memory with activeGeneration := policy.generation }, .unlockControl {}) := by
  obtain ⟨configuring, readable, published⟩ := asserts.knows
  refine ⟨⟨kept.sound, fun _ => ?_, kept.readable⟩, asserts.along rfl rfl Iff.rfl Iff.rfl trivial,
    { active := .inr (.inr ⟨asserts.locked trivial, asserts.control trivial⟩) }⟩
  exact ⟨congrArg (·.generation) configuring.fresh.inForce.symm, readable,
    ⟨published.1, published.2, published.3⟩, configuring.fresh.carried⟩

theorem Keeps.unlockControl [DecidableEq ι] (kept : memory.Kept) (result : QueueResult)
    (asserts : Asserts i memory (.unlockControl result)) :
    Keeps i memory
      ({ memory with locked := none, controllers := memory.controllers.erase i },
        .returned result) := by
  have control : memory.controllers = [i] := asserts.control trivial
  have left : memory.controllers.erase i = [] := by
    rw [control]
    exact List.erase_cons_head i []
  refine ⟨kept.along rfl ⟨rfl, rfl, rfl⟩ rfl (.inl rfl), ⟨?_, False.elim, fun _ => ?_, trivial⟩,
    { locked := .inr (.inr ⟨asserts.locked trivial, rfl⟩)
      controllers := .inr (.inr ⟨control, left⟩) }⟩
  · exact iff_of_false id (Option.some_ne_none i).symm
  · show i ∉ memory.controllers.erase i
    rw [left]
    exact List.not_mem_nil

-- Disabling ends the generation before the mutex is asked for.
example : (queueAccess true {} ({ activeGeneration := 3 } : QueueMemory Bool) .disableActive).1.controllers
    = [true] := by decide +kernel

/-! ## Retire -/

/-- A comparison of `Retire` that fails ends it, and one that holds goes on. -/
theorem Keeps.compares (differs : Bool) (kept : memory.Kept) (asserts : Asserts i memory pc)
    (outside : ¬ pc.inSection) (uncontrolled : ¬ pc.inControl)
    (stays : ¬ pc'.inSection) (calm : ¬ pc'.inControl)
    (knows : differs = false → memory.Knows pc') :
    Keeps i memory (if differs then (memory, .returned {}) else (memory, pc')) := by
  cases differs with
  | true => exact .stays kept asserts (iff_of_false id outside) (iff_of_false id uncontrolled) trivial
  | false =>
      exact .stays kept asserts (iff_of_false stays outside) (iff_of_false calm uncontrolled)
        (knows rfl)

theorem QueueMemory.Kept.seen (kept : memory.Kept) (active : memory.activeGeneration ≠ 0)
    (same : memory.activeGeneration = ticket.generation) : memory.Seen ticket := by
  obtain ⟨generation, -, published, -⟩ := kept.active active
  exact ⟨same ▸ generation.trans_le kept.sound.greatest.le, fun _ => published⟩

/-- The exchange finds the generation of the ticket: every word it compared was its own. -/
theorem Asserts.retires (kept : memory.Kept) (asserts : Asserts i memory (.retireExchange ticket))
    (active : memory.activeGeneration ≠ 0) (same : memory.activeGeneration = ticket.generation) :
    Guarded.Names memory.guarded.policy ticket :=
  asserts.knows.2 ((kept.active active).generation.symm.trans same)

theorem Keeps.retireExchange (kept : memory.Kept)
    (asserts : Asserts i memory (.retireExchange ticket)) :
    Keeps i memory
      (if memory.activeGeneration == ticket.generation then
        ({ memory with activeGeneration := 0 }, .returned {})
      else (memory, .returned {})) := by
  split
  · exact ⟨kept.along rfl ⟨rfl, rfl, rfl⟩ rfl (.inr rfl),
      asserts.along rfl rfl Iff.rfl Iff.rfl trivial, { active := .inr (.inl rfl) }⟩
  · exact .stays kept asserts Iff.rfl Iff.rfl trivial

/-! ## All accesses -/

/-- A call begins with nothing held and nothing known. -/
theorem QueueCall.start_outside (call : QueueCall) (nowNs : Nat) :
    ¬ (call.start nowNs).inSection ∧ ¬ (call.start nowNs).inControl ∧
      ∀ memory : QueueMemory ι, memory.Knows (call.start nowNs) := by
  cases call <;> exact ⟨id, id, fun _ => trivial⟩

theorem queueAccess_keeps [DecidableEq ι] (choice : QueueChoice) (kept : memory.Kept)
    (asserts : Asserts i memory pc) (serial : serialized i memory pc) :
    Keeps i memory (queueAccess i choice memory pc) := by
  cases pc with
  | idle | returned =>
      refine ⟨kept.along rfl ⟨rfl, rfl, rfl⟩ rfl (.inl rfl), ?_, {}⟩
      obtain ⟨outside, uncontrolled, knows⟩ :=
        choice.call.start_outside (ι := ι) (memory.clock + choice.elapsed)
      exact asserts.along rfl rfl (iff_of_false outside id) (iff_of_false uncontrolled id) (knows _)
  | configureActive policy nowNs =>
      exact .begins kept asserts (serial rfl) id id trivial rfl
  | configureReadable policy nowNs =>
      exact .hides kept asserts asserts.knows Iff.rfl Iff.rfl trivial ⟨asserts.knows, rfl⟩
  | configureLock policy nowNs =>
      rw [queueAccess]
      split
      case isTrue => exact .stays kept asserts Iff.rfl Iff.rfl asserts.knows
      case isFalse free => exact .configureSection kept asserts (by simpa using free)
  | configureSession policy => exact .configureSession kept asserts
  | configureWorkerHigh policy => exact .configureWorkerHigh kept asserts
  | configureWorkerLow policy => exact .configureWorkerLow kept asserts
  | publishReadable policy => exact .publishReadable kept asserts
  | publishActive policy => exact .publishActive kept asserts
  | disableActive => exact .begins kept asserts (serial rfl) id id trivial rfl
  | disableReadable =>
      exact .hides kept asserts asserts.knows Iff.rfl Iff.rfl trivial ⟨asserts.knows, rfl⟩
  | disableLock =>
      rw [queueAccess]
      split
      case isTrue => exact .stays kept asserts Iff.rfl Iff.rfl asserts.knows
      case isFalse free =>
        exact .takesOver asserts asserts.knows (by simpa using free) trivial trivial trivial
          kept.sound.clearLocked (.inl ⟨rfl, rfl⟩) trivial
  | unlockControl result => exact .unlockControl kept result asserts
  | retireActive ticket =>
      refine .compares _ kept asserts id id id id fun same => ?_
      simp only [Bool.or_eq_false_iff, beq_eq_false_iff_ne, bne_eq_false_iff_eq] at same
      exact kept.seen same.1 same.2
  | retireSession ticket =>
      refine .compares _ kept asserts id id id id fun same => ⟨asserts.knows, fun inForce => ?_⟩
      rw [bne_eq_false_iff_eq] at same
      exact (asserts.knows.published inForce).sessionId.symm.trans same.symm
  | retireWorkerHigh ticket =>
      refine .compares _ kept asserts id id id id fun same => ⟨asserts.knows.1, fun inForce => ?_⟩
      rw [bne_eq_false_iff_eq] at same
      exact ⟨asserts.knows.2 inForce,
        (asserts.knows.1.published inForce).workerHigh.symm.trans same.symm⟩
  | retireWorkerLow ticket =>
      refine .compares _ kept asserts id id id id fun same => ⟨asserts.knows.1, fun inForce => ?_⟩
      rw [bne_eq_false_iff_eq] at same
      obtain ⟨session, high⟩ := asserts.knows.2 inForce
      have low := (asserts.knows.1.published inForce).workerLow.symm.trans same.symm
      exact ⟨inForce, session, NativeWorkerToken.mk.injEq .. |>.mpr ⟨high, low⟩⟩
  | retireExchange ticket => exact .retireExchange kept asserts
  | contend =>
      refine ⟨kept.along rfl ⟨rfl, rfl, rfl⟩ rfl (.inl rfl), ?_, {}⟩
      rw [queueAccess]
      split <;> exact asserts.along rfl rfl Iff.rfl Iff.rfl trivial
  | overflow =>
      exact ⟨kept.along rfl ⟨rfl, rfl, rfl⟩ rfl (.inl rfl),
        asserts.along rfl rfl Iff.rfl Iff.rfl trivial, {}⟩
  | beginActive kind worker creator creatorKind nowNs =>
      rw [queueAccess]
      split
      · exact .stays kept asserts Iff.rfl Iff.rfl trivial
      · split <;> exact .stays kept asserts Iff.rfl Iff.rfl trivial
  | beginLock =>
      exact .tryLock _ kept asserts id id trivial ⟨id, id⟩ (fun _ => ⟨trivial, trivial⟩) id
  | beginCheck => exact .beginSection kept asserts
  | captureActive ticket input nowNs =>
      rw [queueAccess]
      split <;> exact .stays kept asserts Iff.rfl Iff.rfl trivial
  | captureLock =>
      exact .tryLock _ kept asserts id id trivial ⟨id, id⟩ (fun _ => ⟨trivial, trivial⟩) id
  | captureCheck => exact .captureSection kept asserts
  | captureExhausted => exact .captureExhausted kept asserts
  | captureCommit => exact .captureCommit kept asserts
  | takeReadable nowNs =>
      rw [queueAccess]
      split <;> exact .stays kept asserts Iff.rfl Iff.rfl trivial
  | takeLock =>
      exact .tryLock _ kept asserts id id trivial ⟨id, id⟩ (fun _ => ⟨trivial, trivial⟩) id
  | takeCheck => exact .takeSection kept asserts
  | takeCommit => exact .takeCommit kept asserts
  | expireActive => exact .expireActive kept asserts
  | expireReadable => exact .expireReadable kept asserts
  | unlock result => exact .unlock kept asserts trivial id result

theorem observation_outline [DecidableEq ι] :
    Outline ((observationMachine ι).access.meeting serialized) (fun _ => True)
      QueueMemory.Kept Asserts where
  earlier := fun _ _ => trivial
  keeps := by
    rintro i m l m' l' ⟨serial, choice, moved⟩ - kept asserts
    have keeps := (queueAccess_keeps choice kept asserts serial).kept
    rwa [show queueAccess i choice m l = (m', l') from moved] at keeps
  reaches := by
    rintro i m l m' l' ⟨serial, choice, moved⟩ - kept asserts
    have keeps := (queueAccess_keeps choice kept asserts serial).asserts
    rwa [show queueAccess i choice m l = (m', l') from moved] at keeps
  stable := by
    rintro i m l m' l' j k ⟨serial, choice, moved⟩ - kept asserts other also
    have keeps := (queueAccess_keeps choice kept asserts serial).touches
    rw [show queueAccess i choice m l = (m', l') from moved] at keeps
    exact also.stable keeps other

end Reb.Worker
