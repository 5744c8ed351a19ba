/-
# Theory.Interleaving -- threads that take turns on one memory

A configuration is a memory and the local state of every thread; a step is one
access of one thread.  `Outline.reachable` is the rule for proof outlines: an
invariant of the memory and one assertion per thread hold in every reachable
configuration, when an access keeps the invariant, establishes its own thread's
next assertion and leaves the other threads' assertions true.  `HeldBy` is a token
that has at most one holder, and the ways it changes hands.
-/
import Mathlib

namespace Reb.Theory.Interleaving

set_option autoImplicit false

variable {ι : Type*} {Local : ι → Type*} {Memory : Type*}

structure Config (Local : ι → Type*) (Memory : Type*) where
  memory : Memory
  locals : (i : ι) → Local i

/-- What one access of a thread does to the memory and to its local state. -/
abbrev Access (Local : ι → Type*) (Memory : Type*) :=
  (i : ι) → Memory → Local i → Memory → Local i → Prop

/-- One thread makes one access; the other threads stay where they are. -/
inductive Step (access : Access Local Memory) (c c' : Config Local Memory) : Prop where
  | of (i : ι) (moves : access i c.memory (c.locals i) c'.memory (c'.locals i))
      (others : ∀ j, j ≠ i → c'.locals j = c.locals j)

/-- The configurations that some interleaving of the threads can reach. -/
abbrev Reachable (access : Access Local Memory) : Config Local Memory → Config Local Memory → Prop :=
  Relation.ReflTransGen (Step access)

/-- The accesses of threads that meet a condition before they move. -/
def Access.meeting (access : Access Local Memory) (meets : (i : ι) → Memory → Local i → Prop) :
    Access Local Memory :=
  fun i m l m' l' => meets i m l ∧ access i m l m' l'

/-! ## Threads that are programs -/

/-- A program for every thread: the next access, given what the access leaves open. -/
abbrev Machine (Local : ι → Type*) (Memory Choice : Type*) :=
  (i : ι) → Choice → Memory → Local i → Memory × Local i

namespace Machine

variable {Choice : Type*} (machine : Machine Local Memory Choice)

def access : Access Local Memory :=
  fun i m l m' l' => ∃ choice, machine i choice m l = (m', l')

variable [DecidableEq ι]

/-- The access a schedule lets the thread `move.1` make. -/
def perform (c : Config Local Memory) (move : ι × Choice) : Config Local Memory :=
  let moved := machine move.1 move.2 c.memory (c.locals move.1)
  ⟨moved.1, Function.update c.locals move.1 moved.2⟩

theorem perform_access (c : Config Local Memory) (move : ι × Choice) :
    machine.access move.1 c.memory (c.locals move.1) (machine.perform c move).memory
      ((machine.perform c move).locals move.1) := by
  refine ⟨move.2, Prod.ext rfl ?_⟩
  exact (Function.update_self ..).symm

theorem perform_others (c : Config Local Memory) (move : ι × Choice) (j : ι) (other : j ≠ move.1) :
    (machine.perform c move).locals j = c.locals j :=
  Function.update_of_ne other _ _

theorem schedule_reachable (c : Config Local Memory) (moves : List (ι × Choice)) :
    Reachable machine.access c (moves.foldl machine.perform c) := by
  induction moves generalizing c with
  | nil => exact .refl
  | cons move rest ih =>
      exact .head ⟨move.1, machine.perform_access c move, machine.perform_others c move⟩ (ih _)

variable (meets : (i : ι) → Memory → Local i → Prop) [∀ i m l, Decidable (meets i m l)]

/-- Every access of the schedule is made by a thread that meets the condition. -/
def scheduleMeets (c : Config Local Memory) : List (ι × Choice) → Bool
  | [] => true
  | move :: rest =>
      decide (meets move.1 c.memory (c.locals move.1)) && scheduleMeets (machine.perform c move) rest

theorem schedule_reachable_meeting (c : Config Local Memory) (moves : List (ι × Choice))
    (all : machine.scheduleMeets meets c moves = true) :
    Reachable (machine.access.meeting meets) c (moves.foldl machine.perform c) := by
  induction moves generalizing c with
  | nil => exact .refl
  | cons move rest ih =>
      rw [scheduleMeets, Bool.and_eq_true, decide_eq_true_eq] at all
      exact .head ⟨move.1, ⟨all.1, machine.perform_access c move⟩, machine.perform_others c move⟩
        (ih _ all.2)

end Machine

/-! ## Proof outlines -/

/-- The obligations of a proof outline.  `live` bounds the runs that are looked at;
what is live now was live before. -/
structure Outline (access : Access Local Memory) (live shared : Memory → Prop)
    (assertion : (i : ι) → Memory → Local i → Prop) : Prop where
  earlier : ∀ {i m l m' l'}, access i m l m' l' → live m' → live m
  keeps : ∀ {i m l m' l'}, access i m l m' l' → live m' → shared m → assertion i m l → shared m'
  reaches : ∀ {i m l m' l'}, access i m l m' l' → live m' → shared m → assertion i m l →
    assertion i m' l'
  stable : ∀ {i m l m' l' j k}, access i m l m' l' → live m' → shared m → assertion i m l →
    j ≠ i → assertion j m k → assertion j m' k

namespace Outline

variable {access : Access Local Memory} {live shared : Memory → Prop}
  {assertion : (i : ι) → Memory → Local i → Prop}

/-- The invariant of the memory and every thread's assertion. -/
def Holds (shared : Memory → Prop) (assertion : (i : ι) → Memory → Local i → Prop)
    (c : Config Local Memory) : Prop :=
  shared c.memory ∧ ∀ i, assertion i c.memory (c.locals i)

theorem step (outline : Outline access live shared assertion) {c c' : Config Local Memory}
    (moves : Step access c c') (alive : live c'.memory) (holds : Holds shared assertion c) :
    Holds shared assertion c' := by
  obtain ⟨i, moves, others⟩ := moves
  obtain ⟨kept, asserted⟩ := holds
  refine ⟨outline.keeps moves alive kept (asserted i), fun j => ?_⟩
  by_cases same : j = i
  · subst same
    exact outline.reaches moves alive kept (asserted j)
  · rw [others j same]
    exact outline.stable moves alive kept (asserted i) same (asserted j)

/-- The rule: what holds at the start holds wherever the threads get to. -/
theorem reachable (outline : Outline access live shared assertion) {c c' : Config Local Memory}
    (run : Reachable access c c') (alive : live c'.memory) (start : Holds shared assertion c) :
    Holds shared assertion c' := by
  induction run with
  | refl => exact start
  | tail _ last ih =>
      obtain ⟨i, moves, others⟩ := last
      exact outline.step ⟨i, moves, others⟩ alive (ih (outline.earlier moves alive))

end Outline

/-! ## Tokens -/

section Tokens

variable {α : Type*} {holds holds' : α → Prop} {holder : Option α} {a b : α}

/-- What is held is held by the one holder there is, if there is one. -/
def HeldBy (holds : α → Prop) (holder : Option α) : Prop := ∀ a, holds a ↔ holder = some a

theorem HeldBy.keep (held : HeldBy holds holder) (same : ∀ a, holds' a ↔ holds a) :
    HeldBy holds' holder :=
  fun a => (same a).trans (held a)

theorem HeldBy.take (held : HeldBy holds none) (takes : holds' a)
    (others : ∀ b, b ≠ a → holds' b → holds b) : HeldBy holds' (some a) := by
  intro b
  constructor
  · intro now
    by_contra other
    have before := others b (fun same => other (congrArg some same.symm)) now
    exact absurd ((held b).1 before) (by simp)
  · intro same
    cases same
    exact takes

theorem HeldBy.drop (held : HeldBy holds holder) (had : holds a) (drops : ¬ holds' a)
    (others : ∀ b, holds' b → holds b) : HeldBy holds' none := by
  intro b
  refine iff_of_false (fun now => ?_) (by simp)
  have same : some b = some a := ((held b).1 (others b now)).symm.trans ((held a).1 had)
  cases same
  exact drops now

theorem HeldBy.pass (held : HeldBy holds holder) (had : holds a) (drops : ¬ holds' a)
    (takes : holds' b) (others : ∀ c, c ≠ b → holds' c → holds c) : HeldBy holds' (some b) := by
  have between : HeldBy (fun c => c ≠ b ∧ holds' c) none :=
    held.drop had (fun still => drops still.2) (fun c now => others c now.1 now.2)
  exact between.take takes (fun c other now => ⟨other, now⟩)

theorem HeldBy.eq (held : HeldBy holds holder) (had : holds a) (also : holds b) : a = b :=
  Option.some.inj (((held a).1 had).symm.trans ((held b).1 also))

end Tokens

end Reb.Theory.Interleaving
