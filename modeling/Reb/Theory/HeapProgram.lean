/-
# Theory.HeapProgram -- programs that may fail, over a heap or over a value

A program changes a state and answers or fails; it leaves a state either way.  Over a heap
it reads, allocates and overwrites objects by address.  `Simulates shows` relates a program
over one state to a program over another: from states that show one another it gives the
same answer and leaves states that show one another.  The rules follow the binds.
-/
import Mathlib

namespace Reb.Theory.Heap

set_option autoImplicit false

variable {ε S T Object α β : Type}

structure Program (ε S α : Type) where
  run : S → Except ε α × S

namespace Program

instance : Monad (Program ε S) where
  pure a := ⟨fun s => (.ok a, s)⟩
  bind p f := ⟨fun s =>
    match p.run s with
    | (.ok a, s) => (f a).run s
    | (.error e, s) => (.error e, s)⟩

def fail (e : ε) : Program ε S α := ⟨fun s => (.error e, s)⟩

/-! ## Programs over a heap -/

/-- What a reader makes of the object at an address. -/
def read (e : ε) (view : Object → Option α) (address : Nat) : Program ε (List Object) α :=
  ⟨fun heap =>
    match heap[address]?.bind view with
    | some a => (.ok a, heap)
    | none => (.error e, heap)⟩

/-- What a reader makes of the objects at some addresses. -/
def readAll (e : ε) (view : Object → Option α) (addresses : List Nat) :
    Program ε (List Object) (List α) :=
  ⟨fun heap =>
    match addresses.mapM fun address => heap[address]?.bind view with
    | some answers => (.ok answers, heap)
    | none => (.error e, heap)⟩

def alloc (object : Object) : Program ε (List Object) Nat :=
  ⟨fun heap => (.ok heap.length, heap ++ [object])⟩

/-- Objects allocated one after the other. -/
def allocAll (objects : List Object) : Program ε (List Object) (List Nat) :=
  ⟨fun heap => (.ok (List.range' heap.length objects.length), heap ++ objects)⟩

def write (address : Nat) (object : Object) : Program ε (List Object) Unit :=
  ⟨fun heap => (.ok (), heap.set address object)⟩

/-! ## Binds -/

section Binds

variable {p : Program ε S α} {q : α → Program ε S β} {s s' : S} {a : α} {e : ε}

@[simp] theorem run_pure (a : α) (s : S) : (pure a : Program ε S α).run s = (.ok a, s) := rfl

@[simp] theorem run_fail (e : ε) (s : S) : (fail e : Program ε S α).run s = (.error e, s) := rfl

theorem run_bind_ok (ran : p.run s = (.ok a, s')) : (p >>= q).run s = (q a).run s' := by
  simp only [bind, ran]

theorem run_bind_error (ran : p.run s = (.error e, s')) :
    (p >>= q).run s = (.error e, s') := by
  simp only [bind, ran]

theorem run_bind_eq_ok {b : β} {s'' : S} :
    (p >>= q).run s = (.ok b, s'')
      ↔ ∃ a s', p.run s = (.ok a, s') ∧ (q a).run s' = (.ok b, s'') := by
  rcases ran : p.run s with ⟨_ | a, s'⟩
  · simp [run_bind_error ran]
  · simp [run_bind_ok ran]

theorem run_read {view : Object → Option α} {heap : List Object} {address : Nat} {object : Object}
    (found : heap[address]? = some object) (seen : view object = some a) :
    (read e view address).run heap = (.ok a, heap) := by
  simp [read, found, seen]

end Binds

end Program

/-! ## Frames -/

theorem prefix_set {old heap : List Object} {address : Nat} (kept : old <+: heap)
    (fresh : old.length ≤ address) (object : Object) : old <+: heap.set address object := by
  obtain ⟨more, rfl⟩ := kept
  rw [List.set_append_right _ _ fresh]
  exact List.prefix_append _ _

theorem getElem?_of_extends {old heap : List Object} (kept : old <+: heap) {address : Nat}
    {object : Object} (found : old[address]? = some object) : heap[address]? = some object := by
  obtain ⟨more, rfl⟩ := kept
  rw [List.getElem?_append_left (List.getElem?_eq_some_iff.1 found).1, found]

theorem getElem?_set_other {heap : List Object} {address other : Nat} {here there object : Object}
    (found : heap[address]? = some here) (elsewhere : heap[other]? = some there)
    (apart : here ≠ there) : (heap.set address object)[other]? = some there := by
  rw [List.getElem?_set_ne, elsewhere]
  rintro rfl
  rw [found] at elsewhere
  exact apart (Option.some.inj elsewhere)

theorem getElem?_set_here {heap : List Object} {address : Nat} {here : Object}
    (found : heap[address]? = some here) (object : Object) :
    (heap.set address object)[address]? = some object :=
  List.getElem?_set_self (List.getElem?_eq_some_iff.1 found).1

/-! ## Simulation -/

/-- From states that show one another the two give the same answer, and leave states that
show one another. -/
def Simulates (shows : T → S → Prop) (p : Program ε S α) (f : Program ε T α) : Prop :=
  ∀ ⦃value : T⦄ ⦃s : S⦄, shows value s →
    (p.run s).1 = (f.run value).1 ∧ shows (f.run value).2 (p.run s).2

namespace Simulates

variable {shows : T → S → Prop}

theorem pure (a : α) :
    Simulates shows (Pure.pure a : Program ε S α) (Pure.pure a : Program ε T α) :=
  fun _ _ shown => ⟨rfl, shown⟩

theorem fail (e : ε) :
    Simulates shows (.fail e : Program ε S α) (.fail e : Program ε T α) :=
  fun _ _ shown => ⟨rfl, shown⟩

theorem bind {p : Program ε S α} {f : Program ε T α} {q : α → Program ε S β}
    {g : α → Program ε T β} (first : Simulates shows p f)
    (next : ∀ a, Simulates shows (q a) (g a)) : Simulates shows (p >>= q) (f >>= g) := by
  intro value s shown
  obtain ⟨same, later⟩ := first shown
  rcases ran : p.run s with ⟨out, s'⟩
  rcases ran' : f.run value with ⟨out', value'⟩
  rw [ran, ran'] at same later
  obtain rfl : out = out' := same
  cases out with
  | error e =>
      rw [Program.run_bind_error ran, Program.run_bind_error ran']
      exact ⟨rfl, later⟩
  | ok a =>
      rw [Program.run_bind_ok ran, Program.run_bind_ok ran']
      exact next a later

theorem ite {c : Prop} [Decidable c] {p q : Program ε S α} {f g : Program ε T α}
    (yes : Simulates shows p f) (no : Simulates shows q g) :
    Simulates shows (if c then p else q) (if c then f else g) := by
  by_cases holds : c
  · rwa [if_pos holds, if_pos holds]
  · rwa [if_neg holds, if_neg holds]

end Simulates

/-! ## Triples -/

/-- From a state of the precondition, an answer and its state meet the postcondition. -/
def Triple (P : S → Prop) (p : Program ε S α) (Q : α → S → Prop) : Prop :=
  ∀ ⦃s : S⦄, P s → ∀ ⦃a : α⦄ ⦃s' : S⦄, p.run s = (.ok a, s') → Q a s'

namespace Triple

variable {P : S → Prop}

theorem pure {Q : α → S → Prop} (a : α) (holds : ∀ s, P s → Q a s) :
    Triple P (Pure.pure a : Program ε S α) Q := by
  intro s meets a' s' ran
  cases ran
  exact holds s meets

theorem fail {Q : α → S → Prop} (e : ε) : Triple P (.fail e : Program ε S α) Q := by
  intro s _ a s' ran
  cases ran

theorem bind {p : Program ε S α} {q : α → Program ε S β} {Q : α → S → Prop} {R : β → S → Prop}
    (first : Triple P p Q) (next : ∀ a, Triple (Q a) (q a) R) : Triple P (p >>= q) R := by
  intro s meets b s'' ran
  obtain ⟨a, s', ran, later⟩ := Program.run_bind_eq_ok.1 ran
  exact next a (first meets ran) later

theorem ite {c : Prop} [Decidable c] {p q : Program ε S α} {R : α → S → Prop}
    (yes : c → Triple P p R) (no : ¬ c → Triple P q R) : Triple P (if c then p else q) R := by
  by_cases holds : c
  · rw [if_pos holds]
    exact yes holds
  · rw [if_neg holds]
    exact no holds

/-- A precondition that does not depend on the state. -/
theorem assume {c : Prop} {p : Program ε S α} {Q : α → S → Prop} (holds : c → Triple P p Q) :
    Triple (fun s => P s ∧ c) p Q :=
  fun _ meets => holds meets.2 meets.1

end Triple

end Reb.Theory.Heap
