/-
# Theory.Fallible -- computations that may fail

What a sequence of fallible steps returns, it returns through every one of them.
-/
import Mathlib

namespace Reb.Theory.Fallible

set_option autoImplicit false

universe u v

variable {ε : Type u} {α β γ : Type v}

theorem bind_eq_ok {x : Except ε α} {g : α → Except ε β} {b : β} :
    (x >>= g) = .ok b ↔ ∃ a, x = .ok a ∧ g a = .ok b := by
  cases x with
  | error e => simp [bind, Except.bind]
  | ok a => simp [bind, Except.bind]

theorem map_eq_ok {x : Except ε α} {g : α → β} {b : β} :
    x.map g = .ok b ↔ ∃ a, x = .ok a ∧ g a = b := by
  cases x with
  | error e => simp [Except.map]
  | ok a => simp [Except.map]

theorem ite_error_eq_ok {p : Prop} [Decidable p] {e : ε} {x : Except ε α} {a : α} :
    (if p then .error e else x) = .ok a ↔ ¬ p ∧ x = .ok a := by
  by_cases holds : p <;> simp [holds]

@[simp] theorem ok_bind (a : α) (g : α → Except ε β) : (Except.ok a >>= g) = g a := rfl

@[simp] theorem throw_bind (e : ε) (g : α → Except ε β) :
    ((throw e : Except ε α) >>= g) = .error e := rfl

/-- A list read element by element. -/
theorem mapM_eq_some {f : α → Option β} {as : List α} {bs : List β} :
    as.mapM f = some bs ↔ List.Forall₂ (fun a b => f a = some b) as bs := by
  induction as generalizing bs with
  | nil =>
      cases bs with
      | nil => simp
      | cons b bs => simp
  | cons a as ih =>
      rw [List.mapM_cons]
      simp only [Option.bind_eq_bind, Option.bind_eq_some_iff, ih]
      constructor
      · rintro ⟨b, first, bs', rest, same⟩
        cases same
        exact .cons first rest
      · rintro (_ | ⟨first, rest⟩)
        exact ⟨_, first, _, rest, rfl⟩

/-- What every reading meets, every element read meets. -/
theorem forall_of_mapM {f : α → Option β} {as : List α} {bs : List β} {P : β → Prop}
    (each : ∀ {a b}, f a = some b → P b) (read : as.mapM f = some bs) :
    bs.length = as.length ∧ ∀ b ∈ bs, P b := by
  rw [mapM_eq_some] at read
  induction read with
  | nil => simp
  | cons first _ ih =>
      refine ⟨by simp [ih.1], fun b member => ?_⟩
      rcases List.mem_cons.1 member with rfl | member
      · exact each first
      · exact ih.2 b member

end Reb.Theory.Fallible
