/-
# Theory.FirstFit -- pairs chosen one by one

Each item of one list takes the first free item of another that fits it.  The choice is
the other list's choice as well (`pairs_swap`), whatever fits what: an item is taken by the
first that it fits and that found nothing earlier.
-/
import Mathlib

namespace Reb.Theory.FirstFit

set_option autoImplicit false

variable {α β : Type} (fits : α → β → Bool)

def pairs [DecidableEq β] : List α → List β → List (α × β)
  | [], _ => []
  | a :: as, bs =>
      match bs.find? (fits a) with
      | none => pairs as bs
      | some b => (a, b) :: pairs as (bs.erase b)

variable {fits}

section Chosen

variable [DecidableEq β]

@[simp] theorem pairs_nil (as : List α) : pairs fits as [] = [] := by
  induction as with
  | nil => rfl
  | cons a as ih => rw [pairs, List.find?_nil, ih]

theorem pairs_none {a : α} {as : List α} {bs : List β} (none : bs.find? (fits a) = none) :
    pairs fits (a :: as) bs = pairs fits as bs := by
  rw [pairs, none]

theorem pairs_some {a : α} {as : List α} {bs : List β} {b : β}
    (some : bs.find? (fits a) = some b) :
    pairs fits (a :: as) bs = (a, b) :: pairs fits as (bs.erase b) := by
  rw [pairs, some]

/-! ## What is paired -/

theorem pairs_left_sublist (as : List α) (bs : List β) :
    ((pairs fits as bs).map Prod.fst).Sublist as := by
  induction as generalizing bs with
  | nil => exact .refl _
  | cons a as ih =>
      cases found : bs.find? (fits a) with
      | none =>
          rw [pairs_none found]
          exact (ih bs).cons a
      | some b =>
          rw [pairs_some found]
          exact (ih (bs.erase b)).cons_cons a

end Chosen

/-! ## The other list choosing -/

variable [DecidableEq α]

/-- An item that fits nothing is passed by. -/
theorem pairs_passed {a : α} {as : List α} {bs : List β} (alone : ∀ b ∈ bs, fits a b = false) :
    pairs (fun b a => fits a b) bs (a :: as) = pairs (fun b a => fits a b) bs as := by
  induction bs generalizing as with
  | nil => rfl
  | cons b bs ih =>
      have apart := alone b (.head _)
      have passed : (a :: as).find? (fun a => fits a b) = as.find? fun a => fits a b := by
        rw [List.find?_cons_of_neg]
        rw [apart]
        exact Bool.false_ne_true
      have rest : ∀ other ∈ bs, fits a other = false := fun other later => alone other (.tail _ later)
      cases found : as.find? (fun a => fits a b) with
      | none => rw [pairs_none (passed.trans found), pairs_none found, ih rest]
      | some x =>
          have other : a ≠ x := by
            rintro rfl
            rw [List.find?_some found] at apart
            cases apart
          rw [pairs_some (passed.trans found), pairs_some found,
            List.erase_cons_tail (by simpa using other), ih rest]

/-- The first that an item fits takes it. -/
theorem pairs_taken {a : α} {as : List α} {before behind : List β} {b : β}
    (alone : ∀ other ∈ before, fits a other = false) (fit : fits a b = true) :
    (pairs (fun b a => fits a b) (before ++ b :: behind) (a :: as)).Perm
      ((b, a) :: pairs (fun b a => fits a b) (before ++ behind) as) := by
  induction before generalizing as with
  | nil =>
      have found : (a :: as).find? (fun a => fits a b) = some a := List.find?_cons_of_pos fit
      rw [List.nil_append, pairs_some found, List.erase_cons_head, List.nil_append]
  | cons other before ih =>
      have apart := alone other (.head _)
      have passed : (a :: as).find? (fun a => fits a other) = as.find? fun a => fits a other := by
        rw [List.find?_cons_of_neg]
        rw [apart]
        exact Bool.false_ne_true
      have rest : ∀ item ∈ before, fits a item = false := fun item later => alone item (.tail _ later)
      rw [List.cons_append, List.cons_append]
      cases found : as.find? (fun a => fits a other) with
      | none =>
          rw [pairs_none (passed.trans found), pairs_none found]
          exact ih rest
      | some x =>
          have different : a ≠ x := by
            rintro rfl
            rw [List.find?_some found] at apart
            cases apart
          rw [pairs_some (passed.trans found), pairs_some found,
            List.erase_cons_tail (by simpa using different)]
          exact ((ih rest).cons _).trans (.swap _ _ _)

theorem pairs_swap [DecidableEq β] (as : List α) (bs : List β) :
    (pairs (fun b a => fits a b) bs as).Perm ((pairs fits as bs).map Prod.swap) := by
  induction as generalizing bs with
  | nil => rw [pairs_nil, pairs, List.map_nil]
  | cons a as ih =>
      cases found : bs.find? (fits a) with
      | none =>
          rw [pairs_none found, pairs_passed fun b member => by
            simpa using List.find?_eq_none.1 found b member]
          exact ih bs
      | some b =>
          obtain ⟨fit, before, behind, rfl, alone⟩ := List.find?_eq_some_iff_append.1 found
          have apart : ∀ other ∈ before, fits a other = false := fun other member => by
            simpa using alone other member
          have new : b ∉ before := fun member => by
            rw [apart b member] at fit
            cases fit
          rw [pairs_some found, List.erase_append_right _ new, List.erase_cons_head, List.map_cons]
          exact (pairs_taken apart fit).trans ((ih (before ++ behind)).cons _)

end Reb.Theory.FirstFit
