/-
# Theory.TopK -- the best few of a sequence

`keep` takes the candidates one by one and keeps the best `limit` of them: a new one replaces the
worst that is kept, when it is better.  What is kept in the end, sorted, is the beginning of the
sorted sequence (`sorted_keep`), whatever the order in which the candidates came.
-/
import Mathlib

namespace Reb.Theory.TopK

set_option autoImplicit false

universe u

variable {α : Type u}

/-- A strict order, in which two candidates may also be equally good. -/
structure Ranks (better : α → α → Bool) : Prop where
  asymm : ∀ {a b}, better a b = true → better b a = false
  trans : ∀ {a b c}, better a b = false → better b c = false → better a c = false

/-- The last candidate none is worse than. -/
def worst (better : α → α → Bool) (first : α) (rest : List α) : α :=
  rest.foldl (fun worst candidate => if better worst candidate then candidate else worst) first

def keep [DecidableEq α] (better : α → α → Bool) (limit : Nat) (candidate : α) (kept : List α) :
    List α :=
  if kept.length < limit then kept ++ [candidate]
  else
    match kept with
    | [] => []
    | first :: rest =>
        if better candidate (worst better first rest) then
          (first :: rest).erase (worst better first rest) ++ [candidate]
        else kept

/-- The sequence in order, the best first. -/
def ranked (better : α → α → Bool) (all : List α) : List α :=
  all.mergeSort fun left right => !better right left

theorem worst_mem (better : α → α → Bool) (first : α) (rest : List α) :
    worst better first rest ∈ first :: rest := by
  induction rest generalizing first with
  | nil => exact List.mem_singleton_self first
  | cons candidate rest ih =>
      have there := ih (if better first candidate then candidate else first)
      rw [worst, List.foldl_cons]
      split at there
      · next worse =>
          rw [if_pos worse]
          exact List.mem_cons_of_mem _ there
      · next worse =>
          rw [if_neg worse]
          rcases List.mem_cons.1 there with here | later
          · exact List.mem_cons.2 (.inl here)
          · exact List.mem_cons_of_mem _ (List.mem_cons_of_mem _ later)

section

variable {better : α → α → Bool} (ranks : Ranks better)

include ranks

theorem Ranks.irrefl (a : α) : better a a = false := by
  cases same : better a a with
  | false => rfl
  | true => exact same.symm.trans (ranks.asymm same)

theorem worst_last (first : α) (rest : List α) :
    ∀ candidate ∈ first :: rest, better (worst better first rest) candidate = false := by
  induction rest generalizing first with
  | nil =>
      intro candidate member
      rw [List.mem_singleton.1 member]
      exact ranks.irrefl first
  | cons next rest ih =>
      rw [worst, List.foldl_cons]
      by_cases worse : better first next = true
      · have below := ih next
        rw [if_pos worse]
        intro candidate member
        rcases List.mem_cons.1 member with rfl | later
        · exact ranks.trans (below next List.mem_cons_self) (ranks.asymm worse)
        · exact below candidate later
      · have below := ih first
        rw [if_neg worse]
        intro candidate member
        rcases List.mem_cons.1 member with rfl | later
        · exact below _ List.mem_cons_self
        rcases List.mem_cons.1 later with rfl | last
        · exact ranks.trans (below first List.mem_cons_self) (Bool.eq_false_iff.2 worse)
        · exact below candidate (List.mem_cons_of_mem _ last)

omit ranks in
/-- What is kept, and that nothing left out is better. -/
structure Best (better : α → α → Bool) (limit : Nat) (all kept left : List α) : Prop where
  perm : all.Perm (kept ++ left)
  length : kept.length = min limit all.length
  last : ∀ a ∈ kept, ∀ b ∈ left, better b a = false

theorem Best.step [DecidableEq α] {limit : Nat} {all kept left : List α}
    (best : Best better limit all kept left) (candidate : α) :
    ∃ left, Best better limit (all ++ [candidate]) (keep better limit candidate kept) left := by
  have sizes := best.length
  have total := best.perm.length_eq
  rw [List.length_append] at total
  unfold keep
  by_cases room : kept.length < limit
  · have none : left = [] := List.length_eq_zero_iff.1 (by omega)
    subst none
    rw [if_pos room]
    refine ⟨[], ?_, ?_, by simp⟩
    · have same := best.perm
      rw [List.append_nil] at same ⊢
      exact same.append_right _
    · rw [List.length_append, List.length_append, List.length_singleton]
      omega
  · rw [if_neg room]
    cases kept with
    | nil =>
        refine ⟨left ++ [candidate], ?_, ?_, by simp⟩
        · exact best.perm.append_right _
        · rw [List.length_nil] at room ⊢
          omega
    | cons first rest =>
        have below := worst_last ranks first rest
        have member := worst_mem better first rest
        dsimp only
        generalize worst better first rest = lowest at below member
        have whole := List.perm_cons_erase member
        by_cases better_than : better candidate lowest = true
        · rw [if_pos better_than]
          refine ⟨lowest :: left, ?_, ?_, ?_⟩
          · rw [List.perm_iff_count]
            intro a
            have counts := (List.perm_iff_count.1 best.perm a).trans
              (by rw [List.count_append, List.perm_iff_count.1 whole a])
            simp only [List.count_append, List.count_cons, List.count_nil] at counts ⊢
            omega
          · have shorter := whole.length_eq
            simp only [List.length_append, List.length_cons, List.length_nil] at shorter sizes room ⊢
            omega
          · intro a kept b out
            rcases List.mem_append.1 kept with old | new
            · have inside := List.mem_of_mem_erase old
              rcases List.mem_cons.1 out with rfl | before
              · exact below a inside
              · exact best.last a inside b before
            · rw [List.mem_singleton.1 new]
              rcases List.mem_cons.1 out with rfl | before
              · exact ranks.asymm better_than
              · exact ranks.trans (best.last lowest member b before) (ranks.asymm better_than)
        · rw [if_neg better_than]
          refine ⟨candidate :: left, ?_, ?_, ?_⟩
          · rw [List.perm_iff_count]
            intro a
            have counts := List.perm_iff_count.1 best.perm a
            simp only [List.count_append, List.count_cons, List.count_nil] at counts ⊢
            omega
          · simp only [List.length_append, List.length_cons, List.length_nil] at sizes room ⊢
            omega
          · intro a kept b out
            rcases List.mem_cons.1 out with rfl | before
            · exact ranks.trans (Bool.eq_false_iff.2 better_than) (below a kept)
            · exact best.last a kept b before

theorem best_foldl [DecidableEq α] (limit : Nat) (all : List α) :
    ∃ left, Best better limit all (all.foldl (fun kept next => keep better limit next kept) []) left := by
  induction all using List.reverseRecOn with
  | nil => exact ⟨[], .refl _, by simp, by simp⟩
  | append_singleton all next ih =>
      obtain ⟨left, best⟩ := ih
      rw [List.foldl_append]
      exact best.step ranks next

theorem ranked_pairwise (all : List α) :
    (ranked better all).Pairwise fun a b => better b a = false := by
  have sorted := @List.pairwise_mergeSort α (fun left right => !better right left)
    (fun a b c first second => by
      simp only [Bool.not_eq_true'] at first second ⊢
      exact ranks.trans second first)
    (fun a b => by
      cases one : better b a with
      | false => simp
      | true => simp [ranks.asymm one]) all
  exact sorted.imp fun ordered => by simpa using ordered

/-- What is kept, in order, is the beginning of the whole sequence in order, when no two different
candidates are equally good. -/
theorem Best.ranked_eq {limit : Nat} {all kept left : List α}
    (best : Best better limit all kept left)
    (strict : ∀ a ∈ all, ∀ b ∈ all, better a b = false → better b a = false → a = b) :
    ranked better kept = (ranked better all).take limit := by
  have split : ranked better all = ranked better kept ++ ranked better left := by
    refine @List.Perm.eq_of_pairwise α (fun a b => better b a = false) _ _ ?_
      (ranked_pairwise ranks all) ?_ ?_
    · intro a b first second one another
      have inAll : b ∈ all := by
        refine best.perm.mem_iff.2 (List.mem_append.2 ?_)
        exact (List.mem_append.1 second).imp (List.mem_mergeSort).1 (List.mem_mergeSort).1
      exact strict a (List.mem_mergeSort.1 first) b inAll another one
    · rw [List.pairwise_append]
      refine ⟨ranked_pairwise ranks kept, ranked_pairwise ranks left, ?_⟩
      intro a inKept b inLeft
      exact best.last a (List.mem_mergeSort.1 inKept) b (List.mem_mergeSort.1 inLeft)
    · calc (ranked better all).Perm all := List.mergeSort_perm _ _
        _ |>.Perm (kept ++ left) := best.perm
        _ |>.Perm (ranked better kept ++ ranked better left) :=
            (List.mergeSort_perm _ _).symm.append (List.mergeSort_perm _ _).symm
  have sizes := best.length
  have total := best.perm.length_eq
  rw [List.length_append] at total
  have size : (ranked better kept).length = kept.length := List.length_mergeSort _
  rw [split]
  by_cases short : limit ≤ all.length
  · rw [List.take_left' (by omega)]
  · have none : left = [] := List.length_eq_zero_iff.1 (by omega)
    subst none
    rw [List.take_of_length_le]
    · simp [ranked]
    · rw [List.length_append, size]
      exact le_trans (by simp [ranked]) (by omega : kept.length ≤ limit)

/-- The best of a sequence, sorted. -/
theorem sorted_keep [DecidableEq α] (limit : Nat) (all : List α)
    (strict : ∀ a ∈ all, ∀ b ∈ all, better a b = false → better b a = false → a = b) :
    ranked better (all.foldl (fun kept next => keep better limit next kept) [])
      = (ranked better all).take limit := by
  obtain ⟨left, best⟩ := best_foldl ranks limit all
  exact best.ranked_eq ranks strict

end

end Reb.Theory.TopK
