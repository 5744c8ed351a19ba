/-
# Theory.BreadthFirst -- queues that grow while they are read

`Worklist.drain` takes the items of a queue in order, the ones that a visit appends
included.  What every visit keeps, the whole run keeps (`drain_run`); a queue that stays
within a bound is read to its end (`drain_settles`); and two runs that append alike stay
alike (`drain_simulates`).

`Layered` is what holds of the queue of a breadth-first search when its first `done` items have
been read: the queue is sorted by level, and the neighbours of what has been read are in it, at
most one level further.  A search keeps it with two rules, `discover` and `advance`; when the
queue has been read to its end, the levels are distances (`settled`).
-/
import Mathlib

namespace Reb.Theory.Worklist

set_option autoImplicit false

universe u v w

variable {σ : Type u} {τ : Type v} {α : Type w}

/-- The loop, from the item at `index` on, for as many turns as are allowed. -/
def drain (queue : σ → List α) (visit : σ → α → σ) : Nat → Nat → σ → σ
  | 0, _, state => state
  | turns + 1, index, state =>
      match (queue state)[index]? with
      | none => state
      | some item => drain queue visit turns (index + 1) (visit state item)

section Run

variable {queue : σ → List α} {visit : σ → α → σ} {I : Nat → σ → Prop}

/-- The loop stops at the end of the queue, or when its turns are over. -/
theorem drain_run
    (step : ∀ index state item, I index state → (queue state)[index]? = some item →
      I (index + 1) (visit state item)) :
    ∀ (turns index : Nat) (state : σ), I index state →
      ∃ last, I last (drain queue visit turns index state)
        ∧ ((queue (drain queue visit turns index state)).length ≤ last ∨ last = index + turns)
  | 0, index, state, holds => ⟨index, holds, .inr rfl⟩
  | turns + 1, index, state, holds => by
      rw [drain]
      cases next : (queue state)[index]? with
      | none => exact ⟨index, holds, .inl (List.getElem?_eq_none_iff.1 next)⟩
      | some item =>
          obtain ⟨last, kept, ended⟩ :=
            drain_run step turns (index + 1) (visit state item) (step index state item holds next)
          exact ⟨last, kept, ended.imp_right fun same => by omega⟩

theorem drain_settles {bound : Nat}
    (step : ∀ index state item, I index state → (queue state)[index]? = some item →
      I (index + 1) (visit state item))
    (bounded : ∀ index state, I index state → (queue state).length ≤ bound)
    {turns index : Nat} {state : σ} (holds : I index state) (enough : bound ≤ index + turns) :
    ∃ last, I last (drain queue visit turns index state)
      ∧ (queue (drain queue visit turns index state)).length ≤ last := by
  obtain ⟨last, kept, ended⟩ := drain_run step turns index state holds
  refine ⟨last, kept, ?_⟩
  cases ended with
  | inl read => exact read
  | inr late =>
      have short := bounded last _ kept
      omega

end Run

theorem drain_simulates {queue : σ → List α} {queue' : τ → List α} {visit : σ → α → σ}
    {visit' : τ → α → τ} {R : σ → τ → Prop} (alike : ∀ s t, R s t → queue s = queue' t)
    (step : ∀ s t item, R s t → item ∈ queue s → R (visit s item) (visit' t item)) :
    ∀ (turns index : Nat) (s : σ) (t : τ), R s t →
      R (drain queue visit turns index s) (drain queue' visit' turns index t)
  | 0, _, _, _, related => related
  | turns + 1, index, s, t, related => by
      rw [drain, drain, ← alike s t related]
      cases next : (queue s)[index]? with
      | none => exact related
      | some item =>
          exact drain_simulates alike step turns (index + 1) _ _
            (step s t item related (List.mem_of_getElem? next))

end Reb.Theory.Worklist

namespace Reb.Theory.BreadthFirst

universe u

variable {α : Type u} (points : α → α → Prop)

/-- A path of so many steps. -/
inductive Steps : Nat → α → α → Prop
  | here (node : α) : Steps 0 node node
  | step {count : Nat} {first node next : α} (before : Steps count first node)
      (points : points node next) : Steps (count + 1) first next

theorem reflTransGen_iff_steps {points : α → α → Prop} {first node : α} :
    Relation.ReflTransGen points first node ↔ ∃ count, Steps points count first node := by
  constructor
  · intro reaches
    induction reaches with
    | refl => exact ⟨0, .here first⟩
    | tail _ here ih =>
        obtain ⟨count, before⟩ := ih
        exact ⟨count + 1, before.step here⟩
  · rintro ⟨count, steps⟩
    induction steps with
    | here node => exact .refl
    | step before here ih => exact ih.tail here

structure Layered (root : α) (queue : List α) (level : α → Nat) (done : Nat) : Prop where
  root_mem : root ∈ queue
  root_level : level root = 0
  nodup : queue.Nodup
  sorted : queue.Pairwise fun before after => level before ≤ level after
  near : ∀ current ∈ queue[done]?, ∀ node ∈ queue, level node ≤ level current + 1
  closed : ∀ index < done, ∀ current ∈ queue[index]?, ∀ next, points current next →
    next ∈ queue ∧ level next ≤ level current + 1
  reached : ∀ node ∈ queue, Steps points (level node) root node

variable {points} {root : α} {queue : List α} {level : α → Nat} {done : Nat}

theorem layered_root (root : α) : Layered points root [root] (fun _ => 0) 0 where
  root_mem := List.mem_singleton_self root
  root_level := rfl
  nodup := List.nodup_singleton root
  sorted := List.pairwise_singleton _ root
  near := by simp
  closed := by simp
  reached node inside := by
    rw [List.mem_singleton.1 inside]
    exact .here root

namespace Layered

/-- A new item behind the others, one level below the item that is being read. -/
theorem discover [DecidableEq α] (layered : Layered points root queue level done)
    {current next : α} (here : queue[done]? = some current) (new : next ∉ queue)
    (found : points current next) :
    Layered points root (queue ++ [next]) (Function.update level next (level current + 1)) done := by
  have old : ∀ node ∈ queue, Function.update level next (level current + 1) node = level node := by
    intro node inside
    refine Function.update_of_ne ?_ _ _
    rintro rfl
    exact new inside
  have known : current ∈ queue := List.mem_of_getElem? here
  have fresh : Function.update level next (level current + 1) next = level current + 1 :=
    Function.update_self _ _ _
  have inside : done < queue.length := (List.getElem?_eq_some_iff.1 here).1
  constructor
  · exact List.mem_append_left _ layered.root_mem
  · rw [old root layered.root_mem, layered.root_level]
  · rw [List.nodup_append]
    refine ⟨layered.nodup, List.nodup_singleton next, ?_⟩
    rintro node before _ after rfl
    rw [List.mem_singleton.1 after] at before
    exact new before
  · rw [List.pairwise_append]
    refine ⟨?_, List.pairwise_singleton _ next, ?_⟩
    · refine layered.sorted.imp_of_mem ?_
      intro before after first second le
      rwa [old before first, old after second]
    · intro node before last after
      rw [List.mem_singleton.1 after, fresh, old node before]
      exact layered.near current here node before
  · intro other there node member
    rw [List.getElem?_append_left inside, here, Option.mem_some_iff] at there
    subst there
    rw [old current known]
    rcases List.mem_append.1 member with before | last
    · rw [old node before]
      exact layered.near current here node before
    · rw [List.mem_singleton.1 last, fresh]
  · intro index early other there target targets
    rw [List.getElem?_append_left (early.trans inside)] at there
    obtain ⟨member, close⟩ := layered.closed index early other there target targets
    rw [old other (List.mem_of_getElem? there), old target member]
    exact ⟨List.mem_append_left _ member, close⟩
  · intro node member
    rcases List.mem_append.1 member with before | last
    · rw [old node before]
      exact layered.reached node before
    · rw [List.mem_singleton.1 last, fresh]
      exact (layered.reached current known).step found

/-- The next item, when the neighbours of the one before it are in the queue. -/
theorem advance (layered : Layered points root queue level done) {current : α}
    (here : queue[done]? = some current) (all : ∀ next, points current next → next ∈ queue) :
    Layered points root queue level (done + 1) where
  root_mem := layered.root_mem
  root_level := layered.root_level
  nodup := layered.nodup
  sorted := layered.sorted
  near other there node member := by
    have later : level current ≤ level other := by
      obtain ⟨first, rfl⟩ := List.getElem?_eq_some_iff.1 here
      obtain ⟨second, rfl⟩ := List.getElem?_eq_some_iff.1 there
      exact List.pairwise_iff_getElem.1 layered.sorted done (done + 1) first second (Nat.lt_succ_self _)
    have close := layered.near current here node member
    omega
  closed index early other there target targets := by
    by_cases last : index = done
    · subst last
      rw [here, Option.mem_some_iff] at there
      subst there
      exact ⟨all target targets, layered.near current here target (all target targets)⟩
    · exact layered.closed index (by omega) other there target targets
  reached := layered.reached

/-- The queue has been read: it holds what the root reaches, and no path is shorter than a level. -/
theorem settled (layered : Layered points root queue level done) (read : queue.length ≤ done)
    {count : Nat} {node : α} (path : Steps points count root node) :
    node ∈ queue ∧ level node ≤ count := by
  induction path with
  | here => exact ⟨layered.root_mem, layered.root_level.le⟩
  | step before here ih =>
      obtain ⟨member, le⟩ := ih layered
      obtain ⟨index, there⟩ := List.mem_iff_getElem?.1 member
      have early := (List.getElem?_eq_some_iff.1 there).1
      obtain ⟨inside, close⟩ := layered.closed index (early.trans_le read) _ there _ here
      exact ⟨inside, by omega⟩

theorem mem_iff_reaches (layered : Layered points root queue level done)
    (read : queue.length ≤ done) (node : α) :
    node ∈ queue ↔ Relation.ReflTransGen points root node := by
  rw [reflTransGen_iff_steps]
  constructor
  · intro member
    exact ⟨_, layered.reached node member⟩
  · rintro ⟨count, path⟩
    exact (layered.settled read path).1

end Layered

end Reb.Theory.BreadthFirst
