/-
# Theory.FifoMap -- an unordered map beside a queue of its keys

A bounded cache is often written as a hash map and, next to it, a queue of the
keys in insertion order; the front of the queue names the entry to evict.
Nothing ties the two together but the code that updates them.  `ListsKeys order
m` says they agree: the queue lists every key of the map exactly once.

The map is Mathlib's `AList`, whose entry order is not observable here:
`total f m`, the sum of a measure over the values, is a function of the lookups.
-/
import Mathlib

namespace Reb.Theory.FifoMap

set_option autoImplicit false
set_option linter.unusedSectionVars false

variable {κ ν : Type} [DecidableEq κ]

/-- A map from keys to values of one type. -/
abbrev Map (κ ν : Type) : Type := AList (fun _ : κ => ν)

def size (m : Map κ ν) : Nat := m.keys.length

/-! ## Sums over the values -/

/-- The sum of `f` over the values. -/
def total (f : ν → Nat) (m : Map κ ν) : Nat := (m.entries.map fun e => f e.2).sum

@[simp] theorem total_empty (f : ν → Nat) : total f (∅ : Map κ ν) = 0 := rfl

@[simp] theorem size_empty : size (∅ : Map κ ν) = 0 := rfl

theorem total_erase {f : ν → Nat} {m : Map κ ν} {k : κ} {v : ν} (found : m.lookup k = some v) :
    total f (m.erase k) + f v = total f m := by
  have present : k ∈ m.entries.keys := AList.mem_keys.1 (AList.lookup_isSome.1 (by rw [found]; rfl))
  obtain ⟨w, before, after, absent, split, erased⟩ := List.exists_of_kerase present
  have same : w = v := by
    have : (⟨k, w⟩ : Sigma fun _ : κ => ν) ∈ m.entries := by rw [split]; simp
    have := (List.mem_dlookup_iff m.nodupKeys).2 this
    exact Option.some.inj (this.symm.trans found)
  subst same
  have rest : total f (m.erase k) = ((before ++ after).map fun e => f e.2).sum := by
    rw [← erased]; rfl
  rw [rest, total, split]
  simp only [List.map_append, List.map_cons, List.sum_append, List.sum_cons]
  omega

theorem total_insert_of_not_mem {f : ν → Nat} {m : Map κ ν} {k : κ} (absent : k ∉ m) (v : ν) :
    total f (m.insert k v) = total f m + f v := by
  simp only [total, AList.entries_insert_of_notMem absent, List.map_cons, List.sum_cons]
  omega

theorem total_insert {f : ν → Nat} {m : Map κ ν} {k : κ} {v : ν} (found : m.lookup k = some v)
    (w : ν) : total f (m.insert k w) + f v = total f m + f w := by
  have erased := total_erase (f := f) found
  have : total f (m.insert k w) = f w + total f (m.erase k) := by
    simp [total, AList.entries_insert, AList.erase]
  omega

/-- A total is the sum over the keys of what each lookup weighs. -/
theorem total_eq_sum_keys {f : ν → Nat} {g : κ → Nat} {m : Map κ ν}
    (agree : ∀ k v, m.lookup k = some v → f v = g k) : total f m = (m.keys.map g).sum := by
  rw [total, AList.keys, List.keys, List.map_map]
  refine congrArg List.sum (List.map_congr_left fun entry member => ?_)
  exact agree entry.1 entry.2 ((List.mem_dlookup_iff m.nodupKeys).2 member)

/-! ## Sizes -/

theorem size_erase {m : Map κ ν} {k : κ} (present : k ∈ m) : size (m.erase k) + 1 = size m := by
  have member : k ∈ m.keys := AList.mem_keys.1 present
  have positive := List.length_pos_of_mem member
  simp only [size, AList.keys_erase, List.length_erase_of_mem member]
  omega

theorem size_insert_of_not_mem {m : Map κ ν} {k : κ} (absent : k ∉ m) (v : ν) :
    size (m.insert k v) = size m + 1 := by
  rw [AList.mem_keys] at absent
  simp [size, AList.keys_insert, List.erase_of_not_mem absent]

theorem size_insert_of_mem {m : Map κ ν} {k : κ} (present : k ∈ m) (v : ν) :
    size (m.insert k v) = size m := by
  have member : k ∈ m.keys := AList.mem_keys.1 present
  have positive := List.length_pos_of_mem member
  simp only [size, AList.keys_insert, List.length_cons, List.length_erase_of_mem member]
  omega

/-! ## The queue of keys -/

/-- `order` lists each key of `m` exactly once. -/
def ListsKeys (order : List κ) (m : Map κ ν) : Prop := order.Perm m.keys

namespace ListsKeys

variable {order : List κ} {m : Map κ ν}

theorem nil : ListsKeys [] (∅ : Map κ ν) := List.Perm.refl _

theorem nodup (h : ListsKeys order m) : order.Nodup := h.nodup_iff.2 m.keys_nodup

theorem mem_iff (h : ListsKeys order m) (k : κ) : k ∈ order ↔ k ∈ m :=
  (List.Perm.mem_iff h).trans AList.mem_keys.symm

theorem length_eq (h : ListsKeys order m) : order.length = size m := List.Perm.length_eq h

/-- Pushing a new key onto the queue and the map. -/
theorem push (h : ListsKeys order m) {k : κ} (absent : k ∉ m) (v : ν) :
    ListsKeys (order ++ [k]) (m.insert k v) := by
  rw [AList.mem_keys] at absent
  rw [ListsKeys, AList.keys_insert, List.erase_of_not_mem absent]
  exact (List.perm_append_singleton k order).trans (h.cons k)

/-- Overwriting the value of a present key leaves the queue valid. -/
theorem update (h : ListsKeys order m) {k : κ} (present : k ∈ m) (v : ν) :
    ListsKeys order (m.insert k v) := by
  rw [ListsKeys, AList.keys_insert]
  exact h.trans (List.perm_cons_erase (AList.mem_keys.1 present))

/-- Evicting the front. -/
theorem pop {k : κ} (h : ListsKeys (k :: order) m) : ListsKeys order (m.erase k) := by
  rw [ListsKeys, AList.keys_erase]
  exact (List.cons_perm_iff_perm_erase.1 h).2

theorem front_mem {k : κ} (h : ListsKeys (k :: order) m) : k ∈ m := (h.mem_iff k).1 (by simp)

end ListsKeys

/-! ## The bounded cache -/

/-- A map with the queue of its keys, oldest first. -/
structure Cache (κ ν : Type) [DecidableEq κ] where
  map : Map κ ν := ∅
  order : List κ := []

namespace Cache

/-- Erase the front of the queue from both. -/
def dropOldest (cache : Cache κ ν) : Cache κ ν :=
  match cache.order with
  | [] => cache
  | front :: rest => ⟨cache.map.erase front, rest⟩

/-- Add a new key, dropping the oldest one when the map is full. -/
def push (cache : Cache κ ν) (capacity : Nat) (k : κ) (v : ν) : Cache κ ν :=
  let room := if size cache.map = capacity then cache.dropOldest else cache
  ⟨room.map.insert k v, room.order ++ [k]⟩

/-- Overwrite the value of a present key. -/
def set (cache : Cache κ ν) (k : κ) (v : ν) : Cache κ ν := { cache with map := cache.map.insert k v }

variable {cache : Cache κ ν} {capacity : Nat}

/-- Below capacity a push only adds. -/
theorem map_push_of_lt (space : size cache.map < capacity) (k : κ) (v : ν) :
    (cache.push capacity k v).map = cache.map.insert k v := by
  rw [push, if_neg space.ne]

theorem size_insert_le (m : Map κ ν) (k : κ) (v : ν) : size (m.insert k v) ≤ size m + 1 := by
  by_cases present : k ∈ m
  · rw [size_insert_of_mem present]; exact Nat.le_succ _
  · rw [size_insert_of_not_mem present]

/-- Every key the cache holds stands in `P` to its value. -/
def Holds (P : κ → ν → Prop) (cache : Cache κ ν) : Prop :=
  ∀ k v, cache.map.lookup k = some v → P k v

variable {P : κ → ν → Prop}

theorem Holds.empty : Holds P ({} : Cache κ ν) := by
  intro k v found
  simp at found

theorem Holds.insert {order : List κ} (h : cache.Holds P) {k : κ} {v : ν} (new : P k v) :
    Holds P ⟨cache.map.insert k v, order⟩ := by
  intro l w found
  by_cases same : l = k
  · subst same
    rw [AList.lookup_insert] at found
    cases found
    exact new
  · rw [AList.lookup_insert_ne same] at found
    exact h l w found

theorem Holds.dropOldest (h : cache.Holds P) : cache.dropOldest.Holds P := by
  unfold Cache.dropOldest
  split
  · exact h
  · rename_i front rest _
    intro k v found
    by_cases same : k = front
    · subst same
      rw [AList.lookup_erase] at found
      cases found
    · rw [AList.lookup_erase_ne same] at found
      exact h k v found

theorem Holds.set (h : cache.Holds P) {k : κ} {v : ν} (new : P k v) : (cache.set k v).Holds P :=
  h.insert new

theorem Holds.push (h : cache.Holds P) {k : κ} {v : ν} (new : P k v) :
    (cache.push capacity k v).Holds P := by
  unfold Cache.push
  split
  · exact h.dropOldest.insert new
  · exact h.insert new

/-- A change one caller may make: none, a new value, or a new key. -/
inductive Change (capacity : Nat) (before : Cache κ ν) : Cache κ ν → Prop where
  | keep : Change capacity before before
  | set {k : κ} (present : k ∈ before.map) (v : ν) : Change capacity before (before.set k v)
  | push {k : κ} (absent : k ∉ before.map) (v : ν) : Change capacity before (before.push capacity k v)

/-- The keys `after` holds and `before` does not. -/
def inserted (before after : Cache κ ν) : List κ :=
  after.map.keys.filter fun k => decide (k ∉ before.map)

theorem inserted_set {k : κ} (present : k ∈ cache.map) (v : ν) :
    cache.inserted (cache.set k v) = [] := by
  rw [inserted, List.filter_eq_nil_iff]
  intro l member
  simp only [decide_not, Bool.not_eq_true', decide_eq_false_iff_not, not_not]
  rw [← AList.mem_keys, set, AList.mem_insert] at member
  rcases member with same | member
  · exact same ▸ present
  · exact member

theorem inserted_self : cache.inserted cache = [] := by
  rw [inserted, List.filter_eq_nil_iff]
  intro k member
  simpa using AList.mem_keys.2 member

/-- The queue lists the keys of the map, at most `capacity` of them, and they are the
last of all the keys inserted so far, in that order. -/
structure Bounded (cache : Cache κ ν) (capacity : Nat) (inserted : List κ) : Prop where
  size_le : size cache.map ≤ capacity
  lists : ListsKeys cache.order cache.map
  recent : cache.order <:+ inserted

theorem Bounded.empty : Bounded ({} : Cache κ ν) capacity [] :=
  ⟨by simp, ListsKeys.nil, List.suffix_rfl⟩

variable {log : List κ}

/-- Dropping the oldest key of a full cache makes room. -/
theorem Bounded.dropOldest (h : cache.Bounded capacity log) (positive : 0 < capacity)
    (full : size cache.map = capacity) :
    size cache.dropOldest.map + 1 = capacity ∧
      ListsKeys cache.dropOldest.order cache.dropOldest.map ∧ cache.dropOldest.order <:+ log ∧
      ∀ k, k ∈ cache.dropOldest.map → k ∈ cache.map := by
  obtain ⟨map, order⟩ := cache
  cases order with
  | nil =>
      have : 0 = size map := h.lists.length_eq
      dsimp only at full
      omega
  | cons front rest =>
      have lists : ListsKeys (front :: rest) map := h.lists
      have recent : front :: rest <:+ log := h.recent
      refine ⟨(size_erase lists.front_mem).trans full, lists.pop,
        (List.suffix_cons front rest).trans recent, ?_⟩
      intro k member
      exact (AList.mem_erase.1 member).2

theorem Bounded.push (h : cache.Bounded capacity log) (positive : 0 < capacity) {k : κ}
    (absent : k ∉ cache.map) (v : ν) :
    (cache.push capacity k v).Bounded capacity (log ++ [k]) ∧
      cache.inserted (cache.push capacity k v) = [k] := by
  have pushed : ∀ room : Cache κ ν, size room.map + 1 ≤ capacity → ListsKeys room.order room.map →
      room.order <:+ log → (∀ l, l ∈ room.map → l ∈ cache.map) →
      Bounded ⟨room.map.insert k v, room.order ++ [k]⟩ capacity (log ++ [k]) ∧
        cache.inserted ⟨room.map.insert k v, room.order ++ [k]⟩ = [k] := by
    intro room space lists recent kept
    have new : k ∉ room.map := fun member => absent (kept k member)
    refine ⟨⟨(size_insert_le _ _ _).trans space, lists.push new v, ?_⟩, ?_⟩
    · obtain ⟨older, rfl⟩ := recent
      exact ⟨older, by simp⟩
    · have others : ∀ l ∈ room.map.keys, ¬ decide (l ∉ cache.map) = true := by
        intro l member
        simpa using kept l (AList.mem_keys.2 member)
      rw [inserted, AList.keys_insert, List.erase_of_not_mem fun member => new (AList.mem_keys.2 member),
        List.filter_cons_of_pos (by simpa using absent), List.filter_eq_nil_iff.2 others]
  unfold Cache.push
  split
  · rename_i full
    obtain ⟨space, lists, recent, kept⟩ := h.dropOldest positive full
    exact pushed _ space.le lists recent kept
  · rename_i space
    have := h.size_le
    exact pushed cache (by omega) h.lists h.recent fun _ member => member

theorem Bounded.set (h : cache.Bounded capacity log) {k : κ} (present : k ∈ cache.map) (v : ν) :
    (cache.set k v).Bounded capacity log :=
  ⟨(size_insert_of_mem present v).trans_le h.size_le, h.lists.update present v, h.recent⟩

/-- A change keeps the cache bounded, with what it inserted as the youngest key. -/
theorem Bounded.change {after : Cache κ ν} (h : cache.Bounded capacity log) (positive : 0 < capacity)
    (changed : Change capacity cache after) :
    after.Bounded capacity (log ++ cache.inserted after) := by
  cases changed with
  | keep => rwa [inserted_self, List.append_nil]
  | set present v =>
      rw [inserted_set present, List.append_nil]
      exact h.set present v
  | push absent v =>
      obtain ⟨bounded, inserts⟩ := h.push positive absent v
      rwa [inserts]

/-! ## The cache of a state machine -/

variable {σ ε : Type} {step : σ → ε → σ} {view : σ → Cache κ ν}

/-- The keys inserted into `view` along a run, oldest first. -/
def insertions (step : σ → ε → σ) (view : σ → Cache κ ν) : σ → List ε → List κ
  | _, [] => []
  | s, e :: rest => (view s).inserted (view (step s e)) ++ insertions step view (step s e) rest

/-- A cache whose every step is one change stays bounded along a run. -/
theorem Bounded.run {limit : σ → Nat} (fixed : ∀ s e, limit (step s e) = limit s)
    (changes : ∀ s e, Change (limit s) (view s) (view (step s e))) (events : List ε) {s : σ}
    (positive : 0 < limit s) (start : (view s).Bounded (limit s) log) :
    (view (events.foldl step s)).Bounded (limit s) (log ++ insertions step view s events) := by
  induction events generalizing s log with
  | nil => rwa [insertions, List.append_nil]
  | cons e rest ih =>
      have next := start.change positive (changes s e)
      rw [← fixed s e] at next positive ⊢
      rw [insertions, ← List.append_assoc]
      exact ih positive next

end Cache

end Reb.Theory.FifoMap
