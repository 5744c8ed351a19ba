/-
# Theory.RingBuffer -- the newest items in a bounded store

A ring grows to its capacity and then overwrites its oldest item.  `Keeps` says what it
holds of the items stored so far: read from the next slot on and around, it is the newest
ones in their order.  Every store keeps that (`push_keeps`), and the newest few are at most
two stretches of slots (`newest_eq`).
-/
import Mathlib

namespace Reb.Theory

set_option autoImplicit false

structure RingBuffer (α : Type) where
  items : List α := []
  next : Nat := 0

namespace RingBuffer

variable {α : Type} {capacity : Nat} {ring : RingBuffer α} {stored : List α}

/-- Grow until full, then overwrite; the slot wraps at the capacity. -/
def push (capacity : Nat) (ring : RingBuffer α) (item : α) : RingBuffer α where
  items := if ring.items.length = capacity then ring.items.set ring.next item
    else ring.items ++ [item]
  next := if ring.next + 1 = capacity then 0 else ring.next + 1

/-- The items from the next slot on and around: the oldest first. -/
def inOrder (ring : RingBuffer α) : List α := ring.items.drop ring.next ++ ring.items.take ring.next

/-- What a ring holds of all that was stored. -/
structure Keeps (capacity : Nat) (ring : RingBuffer α) (stored : List α) : Prop where
  inside : ring.next < capacity
  length : ring.items.length = min capacity stored.length
  growing : ring.items.length < capacity → ring.next = ring.items.length
  order : ring.inOrder = stored.rtake capacity

theorem keeps_nil (positive : 0 < capacity) : Keeps capacity ({} : RingBuffer α) [] where
  inside := positive
  length := by simp
  growing := fun _ => rfl
  order := by simp [inOrder]

/-- While a ring grows it holds everything. -/
theorem Keeps.items_eq (keeps : Keeps capacity ring stored) (short : ring.items.length < capacity) :
    ring.items = stored := by
  have order := keeps.order
  have few : stored.length ≤ capacity := by
    have := keeps.length
    omega
  rwa [inOrder, keeps.growing short, List.drop_length, List.take_length, List.nil_append,
    List.rtake, Nat.sub_eq_zero_of_le few, List.drop_zero] at order

theorem Keeps.next_le (keeps : Keeps capacity ring stored) : ring.next ≤ ring.items.length := by
  have inside := keeps.inside
  rcases Nat.lt_or_ge ring.items.length capacity with short | full
  · exact (keeps.growing short).le
  · omega

/-- Overwriting drops the oldest item and takes the new one in behind. -/
theorem inOrder_set (inside : ring.next < ring.items.length) (item : α) :
    inOrder { items := ring.items.set ring.next item,
              next := if ring.next + 1 = ring.items.length then 0 else ring.next + 1 }
      = ring.inOrder.tail ++ [item] := by
  have cut : ring.items.drop ring.next
      = ring.items.get ⟨ring.next, inside⟩ :: ring.items.drop (ring.next + 1) :=
    List.drop_eq_getElem_cons inside
  have around : ring.inOrder.tail ++ [item]
      = ring.items.drop (ring.next + 1) ++ (ring.items.take ring.next ++ [item]) := by
    rw [inOrder, cut, List.cons_append, List.tail_cons, List.append_assoc]
  have taken : (ring.items.set ring.next item).take (ring.next + 1)
      = ring.items.take ring.next ++ [item] := by
    rw [List.take_add_one, List.take_set, List.set_eq_of_length_le (by simp),
      List.getElem?_set_self inside]
    rfl
  have dropped : (ring.items.set ring.next item).drop (ring.next + 1)
      = ring.items.drop (ring.next + 1) := List.drop_set_of_lt (Nat.lt_succ_self _)
  rw [around, inOrder]
  dsimp only
  by_cases last : ring.next + 1 = ring.items.length
  · rw [if_pos last, List.drop_zero, List.take_zero, List.append_nil,
      List.drop_eq_nil_of_le last.ge, List.nil_append, ← taken,
      List.take_of_length_le (by rw [List.length_set, last])]
  · rw [if_neg last, taken, dropped]

theorem rtake_concat {count : Nat} (positive : 0 < count) (long : count ≤ stored.length) (item : α) :
    (stored ++ [item]).rtake count = (stored.rtake count).tail ++ [item] := by
  obtain ⟨less, rfl⟩ : ∃ less, count = less + 1 := ⟨count - 1, by omega⟩
  rw [List.rtake_concat_succ, List.rtake, List.rtake, List.tail_drop]
  congr 2
  omega

/-- Every store keeps the newest items in order. -/
theorem push_keeps (keeps : Keeps capacity ring stored) (item : α) :
    Keeps capacity (ring.push capacity item) (stored ++ [item]) := by
  have inside := keeps.inside
  have length := keeps.length
  rcases Nat.lt_or_ge ring.items.length capacity with short | full
  · have items := keeps.items_eq short
    have next := keeps.growing short
    refine ⟨?_, ?_, ?_, ?_⟩
    · rw [push]
      dsimp only
      split
      · omega
      · omega
    · rw [push]
      simp only [if_neg short.ne, List.length_append, List.length_singleton]
      omega
    · rw [push]
      simp only [if_neg short.ne, List.length_append, List.length_singleton, next]
      intro still
      rw [if_neg still.ne]
    · have all : (stored ++ [item]).rtake capacity = stored ++ [item] := by
        rw [List.rtake, List.length_append, List.length_singleton, ← items,
          Nat.sub_eq_zero_of_le short, List.drop_zero]
      rw [push, inOrder, all, if_neg short.ne, next, ← items]
      dsimp only
      split
      · rw [List.drop_zero, List.take_zero, List.append_nil]
      · rw [List.drop_eq_nil_of_le (by simp), List.take_of_length_le (by simp), List.nil_append]
  · have exact_length : ring.items.length = capacity := by omega
    refine ⟨?_, ?_, ?_, ?_⟩
    · rw [push]
      dsimp only
      split
      · omega
      · omega
    · rw [push]
      simp only [if_pos exact_length, List.length_set, List.length_append, List.length_singleton]
      omega
    · rw [push]
      simp only [if_pos exact_length, List.length_set]
      omega
    · have overwritten := @inOrder_set _ ring (by omega) item
      rw [exact_length] at overwritten
      rw [push, if_pos exact_length, overwritten, keeps.order,
        rtake_concat (by omega) (by omega)]

/-- The newest items, as two stretches of slots. -/
def newest (ring : RingBuffer α) (count : Nat) : List α :=
  let start := if ring.next ≥ count then ring.next - count
    else ring.items.length - (count - ring.next)
  let firstCount := min count (ring.items.length - start)
  (ring.items.drop start).take firstCount ++ ring.items.take (count - firstCount)

theorem newest_inOrder {count : Nat} (few : count ≤ ring.items.length)
    (inside : ring.next ≤ ring.items.length) : ring.newest count = ring.inOrder.rtake count := by
  have length : ring.inOrder.length = ring.items.length := by
    rw [inOrder, List.length_append, List.length_drop, List.length_take]
    omega
  have stretches : ring.inOrder.rtake count = ring.items.drop (ring.next + (ring.items.length - count))
      ++ (ring.items.take ring.next).drop (ring.next - count) := by
    have skipped : ring.items.length - count - (ring.items.length - ring.next)
        = ring.next - count := by omega
    rw [List.rtake, length, inOrder, List.drop_append, List.length_drop, List.drop_drop, skipped]
  rw [stretches, newest]
  by_cases below : ring.next ≥ count
  · -- the newest items lie before the next slot
    have one : min count (ring.items.length - (ring.next - count)) = count := by omega
    have before : ring.next - (ring.next - count) = count := by omega
    have behind : ring.items.length ≤ ring.next + (ring.items.length - count) := by omega
    rw [if_pos below, one, Nat.sub_self, List.take_zero, List.append_nil,
      List.drop_eq_nil_of_le behind, List.nil_append, List.drop_take, before]
  · have two : min count (ring.items.length - (ring.items.length - (count - ring.next)))
        = count - ring.next := by omega
    have front : count - (count - ring.next) = ring.next := by omega
    have start : ring.items.length - (count - ring.next)
        = ring.next + (ring.items.length - count) := by omega
    have whole : ring.next - count = 0 := by omega
    rw [if_neg below, two, front, whole, List.drop_zero, start, List.take_of_length_le]
    rw [List.length_drop]
    omega

theorem rtake_rtake {count : Nat} (few : count ≤ capacity) :
    (stored.rtake capacity).rtake count = stored.rtake count := by
  rw [List.rtake, List.rtake, List.rtake, List.length_drop, List.drop_drop]
  congr 1
  omega

/-- The newest few of a ring are the newest few of all that was stored. -/
theorem newest_eq (keeps : Keeps capacity ring stored) {count : Nat}
    (few : count ≤ ring.items.length) : ring.newest count = stored.rtake count := by
  have most := keeps.length
  rw [newest_inOrder few keeps.next_le, keeps.order, rtake_rtake (by omega)]

end RingBuffer

end Reb.Theory
