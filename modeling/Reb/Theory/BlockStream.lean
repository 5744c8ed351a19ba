/-
# Theory.BlockStream -- bytes absorbed block by block

A stream fills a block and folds it into a state when it is full.  `fillLoop_eq`: whatever
the pieces, the state has folded the whole blocks of what came so far, and the rest waits
in the block.  `close_eq`: closing with a mark, zeros and a tail folds one more block or two,
as the padded message has them; so a stream has the value of a hash (`close_hash`).
-/
import Reb.Theory.Sha2

namespace Reb.Theory.BlockStream

open Reb.Theory.Sha2 (Family Hash bigEndian chunks compress padding wordAt zeros zeros_complete
  zeros_lt)

set_option autoImplicit false

variable {σ β : Type}

section Chunks

variable {size : Nat}

theorem chunks_of_lt {bytes : List β} (short : bytes.length < size) : chunks size bytes = [] := by
  rw [chunks, Nat.div_eq_of_lt short]
  rfl

theorem chunks_append {block : List β} (positive : 0 < size) (full : block.length = size)
    (more : List β) : chunks size (block ++ more) = block :: chunks size more := by
  have count : (block ++ more).length / size = more.length / size + 1 := by
    rw [List.length_append, full, Nat.add_comm, Nat.add_div_right _ positive]
  rw [chunks, count, List.range_succ_eq_map, List.map_cons, List.map_map, chunks]
  congr 1
  · rw [Nat.zero_mul, List.drop_zero, List.take_append_of_le_length full.ge, ← full,
      List.take_length]
  · refine List.map_congr_left fun i _ => ?_
    rw [Function.comp_apply, Nat.succ_eq_add_one, Nat.add_mul, Nat.one_mul, Nat.add_comm,
      ← List.drop_drop, ← full, List.drop_left]

theorem chunks_self {block : List β} (positive : 0 < size) (full : block.length = size) :
    chunks size block = [block] := by
  have one := chunks_append positive full []
  have none : chunks size ([] : List β) = [] := chunks_of_lt (by simpa using positive)
  rwa [List.append_nil, none] at one

end Chunks

/-- What waits behind the whole blocks. -/
def rest (size : Nat) (bytes : List β) : List β := bytes.drop (bytes.length / size * size)

theorem rest_of_lt {size : Nat} {bytes : List β} (short : bytes.length < size) :
    rest size bytes = bytes := by
  rw [rest, Nat.div_eq_of_lt short, Nat.zero_mul, List.drop_zero]

theorem rest_append {size : Nat} {block : List β} (positive : 0 < size)
    (full : block.length = size) (more : List β) : rest size (block ++ more) = rest size more := by
  rw [rest, List.length_append, full, Nat.add_comm, Nat.add_div_right _ positive, Nat.succ_mul,
    Nat.add_comm, ← List.drop_drop, ← full, List.drop_left, rest]

theorem length_rest {size : Nat} (bytes : List β) :
    (rest size bytes).length = bytes.length % size := by
  have split := Nat.div_add_mod' bytes.length size
  rw [rest, List.length_drop]
  omega

/-- The whole blocks and what waits behind them are everything. -/
theorem flatten_chunks {size : Nat} (positive : 0 < size) (bytes : List β) :
    (chunks size bytes).flatten ++ rest size bytes = bytes := by
  induction' count : bytes.length using Nat.strong_induction_on with n ih generalizing bytes
  rcases Nat.lt_or_ge bytes.length size with short | long
  · rw [chunks_of_lt short, rest_of_lt short]
    rfl
  · have full : (bytes.take size).length = size := by
      rw [List.length_take]
      omega
    have later := ih (bytes.drop size).length (by rw [List.length_drop]; omega) _ rfl
    have split : bytes = bytes.take size ++ bytes.drop size := (List.take_append_drop _ _).symm
    rw [split, chunks_append positive full, rest_append positive full, List.flatten_cons,
      List.append_assoc, later]

/-- Blocks in front are cut off as they stand. -/
theorem chunks_flatten_append {size : Nat} (positive : 0 < size) {blocks : List (List β)}
    (full : ∀ block ∈ blocks, block.length = size) (more : List β) :
    chunks size (blocks.flatten ++ more) = blocks ++ chunks size more := by
  induction blocks with
  | nil => rfl
  | cons block blocks ih =>
      obtain ⟨here, later⟩ := List.forall_mem_cons.1 full
      rw [List.flatten_cons, List.append_assoc, chunks_append positive here, ih later,
        List.cons_append]

/-- What waits is enough to go on from. -/
theorem rest_rest_append {size : Nat} (positive : 0 < size) (bytes more : List β) :
    rest size (rest size bytes ++ more) = rest size (bytes ++ more) := by
  have split := Nat.div_add_mod' bytes.length size
  have join : rest size bytes ++ more = (bytes ++ more).drop (bytes.length / size * size) := by
    rw [rest, List.drop_append_of_le_length (Nat.div_mul_le_self _ _)]
  have count : (bytes ++ more).length / size
      = bytes.length / size + (rest size bytes ++ more).length / size := by
    rw [List.length_append, List.length_append, length_rest, ← Nat.mul_add_div positive,
      ← Nat.add_assoc, Nat.mul_comm, split]
  rw [show rest size (bytes ++ more) = (bytes ++ more).drop _ from rfl, count, Nat.add_mul, ← List.drop_drop, ← join, ← rest]

section Loop

variable (size : Nat) (fold : σ → List β → σ)

/-- The loop that fills a block; every turn but the last completes one. -/
def fillLoop [DecidableEq β] : Nat → σ → List β → List β → σ × List β
  | 0, state, block, _ => (state, block)
  | turns + 1, state, block, data =>
      if data = [] then (state, block)
      else
        let copied := min data.length (size - block.length)
        let block := block ++ data.take copied
        if block.length = size then fillLoop turns (fold state block) [] (data.drop copied)
        else fillLoop turns state block (data.drop copied)

variable {size}

/-- However the bytes come in, the whole blocks are folded and the rest waits. -/
theorem fillLoop_eq [DecidableEq β] (turns : Nat) (state : σ) {block data : List β}
    (short : block.length < size) (enough : data.length < turns) :
    fillLoop size fold turns state block data
      = ((chunks size (block ++ data)).foldl fold state, rest size (block ++ data)) := by
  induction turns generalizing state block data with
  | zero => omega
  | succ turns ih =>
      rw [fillLoop]
      by_cases none : data = []
      · rw [if_pos none, none, List.append_nil, chunks_of_lt short, rest_of_lt short]
        rfl
      · rw [if_neg none]
        have some := List.length_pos_iff.2 none
        dsimp only
        rcases Nat.lt_or_ge data.length (size - block.length) with fits | fills
        · rw [Nat.min_eq_left fits.le, List.take_length, List.drop_length]
          have still : (block ++ data).length < size := by
            rw [List.length_append]
            omega
          rw [if_neg still.ne, ih state still (by simp; omega), List.append_nil]
        · have full : (block ++ data.take (size - block.length)).length = size := by
            rw [List.length_append, List.length_take]
            omega
          have split : block ++ data
              = (block ++ data.take (size - block.length)) ++ data.drop (size - block.length) := by
            rw [List.append_assoc, List.take_append_drop]
          rw [Nat.min_eq_right fills, if_pos full,
            ih _ (by simp; omega) (by rw [List.length_drop]; omega), List.nil_append, split,
            chunks_append (by omega) full, rest_append (by omega) full]
          rfl

end Loop

section Padding

variable {size : Nat} (fold : σ → List β → σ)

theorem fold_rest (positive : 0 < size) (state : σ) (bytes more : List β) :
    (chunks size (bytes ++ more)).foldl fold state
      = (chunks size (rest size bytes ++ more)).foldl fold ((chunks size bytes).foldl fold state) := by
  induction' count : bytes.length using Nat.strong_induction_on with n ih generalizing state bytes
  rcases Nat.lt_or_ge bytes.length size with short | long
  · rw [rest_of_lt short, chunks_of_lt short]
    rfl
  · have full : (bytes.take size).length = size := by
      rw [List.length_take]
      omega
    have split : bytes = bytes.take size ++ bytes.drop size := (List.take_append_drop _ _).symm
    rw [split, List.append_assoc, chunks_append positive full, chunks_append positive full,
      rest_append positive full, List.foldl_cons, List.foldl_cons]
    exact ih (bytes.drop size).length (by rw [List.length_drop]; omega) _ _ rfl

/-- A quotient from bounds on its multiple. -/
theorem quotient_eq {size q k total : Nat} (whole : size * q = total)
    (below : size * k < total + size) (above : total < size * (k + 1)) : q = k := by
  rw [← whole] at below above
  have upper := Nat.lt_of_mul_lt_mul_left above
  have lower : size * k < size * (q + 1) := by rwa [Nat.mul_succ]
  have lower := Nat.lt_of_mul_lt_mul_left lower
  omega

/-- A block closed by a mark, zeros and a tail: a block more when the tail has no room. -/
def close (size : Nat) (mark zero : β) (tail : List β) (state : σ) (block : List β) : σ :=
  let block := block ++ [mark]
  let (state, block) :=
    if block.length > size - tail.length then
      (fold state (block ++ List.replicate (size - block.length) zero), [])
    else (state, block)
  fold state (block ++ List.replicate (size - tail.length - block.length) zero ++ tail)

theorem close_eq {mark zero : β} {tail block : List β} {zeros : Nat} (state : σ)
    (short : block.length < size) (room : tail.length < size) (few : zeros < size)
    (complete : (block.length + 1 + zeros + tail.length) % size = 0) :
    close fold size mark zero tail state block
      = (chunks size (block ++ (mark :: List.replicate zeros zero ++ tail))).foldl fold state := by
  have whole := Nat.div_add_mod (block.length + 1 + zeros + tail.length) size
  rw [complete, Nat.add_zero] at whole
  rw [close]
  by_cases late : (block ++ [mark]).length > size - tail.length
  · rw [if_pos late]
    rw [List.length_append, List.length_singleton] at late
    have two : (block.length + 1 + zeros + tail.length) / size = 2 :=
      quotient_eq whole (by omega) (by omega)
    rw [two] at whole
    have split : block ++ (mark :: List.replicate zeros zero ++ tail)
        = (block ++ [mark] ++ List.replicate (size - (block ++ [mark]).length) zero)
          ++ (List.replicate (size - tail.length) zero ++ tail) := by
      have count : zeros = (size - (block ++ [mark]).length) + (size - tail.length) := by
        simp only [List.length_append, List.length_singleton]
        omega
      rw [count, List.replicate_add]
      simp only [List.append_assoc, List.cons_append, List.nil_append]
    rw [split, chunks_append (by omega) (by simp; omega), chunks_self (by omega) (by simp; omega)]
    simp
  · rw [if_neg late]
    rw [List.length_append, List.length_singleton] at late
    have one : (block.length + 1 + zeros + tail.length) / size = 1 :=
      quotient_eq whole (by omega) (by omega)
    rw [one] at whole
    have count : size - tail.length - (block ++ [mark]).length = zeros := by
      simp only [List.length_append, List.length_singleton]
      omega
    dsimp only
    rw [count, chunks_self (by omega) (by simp; omega)]
    simp

theorem length_chunk {block bytes : List β} (inside : block ∈ chunks size bytes) :
    block.length = size := by
  rw [chunks, List.mem_map] at inside
  obtain ⟨i, small, rfl⟩ := inside
  have room : (i + 1) * size ≤ bytes.length :=
    (Nat.mul_le_mul_right size (List.mem_range.1 small)).trans (Nat.div_mul_le_self _ _)
  rw [List.length_take, List.length_drop]
  rw [Nat.add_mul, Nat.one_mul] at room
  omega

end Padding

/-- A stream that folds the blocks of a hash function has its value when it is closed. -/
theorem close_hash {w : Nat} {family : Family w} {view : σ → Hash w} {fold : σ → List UInt8 → σ}
    (folds : ∀ state block, block.length = 2 * w →
      view (fold state block) = compress family (view state) (wordAt w block))
    (large : 4 ≤ w) (start : σ) (message : List UInt8) :
    view (close fold (2 * w) 0x80 0 (bigEndian (w / 4) (8 * message.length))
        ((chunks (2 * w) message).foldl fold start) (rest (2 * w) message))
      = Sha2.hash family (view start) message := by
  have tail : (bigEndian (w / 4) (8 * message.length)).length = w / 4 := by simp [bigEndian]
  have complete : ((rest (2 * w) message).length + 1 + zeros w message.length
      + (bigEndian (w / 4) (8 * message.length)).length) % (2 * w) = 0 := by
    rw [tail, length_rest, ← zeros_complete (by omega : 0 < w) message.length]
    have same : message.length % (2 * w) ≡ message.length [MOD 2 * w] := Nat.mod_modEq _ _
    have sum := ((same.add_right 1).add_right (zeros w message.length)).add_right (w / 4)
    rw [show message.length + 1 + w / 4 + zeros w message.length
      = message.length + 1 + zeros w message.length + w / 4 by omega]
    exact sum
  have short : (rest (2 * w) message).length < 2 * w := by
    rw [length_rest]
    exact Nat.mod_lt _ (by omega)
  rw [close_eq fold _ short (by omega) (zeros_lt (by omega) _) complete, ← fold_rest fold (by omega),
    Sha2.hash, padding]
  have run : ∀ blocks : List (List UInt8), (∀ block ∈ blocks, block.length = 2 * w) →
      ∀ state, view (blocks.foldl fold state)
        = blocks.foldl (fun value block => compress family value (wordAt w block)) (view state) := by
    intro blocks full
    induction blocks with
    | nil => exact fun _ => rfl
    | cons block blocks ih =>
        intro state
        rw [List.foldl_cons, List.foldl_cons, ih fun other later => full other (.tail _ later),
          folds state block (full block (.head _))]
  exact run _ (fun block inside => length_chunk inside) start

/-! ## Loops over a block -/

/-- A list extended word by word as a recurrence has it. -/
theorem extend_eq {α S : Type} (view : α → S) (spec : Nat → S) (default : α)
    (next : List α → Nat → α) (first : Nat)
    (step : ∀ words : List α, first ≤ words.length →
      (∀ t < words.length, view (words.getD t default) = spec t) →
        view (next words words.length) = spec words.length)
    (start : List α) (long : start.length = first)
    (known : ∀ t < first, view (start.getD t default) = spec t) (count : Nat) :
    ((List.range' first count).foldl (fun words t => words ++ [next words t]) start).length
        = first + count
      ∧ ∀ t < first + count, view (((List.range' first count).foldl
        (fun words t => words ++ [next words t]) start).getD t default) = spec t := by
  induction count with
  | zero => exact ⟨long, known⟩
  | succ count ih =>
      obtain ⟨length, entries⟩ := ih
      rw [List.range'_1_concat, List.foldl_append]
      refine ⟨by simp [length]; omega, fun t inside => ?_⟩
      have added := step ((List.range' first count).foldl
        (fun words t => words ++ [next words t]) start) (by omega) (by rwa [length])
      rw [length] at added
      rcases Nat.lt_or_ge t (first + count) with before | last
      · rw [List.foldl_cons, List.foldl_nil, List.getD_append _ _ _ _ (by omega)]
        exact entries t before
      · obtain rfl : t = first + count := by omega
        rw [List.foldl_cons, List.foldl_nil, List.getD_append_right _ _ _ _ (by omega), length,
          Nat.sub_self]
        exact added

theorem foldl_range_view {S T : Type} (view : S → T) (f : S → Nat → S) (g : T → Nat → T) (n : Nat)
    (step : ∀ s, ∀ t < n, view (f s t) = g (view s) t) (s : S) :
    view ((List.range n).foldl f s) = (List.range n).foldl g (view s) := by
  induction n with
  | zero => rfl
  | succ n ih =>
      rw [List.range_succ, List.foldl_append, List.foldl_append]
      simp only [List.foldl_cons, List.foldl_nil]
      rw [step _ n (Nat.lt_succ_self n), ih fun s t inside => step s t (by omega)]

theorem zip_eq_range {α γ : Type} (default : α) (default' : γ) {n : Nat} {as : List α} {cs : List γ}
    (length : as.length = n) (length' : cs.length = n) :
    as.zip cs = (List.range n).map fun t => (as.getD t default, cs.getD t default') := by
  apply List.ext_getElem
  · simp [length, length']
  · intro t here there
    simp only [List.length_map, List.length_range] at there
    simp [length, length', there]

theorem take_drop_eq_range {α : Type} (default : α) {bytes : List α} {k count : Nat}
    (inside : k + count ≤ bytes.length) :
    (bytes.drop k).take count = (List.range count).map fun j => bytes.getD (k + j) default := by
  apply List.ext_getElem
  · simp
    omega
  · intro j here there
    simp only [List.length_map, List.length_range] at there
    have known : k + j < bytes.length := by omega
    simp [known]

end Reb.Theory.BlockStream
