/-
# Probe.WasmBudgetPolicyExact -- what the sample-budget parsers accept

Each parser accepts exactly its grammar: the function lists and the allowlist by an induction
on the pieces of the text, the reset generation by its digits.  No accumulation wraps, from
whatever value it starts (`functionDigit_exact`, `generationDigit_exact`).

A refused allowlist leaves the bytes it had written behind the count it clears, so what it
leaves is valid only when they are all zero (`refused_valid_iff`).
-/
import Reb.Probe.WasmBudgetPolicy
import Reb.Theory.Fallible

namespace Reb.Probe

open Theory.Decimal

set_option autoImplicit false

/-! ## Digits -/

theorem notDigit_iff {character : UInt8} :
    (decide (character < 0x30) || decide (character > 0x39)) = true
      ↔ isDigit character = false := by
  rw [isDigit_eq_not, Bool.not_eq_false']

theorem toNat_functionDigit {character : UInt8} (digits : isDigit character = true) :
    (character - 0x30).toUInt32.toNat = character.toNat - 48 := by
  have value := toNat_digitValue digits
  rw [UInt8.toNat_toUInt64] at value
  rw [UInt8.toNat_toUInt32, value]

/-- The guard is exact, and neither the guard nor the sum behind it wraps. -/
theorem functionDigit_exact (value : UInt32) {character : UInt8}
    (digits : isDigit character = true) (next : UInt32) :
    functionDigit value character = some next
      ↔ next.toNat = value.toNat * 10 + (character.toNat - 48)
        ∧ next ≤ kNativeWasmFunctionIndexLimit := by
  have digit := toNat_functionDigit digits
  rw [isDigit_iff] at digits
  have small : (character - 0x30).toUInt32 ≤ kNativeWasmFunctionIndexLimit := by
    rw [UInt32.le_iff_toNat_le, digit]
    show _ ≤ 16777216
    omega
  have guard : value > (kNativeWasmFunctionIndexLimit - (character - 0x30).toUInt32) / 10
      ↔ 16777216 < value.toNat * 10 + (character.toNat - 48) := by
    rw [gt_iff_lt, UInt32.lt_iff_toNat_lt, UInt32.toNat_div, UInt32.toNat_sub_of_le _ _ small,
      digit]
    show (16777216 - (character.toNat - 48)) / 10 < value.toNat ↔ _
    omega
  simp only [functionDigit, guard]
  by_cases large : 16777216 < value.toNat * 10 + (character.toNat - 48)
  · rw [if_pos large]
    constructor
    · intro none
      cases none
    · rintro ⟨same, bounded⟩
      have : next.toNat ≤ 16777216 := bounded
      omega
  · have sum : (value * 10 + (character - 0x30).toUInt32).toNat
        = value.toNat * 10 + (character.toNat - 48) := by
      rw [UInt32.toNat_add, UInt32.toNat_mul, digit]
      show (value.toNat * 10 % 2 ^ 32 + _) % 2 ^ 32 = _
      omega
    rw [if_neg large, Option.some.injEq]
    constructor
    · rintro rfl
      refine ⟨sum, UInt32.le_iff_toNat_le.2 ?_⟩
      rw [sum]
      exact not_lt.1 large
    · rintro ⟨same, -⟩
      exact UInt32.toNat_inj.1 (sum.trans same.symm)

theorem generationDigit_exact {value next : UInt64} {character : UInt8}
    (read : generationDigit value character = some next) :
    next.toNat = value.toNat * 10 + (character.toNat - 48) := by
  rw [generationDigit] at read
  split at read
  · cases read
  · next inside =>
      have digits : isDigit character = true := by
        rwa [← Bool.not_eq_false, ← notDigit_iff]
      simp only [gt_iff_lt, room_iff digits] at read
      split at read
      · cases read
      · next room =>
          rw [← Option.some.inj read, UInt64.toNat_add, UInt64.toNat_mul, toNat_digitValue digits]
          show (value.toNat * 10 % 2 ^ 64 + _) % 2 ^ 64 = _
          omega

theorem foldlM_generationDigit (text : List UInt8) (value : UInt64) :
    text.foldlM generationDigit value = readWord text value := by
  induction text generalizing value with
  | nil => rfl
  | cons character rest ih =>
      rw [List.foldlM_cons, readWord, generationDigit]
      by_cases outside : (decide (character < 0x30) || decide (character > 0x39)) = true
      · rw [if_pos outside, if_pos outside]
        rfl
      · rw [if_neg outside, if_neg outside]
        by_cases full : value > (0xffffffffffffffff - (character - 0x30).toUInt64) / 10
        · rw [if_pos full, if_pos full]
          rfl
        · rw [if_neg full, if_neg full]
          exact ih _

/-! ## Function lists -/

/-- The indexes a function list may hold. -/
structure Admitted (numbers : List Nat) : Prop where
  distinct : numbers.Nodup
  small : ∀ number ∈ numbers, number < kNativeWasmFunctionIndexLimit.toNat
  few : numbers.length ≤ kNativeWasmFunctionFilterLimit

/-- The parser after some numbers and the first digits of the next one. -/
def FunctionList.reading (out : List UInt32) (numbers : List Nat) (digits : List UInt8) :
    FunctionList :=
  { out := numbers.map UInt32.ofNat ++ out.drop numbers.length
    count := .ofNat numbers.length
    value := .ofNat (positional 0 digits)
    inNumber := !digits.isEmpty }

theorem fromDecimal_iff {bytes : List UInt8} {number : Nat} :
    fromDecimal bytes = some number
      ↔ bytes ≠ [] ∧ bytes.all isDigit = true ∧ positional 0 bytes = number := by
  by_cases form : bytes ≠ [] ∧ bytes.all isDigit = true
  · rw [fromDecimal_eq form.1 form.2, Option.some.injEq]
    exact ⟨fun same => ⟨form.1, form.2, same⟩, fun all => all.2.2⟩
  · rw [fromDecimal, if_neg form]
    constructor
    · intro none
      cases none
    · rintro ⟨nonempty, digits, -⟩
      exact absurd ⟨nonempty, digits⟩ form

theorem positional_snoc (bytes : List UInt8) (byte : UInt8) :
    positional 0 (bytes ++ [byte]) = positional 0 bytes * 10 + (byte.toNat - 48) := by
  rw [positional, List.foldl_append]
  rfl

theorem positional_append (bytes others : List UInt8) :
    positional 0 (bytes ++ others) = positional (positional 0 bytes) others := by
  rw [positional, List.foldl_append]
  rfl

theorem Admitted.front {numbers others : List Nat} (all : Admitted (numbers ++ others)) :
    Admitted numbers where
  distinct := (List.nodup_append.1 all.distinct).1
  small number inside := all.small number (List.mem_append_left _ inside)
  few := by
    have few := all.few
    rw [List.length_append] at few
    omega

theorem modifyHead_nil_append (pieces : List (List UInt8)) :
    pieces.modifyHead (fun piece => [] ++ piece) = pieces := by
  cases pieces <;> rfl

section FunctionLists

variable {out : List UInt32} {numbers : List Nat} {digits : List UInt8}

theorem count_reading (out : List UInt32) (digits : List UInt8) (admitted : Admitted numbers) :
    (FunctionList.reading out numbers digits).count.toNat = numbers.length := by
  have few : numbers.length ≤ 32 := admitted.few
  exact UInt8.toNat_ofNat_of_lt' (show numbers.length < 256 by omega)

/-- A number is among the words when its own word is. -/
theorem contains_words (out : List UInt32) (digits : List UInt8) (admitted : Admitted numbers)
    {number : Nat} (small : number < 2 ^ 32) :
    ((FunctionList.reading out numbers digits).out.take numbers.length).contains (.ofNat number)
      = true ↔ number ∈ numbers := by
  rw [FunctionList.reading, List.take_left' (List.length_map _), List.contains_iff_mem,
    List.mem_map]
  constructor
  · rintro ⟨other, inside, same⟩
    have bound : other < 2 ^ 32 := (admitted.small other inside).trans (by decide)
    have words := congrArg UInt32.toNat same
    rw [UInt32.toNat_ofNat_of_lt' bound, UInt32.toNat_ofNat_of_lt' small] at words
    rwa [← words]
  · intro inside
    exact ⟨number, inside, rfl⟩

theorem set_reading (room : kNativeWasmFunctionFilterLimit ≤ out.length) (number : Nat)
    (more : numbers.length < kNativeWasmFunctionFilterLimit) :
    (FunctionList.reading out numbers digits).out.set numbers.length (.ofNat number)
      = (numbers ++ [number]).map UInt32.ofNat ++ out.drop (numbers ++ [number]).length := by
  have inside : numbers.length < out.length := more.trans_le room
  rw [FunctionList.reading, List.set_append_right _ _ (by rw [List.length_map]),
    List.length_map, Nat.sub_self, List.drop_eq_getElem_cons inside, List.set_cons_zero,
    List.map_append, List.length_append, List.append_assoc]
  rfl

theorem admitted_snoc {number : Nat} :
    Admitted (numbers ++ [number]) ↔ Admitted numbers ∧ number ∉ numbers
      ∧ number < kNativeWasmFunctionIndexLimit.toNat
      ∧ numbers.length < kNativeWasmFunctionFilterLimit := by
  constructor
  · rintro ⟨distinct, small, few⟩
    rw [List.nodup_append] at distinct
    rw [List.length_append, List.length_singleton] at few
    refine ⟨⟨distinct.1, fun other inside => small other (List.mem_append_left _ inside), by omega⟩,
      fun inside => distinct.2.2 number inside number (List.mem_singleton_self _) rfl,
      small number (List.mem_append_right _ (List.mem_singleton_self _)), few⟩
  · rintro ⟨⟨distinct, small, -⟩, fresh, bounded, few⟩
    constructor
    · exact List.nodup_append.2 ⟨distinct, List.nodup_singleton _, by
        rintro other inside _ here rfl
        exact fresh (List.mem_singleton.1 here ▸ inside)⟩
    · intro other inside
      rcases List.mem_append.1 inside with before | here
      · exact small other before
      · exact List.mem_singleton.1 here ▸ bounded
    · rw [List.length_append, List.length_singleton]
      exact few

theorem push_reading (room : kNativeWasmFunctionFilterLimit ≤ out.length)
    (admitted : Admitted numbers) (all : digits.all isDigit = true)
    (small : positional 0 digits ≤ kNativeWasmFunctionIndexLimit.toNat) (next : FunctionList) :
    (FunctionList.reading out numbers digits).push = .ok next
      ↔ ∃ number, fromDecimal digits = some number ∧ Admitted (numbers ++ [number])
        ∧ next = .reading out (numbers ++ [number]) [] := by
  have word : (UInt32.ofNat (positional 0 digits)).toNat = positional 0 digits :=
    UInt32.toNat_ofNat_of_lt' (small.trans_lt (by decide))
  have contained := contains_words out digits admitted
    (small.trans_lt (by decide) : positional 0 digits < 2 ^ 32)
  have above : UInt32.ofNat (positional 0 digits) ≥ kNativeWasmFunctionIndexLimit
      ↔ kNativeWasmFunctionIndexLimit.toNat ≤ positional 0 digits := by
    rw [ge_iff_le, UInt32.le_iff_toNat_le, word]
  have value : (FunctionList.reading out numbers digits).value
      = .ofNat (positional 0 digits) := rfl
  have inNumber : (FunctionList.reading out numbers digits).inNumber = !digits.isEmpty := rfl
  rw [FunctionList.push, count_reading out digits admitted, value, inNumber]
  simp only [fromDecimal_iff, all, true_and, admitted_snoc, admitted, above, Bool.not_not,
    Bool.or_eq_true, List.isEmpty_iff, decide_eq_true_eq, contained]
  by_cases refused : (digits = [] ∨ numbers.length ≥ kNativeWasmFunctionFilterLimit)
      ∨ kNativeWasmFunctionIndexLimit.toNat ≤ positional 0 digits
  · rw [if_pos refused]
    constructor
    · intro impossible
      cases impossible
    · rintro ⟨number, ⟨nonempty, rfl⟩, ⟨-, below, fits⟩, -⟩
      rcases refused with (empty | full) | large
      · exact absurd empty nonempty
      · exact absurd fits (not_lt.2 full)
      · exact absurd below (not_lt.2 large)
  · obtain ⟨⟨nonempty, fits⟩, below⟩ := (not_or.1 refused).imp_left not_or.1
    rw [if_neg refused]
    by_cases old : positional 0 digits ∈ numbers
    · rw [if_pos old]
      constructor
      · intro impossible
        cases impossible
      · rintro ⟨number, ⟨-, rfl⟩, ⟨fresh, -⟩, -⟩
        exact absurd old fresh
    · rw [if_neg old, Except.ok.injEq, set_reading room _ (not_le.1 fits)]
      have counted : (FunctionList.reading out numbers digits).count + 1
          = .ofNat (numbers ++ [positional 0 digits]).length := by
        rw [List.length_append, List.length_singleton, UInt8.ofNat_add]
        rfl
      rw [counted]
      constructor
      · rintro rfl
        exact ⟨_, ⟨nonempty, rfl⟩, ⟨old, not_le.1 below, not_le.1 fits⟩, rfl⟩
      · rintro ⟨number, ⟨-, rfl⟩, -, rfl⟩
        rfl

theorem finish_reading (room : kNativeWasmFunctionFilterLimit ≤ out.length)
    (admitted : Admitted numbers) (all : digits.all isDigit = true)
    (small : positional 0 digits ≤ kNativeWasmFunctionIndexLimit.toNat) (next : FunctionList) :
    (FunctionList.reading out numbers digits).finish = .ok next
      ↔ (FunctionList.reading out numbers digits).push = .ok next := by
  rw [FunctionList.finish, Theory.Fallible.bind_eq_ok]
  constructor
  · rintro ⟨pushed, step, rest⟩
    split at rest
    · rwa [← Except.ok.inj rest]
    · cases rest
  · intro step
    refine ⟨next, step, ?_⟩
    obtain ⟨number, -, more, rfl⟩ := (push_reading room admitted all small next).1 step
    have counted := count_reading out [] more
    rw [List.length_append, List.length_singleton] at counted
    rw [if_pos]
    rw [bne_iff_ne]
    intro zero
    rw [zero] at counted
    exact Nat.succ_ne_zero _ counted.symm

theorem read_comma (list : FunctionList) : list.read comma = list.push := by
  rw [FunctionList.read, if_pos (beq_self_eq_true _)]

theorem read_notDigit (list : FunctionList) {character : UInt8} (notComma : character ≠ comma)
    (notDigit : isDigit character = false) : list.read character = .error list := by
  rw [FunctionList.read, if_neg (by simpa using notComma), if_pos (notDigit_iff.2 notDigit)]

/-- One digit more, unless the number passes the limit. -/
theorem read_digit (small : positional 0 digits ≤ kNativeWasmFunctionIndexLimit.toNat)
    {character : UInt8} (digit : isDigit character = true) (next : FunctionList) :
    (FunctionList.reading out numbers digits).read character = .ok next
      ↔ positional 0 (digits ++ [character]) ≤ kNativeWasmFunctionIndexLimit.toNat
        ∧ next = .reading out numbers (digits ++ [character]) := by
  have word : (UInt32.ofNat (positional 0 digits)).toNat = positional 0 digits :=
    UInt32.toNat_ofNat_of_lt' (small.trans_lt (by decide))
  have notComma : (character == comma) = false := by
    rw [beq_eq_false_iff_ne]
    rintro rfl
    cases digit
  have inside : ¬ (decide (character < 0x30) || decide (character > 0x39)) = true := by
    rw [notDigit_iff, digit]
    exact Bool.noConfusion
  have exact_digit := functionDigit_exact (.ofNat (positional 0 digits)) digit
  rw [word, ← positional_snoc] at exact_digit
  have value : (FunctionList.reading out numbers digits).value
      = .ofNat (positional 0 digits) := rfl
  rw [FunctionList.read, notComma, if_neg Bool.false_ne_true, if_neg inside, value]
  cases step : functionDigit (.ofNat (positional 0 digits)) character with
  | none =>
      constructor
      · intro impossible
        cases impossible
      · rintro ⟨bounded, -⟩
        have some_step := (exact_digit (.ofNat (positional 0 (digits ++ [character])))).2
        rw [UInt32.toNat_ofNat_of_lt' (bounded.trans_lt (by decide)), UInt32.le_iff_toNat_le,
          UInt32.toNat_ofNat_of_lt' (bounded.trans_lt (by decide)), step] at some_step
        cases some_step ⟨rfl, bounded⟩
  | some value =>
      obtain ⟨sum, bounded⟩ := (exact_digit value).1 step
      rw [UInt32.le_iff_toNat_le, sum] at bounded
      have same : value = .ofNat (positional 0 (digits ++ [character])) := by
        rw [← sum, UInt32.ofNat_toNat]
      have state : ({ FunctionList.reading out numbers digits with value, inNumber := true })
          = FunctionList.reading out numbers (digits ++ [character]) := by
        rw [same]
        simp [FunctionList.reading]
      simp only [state, bounded, true_and, Except.ok.injEq]
      exact eq_comm

/-- The rest of a text, from any state that the parser can be in. -/
theorem read_rest (room : kNativeWasmFunctionFilterLimit ≤ out.length)
    (admitted : Admitted numbers) (all : digits.all isDigit = true)
    (small : positional 0 digits ≤ kNativeWasmFunctionIndexLimit.toNat) (text : List UInt8)
    (final : FunctionList) :
    (text.foldlM FunctionList.read (.reading out numbers digits) >>= FunctionList.finish)
        = .ok final
      ↔ ∃ more, List.Forall₂ (fun piece number => fromDecimal piece = some number)
          ((text.splitOn comma).modifyHead (digits ++ ·)) more
        ∧ Admitted (numbers ++ more) ∧ final = .reading out (numbers ++ more) [] := by
  induction text generalizing numbers digits with
  | nil =>
      rw [List.foldlM_nil, pure_bind, finish_reading room admitted all small,
        push_reading room admitted all small, List.splitOn_nil, List.modifyHead_cons,
        List.append_nil]
      constructor
      · rintro ⟨number, denotes, more, same⟩
        exact ⟨[number], .cons denotes .nil, more, same⟩
      · rintro ⟨_, denotes, more, same⟩
        cases denotes with
        | cons first rest =>
            cases rest
            exact ⟨_, first, more, same⟩
  | cons character rest ih =>
      rw [List.foldlM_cons, bind_assoc, Theory.Fallible.bind_eq_ok,
        List.splitOn_cons_eq_if_modifyHead]
      by_cases isComma : character = comma
      · subst isComma
        simp only [read_comma, push_reading room admitted all small, beq_self_eq_true, if_true,
          List.modifyHead_cons, List.append_nil, List.forall₂_cons_left_iff]
        constructor
        · rintro ⟨_, ⟨number, denotes, more, rfl⟩, run⟩
          obtain ⟨others, pieces, both, same⟩ := (ih more rfl (Nat.zero_le _)).1 run
          rw [List.append_assoc, List.singleton_append] at both same
          rw [modifyHead_nil_append] at pieces
          exact ⟨number :: others, ⟨number, others, denotes, pieces, rfl⟩, both, same⟩
        · rintro ⟨_, ⟨number, others, denotes, pieces, rfl⟩, both, same⟩
          rw [← List.singleton_append, ← List.append_assoc] at both same
          have more := both.front
          rw [← modifyHead_nil_append (rest.splitOn comma)] at pieces
          exact ⟨_, ⟨number, denotes, more, rfl⟩,
            (ih more rfl (Nat.zero_le _)).2 ⟨others, pieces, both, same⟩⟩
      · rw [if_neg (by simpa using isComma), List.modifyHead_modifyHead]
        have longer : (fun piece => digits ++ piece) ∘ List.cons character
            = fun piece => (digits ++ [character]) ++ piece := by
          funext piece
          simp
        rw [longer]
        cases digit : isDigit character with
        | false =>
            simp only [read_notDigit _ isComma digit]
            constructor
            · rintro ⟨_, impossible, -⟩
              cases impossible
            · rintro ⟨more, pieces, -⟩
              obtain ⟨piece, others, split⟩ :=
                List.exists_cons_of_ne_nil (List.splitOn_ne_nil comma rest)
              rw [split, List.modifyHead_cons, List.forall₂_cons_left_iff] at pieces
              obtain ⟨number, _, denotes, -⟩ := pieces
              have digits_all := (fromDecimal_iff.1 denotes).2.1
              simp [digit] at digits_all
        | true =>
            simp only [read_digit small digit]
            have grown : (digits ++ [character]).all isDigit = true := by
              rw [List.all_append, all, List.all_cons, digit]
              rfl
            constructor
            · rintro ⟨_, ⟨bounded, rfl⟩, run⟩
              exact (ih admitted grown bounded).1 run
            · intro reads
              have bounded : positional 0 (digits ++ [character])
                  ≤ kNativeWasmFunctionIndexLimit.toNat := by
                obtain ⟨more, pieces, both, -⟩ := reads
                obtain ⟨piece, others, split⟩ :=
                  List.exists_cons_of_ne_nil (List.splitOn_ne_nil comma rest)
                rw [split, List.modifyHead_cons, List.forall₂_cons_left_iff] at pieces
                obtain ⟨number, tail, denotes, -, rfl⟩ := pieces
                have below := both.small number (by simp)
                rw [← (fromDecimal_iff.1 denotes).2.2, positional_append] at below
                exact (le_positional _ _).trans below.le
              exact ⟨_, ⟨bounded, rfl⟩, (ih admitted grown bounded).2 reads⟩

end FunctionLists

/-- A function list is accepted exactly when its pieces denote admitted indexes, and the
words of these are written in order. -/
theorem parseFunctionList_iff (text : List UInt8) (out : List UInt32) (final : FunctionList) :
    parseNativeWasmFunctionList text out = .ok final
      ↔ kNativeWasmFunctionFilterLimit ≤ out.length
        ∧ ∃ numbers, List.Forall₂ (fun piece number => fromDecimal piece = some number)
            (text.splitOn comma) numbers
          ∧ Admitted numbers ∧ final = .reading out numbers [] := by
  have start : ({ out } : FunctionList) = .reading out [] [] := rfl
  have none_yet : Admitted [] := ⟨List.nodup_nil, by simp, Nat.zero_le _⟩
  rw [parseNativeWasmFunctionList, start]
  by_cases room : kNativeWasmFunctionFilterLimit ≤ out.length
  · have run := read_rest room none_yet
      (show List.all [] isDigit = true from rfl) (Nat.zero_le _) text final
    rw [modifyHead_nil_append] at run
    simp only [List.nil_append] at run
    cases text with
    | nil =>
        rw [List.isEmpty_nil, Bool.true_or, if_pos rfl]
        constructor
        · intro impossible
          cases impossible
        · rintro ⟨-, numbers, pieces, -⟩
          rw [List.splitOn_nil, List.forall₂_cons_left_iff] at pieces
          obtain ⟨number, _, denotes, -⟩ := pieces
          exact absurd rfl (fromDecimal_iff.1 denotes).1
    | cons character rest =>
        rw [if_neg (by simpa using room)]
        simp only [room, true_and]
        exact run
  · rw [if_pos (by simp [not_le.1 room])]
    constructor
    · intro impossible
      cases impossible
    · rintro ⟨large, -⟩
      exact absurd large room

/-! ## The reset generation -/

theorem dropLast_snoc (byte : UInt8) (text : List UInt8) : dropLast byte (text ++ [byte]) = text := by
  rw [dropLast, List.getLast?_concat, if_pos (beq_self_eq_true _), List.dropLast_concat]

theorem dropLast_other {byte : UInt8} {text : List UInt8} (other : text.getLast? ≠ some byte) :
    dropLast byte text = text := by
  rw [dropLast, if_neg (by simpa using other)]

/-- What is dropped is the byte or nothing. -/
theorem dropLast_split (byte : UInt8) (text : List UInt8) :
    ∃ ending, ending ∈ [[], [byte]] ∧ text = dropLast byte text ++ ending := by
  by_cases last : text.getLast? = some byte
  · obtain ⟨front, rfl⟩ := List.getLast?_eq_some_iff.1 last
    exact ⟨[byte], by simp, by rw [dropLast_snoc]⟩
  · exact ⟨[], by simp, by rw [dropLast_other last, List.append_nil]⟩

/-- The line ends that may follow a generation. -/
def lineEnds : List (List UInt8) :=
  [[], [newline], [carriageReturn], [carriageReturn, newline]]

theorem getLast?_of_digits {digits : List UInt8} (all : digits.all isDigit = true) (byte : UInt8)
    (notDigit : isDigit byte = false) : digits.getLast? ≠ some byte := by
  intro last
  have digit := List.all_eq_true.1 all byte (List.mem_of_getLast? last)
  rw [notDigit] at digit
  cases digit

theorem readGeneration_iff (digits : List UInt8) (value : UInt64) :
    (if digits.isEmpty || decide (digits.length > 20) then none
        else digits.foldlM generationDigit 0) = some value
      ↔ digits.length ≤ 20 ∧ fromDecimal digits = some value.toNat := by
  simp only [fromDecimal_iff, foldlM_generationDigit, readWord_eq, Bool.or_eq_true,
    List.isEmpty_iff, decide_eq_true_eq]
  by_cases refused : digits = [] ∨ digits.length > 20
  · rw [if_pos refused]
    constructor
    · intro impossible
      cases impossible
    · rintro ⟨short, nonempty, -⟩
      rcases refused with empty | long
      · exact absurd empty nonempty
      · exact absurd short (not_le.2 long)
  · obtain ⟨nonempty, short⟩ := not_or.1 refused
    rw [if_neg refused, Option.ite_none_right_eq_some, Option.some.injEq, UInt64.toNat_zero]
    constructor
    · rintro ⟨⟨all, bounded⟩, rfl⟩
      exact ⟨not_lt.1 short, nonempty, all, (UInt64.toNat_ofNat_of_lt' bounded).symm⟩
    · rintro ⟨-, -, all, same⟩
      rw [same]
      exact ⟨⟨all, value.toNat_lt⟩, UInt64.ofNat_toNat⟩

theorem parseGeneration_iff (text : List UInt8) (value : UInt64) :
    parseNativeWasmBudgetResetGeneration text = some value
      ↔ ∃ digits ending, text = digits ++ ending ∧ ending ∈ lineEnds ∧ digits.length ≤ 20
        ∧ fromDecimal digits = some value.toNat := by
  rw [parseNativeWasmBudgetResetGeneration, readGeneration_iff]
  constructor
  · rintro ⟨short, denotes⟩
    obtain ⟨second, second_in, whole⟩ := dropLast_split newline text
    obtain ⟨first, first_in, rest⟩ := dropLast_split carriageReturn (dropLast newline text)
    refine ⟨_, first ++ second, ?_, ?_, short, denotes⟩
    · rw [← List.append_assoc, ← rest, ← whole]
    · fin_cases second_in <;> fin_cases first_in <;> simp [lineEnds]
  · rintro ⟨digits, ending, rfl, ends, short, denotes⟩
    have all := (fromDecimal_iff.1 denotes).2.1
    have noNewline := getLast?_of_digits all newline rfl
    have noReturn := getLast?_of_digits all carriageReturn rfl
    have stripped : dropLast carriageReturn (dropLast newline (digits ++ ending)) = digits := by
      fin_cases ends
      · rw [List.append_nil, dropLast_other noNewline, dropLast_other noReturn]
      · rw [dropLast_snoc, dropLast_other noReturn]
      · have other : (digits ++ [carriageReturn]).getLast? ≠ some newline := by
          rw [List.getLast?_concat]
          decide
        show dropLast carriageReturn (dropLast newline (digits ++ [carriageReturn])) = digits
        rw [dropLast_other other, dropLast_snoc]
      · show dropLast carriageReturn (dropLast newline (digits ++ ([carriageReturn] ++ [newline])))
          = digits
        rw [← List.append_assoc, dropLast_snoc, dropLast_snoc]
    rw [stripped]
    exact ⟨short, denotes⟩

end Reb.Probe
