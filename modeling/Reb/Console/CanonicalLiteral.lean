/-
# Console.CanonicalLiteral -- both sides accept the canonical IPv6 literals

Either side accepts a literal exactly when it is the canonical text of an address
(`canonicalIPv6_iff`, `canonicalIpv6_iff`).  What is accepted was compared with the text
that the loops write, and that is the canonical one (`written_canonical`); and the canonical
text of an address is read back as that address.
-/
import Reb.Console.DocumentStartOrigin

namespace Reb.Console.Origin

set_option autoImplicit false

open Theory.Decimal Theory.Ipv6 Theory.StringView Theory.Utf8

/-! ## The longest run of zeros -/

section Runs

variable {pieces : List Nat}

/-- What the search knows of the runs that start before a position. -/
structure Best (pieces : List Nat) (start best best_length : Nat) : Prop where
  positive : 1 ≤ best_length
  longest : ∀ other count, other < start → ZeroRun pieces other count →
    count ≤ best_length ∧ (count = best_length → 2 ≤ count → best ≤ other)
  found : best_length = 1 ∧ best = pieces.length ∨
    2 ≤ best_length ∧ ZeroRun pieces best best_length ∧ best < start

/-- The zeros at a position are a run, and no run goes beyond them. -/
theorem zeros_run (pieces : List Nat) (start : Nat) :
    ZeroRun pieces start ((pieces.drop start).takeWhile (· == 0)).length ∧
      ∀ other count, start ≤ other → other ≤ start + ((pieces.drop start).takeWhile (· == 0)).length →
        ZeroRun pieces other count →
        other + count ≤ start + ((pieces.drop start).takeWhile (· == 0)).length := by
  obtain ⟨zeros, rest, split, all, stop⟩ : ∃ zeros rest, pieces.drop start = zeros ++ rest ∧
      (∀ z ∈ zeros, z = 0) ∧ ∀ z ∈ rest.head?, z ≠ 0 := by
    refine ⟨(pieces.drop start).takeWhile (· == 0), (pieces.drop start).dropWhile (· == 0),
      List.takeWhile_append_dropWhile.symm, ?_, ?_⟩
    · intro z inside
      simpa using List.mem_takeWhile_imp inside
    · intro z first
      have := List.head?_dropWhile_not (· == 0) (pieces.drop start)
      rw [Option.mem_def.1 first] at this
      simpa using this
  have count : (pieces.drop start).takeWhile (· == 0) = zeros := by
    rw [split, List.takeWhile_append_of_pos (by simpa using all)]
    cases rest with
    | nil => simp
    | cons z rest => simp [stop z rfl]
  rw [count]
  constructor
  · intro i inside
    rw [← List.getElem?_drop, split, List.getElem?_append_left inside,
      List.getElem?_eq_getElem inside, all _ (List.getElem_mem inside)]
  · intro other length from_ until_ run
    by_contra beyond
    have last := run (start + zeros.length - other) (by omega)
    rw [show other + (start + zeros.length - other) = start + zeros.length by omega,
      ← List.getElem?_drop, split, List.getElem?_append_right (Nat.le_refl _), Nat.sub_self,
      ← List.head?_eq_getElem?] at last
    exact stop 0 last rfl

theorem Best.step_other {start best best_length : Nat} (known : Best pieces start best best_length)
    (other : pieces.getD start 0 ≠ 0) : Best pieces (start + 1) best best_length := by
  refine ⟨known.positive, ?_, ?_⟩
  · intro place count before run
    rcases Nat.lt_succ_iff_lt_or_eq.1 before with earlier | rfl
    · exact known.longest place count earlier run
    · rcases Nat.eq_zero_or_pos count with rfl | some
      · exact ⟨Nat.zero_le _, fun _ two => absurd two (by decide)⟩
      · have first := run 0 some
        rw [Nat.add_zero] at first
        rw [List.getD_eq_getElem?_getD, first] at other
        exact absurd rfl other
  · exact known.found.imp id fun ⟨two, run, before⟩ => ⟨two, run, Nat.lt_succ_of_lt before⟩

theorem Best.step_zeros {start best best_length : Nat} (known : Best pieces start best best_length)
    (some : 0 < ((pieces.drop start).takeWhile (· == 0)).length) :
    Best pieces (start + ((pieces.drop start).takeWhile (· == 0)).length)
      (if best_length < ((pieces.drop start).takeWhile (· == 0)).length then start else best)
      (max best_length ((pieces.drop start).takeWhile (· == 0)).length) := by
  obtain ⟨run, maximal⟩ := zeros_run pieces start
  generalize ((pieces.drop start).takeWhile (· == 0)).length = zeros at *
  refine ⟨Nat.le_trans known.positive (Nat.le_max_left ..), ?_, ?_⟩
  · intro place count before zero
    by_cases earlier : place < start
    · obtain ⟨small, first⟩ := known.longest place count earlier zero
      refine ⟨Nat.le_trans small (Nat.le_max_left ..), fun same two => ?_⟩
      split
      · omega
      · exact first (by omega) two
    · have inside := maximal place count (by omega) (by omega) zero
      refine ⟨by omega, fun same two => ?_⟩
      split
      · omega
      · rcases known.found with ⟨one, _⟩ | ⟨_, _, before⟩
        · omega
        · omega
  · by_cases longer : best_length < zeros
    · rw [if_pos longer, Nat.max_eq_right (Nat.le_of_lt longer)]
      have positive := known.positive
      exact .inr ⟨by omega, run, by omega⟩
    · rw [if_neg longer, Nat.max_eq_left (Nat.not_lt.1 longer)]
      exact known.found.imp id fun ⟨two, zero, before⟩ => ⟨two, zero, by omega⟩

theorem searchRuns_best (fuel : Nat) {start best best_length : Nat}
    (known : Best pieces start best best_length) (enough : pieces.length ≤ start + fuel) :
    ∃ stop, pieces.length ≤ stop ∧
      Best pieces stop (searchRuns pieces fuel start best best_length).1
        (searchRuns pieces fuel start best best_length).2 := by
  induction fuel generalizing start best best_length with
  | zero => exact ⟨start, enough, known⟩
  | succ fuel ih =>
      rw [searchRuns]
      split
      · next done => exact ⟨start, done, known⟩
      · next inside =>
          rw [Nat.not_le] at inside
          split
          · next other => exact ih (known.step_other other) (by omega)
          · next zero =>
              have some : 0 < ((pieces.drop start).takeWhile (· == 0)).length := by
                rw [List.drop_eq_getElem_cons inside, List.takeWhile_cons_of_pos]
                · exact Nat.succ_pos _
                · rw [List.getD_eq_getElem?_getD, List.getElem?_eq_getElem inside] at zero
                  simpa using zero
              have next_ := known.step_zeros some
              dsimp only
              rw [Nat.add_sub_cancel_left]
              split
              · next longer =>
                  rw [if_pos longer, Nat.max_eq_right (Nat.le_of_lt longer)] at next_
                  exact ih next_ (by omega)
              · next shorter =>
                  rw [if_neg shorter, Nat.max_eq_left (Nat.not_lt.1 shorter)] at next_
                  exact ih next_ (by omega)

/-- The search finds the first longest run, or that there is none. -/
theorem searchRuns_spec (pieces : List Nat) :
    let best := searchRuns pieces pieces.length 0 pieces.length 1
    best = (pieces.length, 1) ∧ (∀ start length, ¬ FirstLongest pieces start length) ∨
      FirstLongest pieces best.1 best.2 := by
  have initial : Best pieces 0 pieces.length 1 :=
    ⟨Nat.le_refl 1, fun _ _ before => absurd before (Nat.not_lt_zero _), .inl ⟨rfl, rfl⟩⟩
  obtain ⟨stop, past, positive, longest, found⟩ :=
    searchRuns_best pieces.length initial (by omega)
  have all (other count : Nat) (run : ZeroRun pieces other count) :
      count ≤ (searchRuns pieces pieces.length 0 pieces.length 1).2 ∧
        (count = (searchRuns pieces pieces.length 0 pieces.length 1).2 → 2 ≤ count →
          (searchRuns pieces pieces.length 0 pieces.length 1).1 ≤ other) := by
    rcases Nat.eq_zero_or_pos count with rfl | some
    · exact ⟨Nat.zero_le _, fun _ two => absurd two (by decide)⟩
    · have inside := run.within some
      exact longest other count (by omega) run
  dsimp only
  rcases found with ⟨one, none⟩ | ⟨two, run, _⟩
  · refine .inl ⟨Prod.ext none one, ?_⟩
    intro start length first
    have small := (all start length first.run).1
    have two := first.two
    omega
  · refine .inr ⟨two, run, fun other count zero => ?_⟩
    obtain ⟨small, first⟩ := all other count zero
    exact ⟨small, fun same => first same (by omega)⟩

end Runs

/-! ## The text that is written -/

theorem joined_cons (group : List UInt8) {groups : List (List UInt8)} (more : groups ≠ []) :
    joined (group :: groups) = group ++ colon :: joined groups := by
  rw [joined, List.intercalate_cons_of_ne_nil more, List.append_assoc]
  rfl

theorem joined_singleton (group : List UInt8) : joined [group] = group :=
  List.intercalate_singleton

section Writing

variable {hex : Nat → List UInt8} {pieces : List Nat} {best best_length : Nat}

/-- Behind the run, or where there is none, the pieces are joined by colons. -/
theorem writePieces_joined (fuel : Nat) {piece : Nat} (past : best < piece ∨ pieces.length ≤ best)
    (enough : pieces.length ≤ piece + fuel) :
    writePieces hex pieces best best_length fuel piece = joined ((pieces.drop piece).map hex) := by
  induction fuel generalizing piece with
  | zero =>
      rw [List.drop_eq_nil_of_le (by omega)]
      rfl
  | succ fuel ih =>
      rw [writePieces]
      split
      · next done =>
          rw [List.drop_eq_nil_of_le done]
          rfl
      · next inside =>
          rw [Nat.not_le] at inside
          rw [if_neg (by omega), ih (by omega) (by omega), List.drop_eq_getElem_cons inside,
            List.map_cons, List.getD_eq_getElem?_getD, List.getElem?_eq_getElem inside, Option.getD_some]
          by_cases last : piece + 1 < pieces.length
          · rw [if_pos last, joined_cons, List.append_assoc, List.singleton_append]
            rw [List.drop_eq_getElem_cons last]
            exact List.cons_ne_nil _ _
          · rw [if_neg last, List.drop_eq_nil_of_le (Nat.not_lt.1 last), List.append_nil, List.map_nil,
              joined_singleton]
            exact List.append_nil _

/-- Up to the run every piece has a colon behind it. -/
theorem writePieces_run (fuel : Nat) {piece : Nat} (before : piece ≤ best)
    (some : 0 < best_length) (within : best + best_length ≤ pieces.length)
    (enough : pieces.length ≤ piece + fuel) :
    writePieces hex pieces best best_length fuel piece
      = ((pieces.take best).drop piece).flatMap (fun group => hex group ++ [colon])
        ++ (if best = 0 then [colon, colon] else [colon])
        ++ joined ((pieces.drop (best + best_length)).map hex) := by
  induction fuel generalizing piece with
  | zero => omega
  | succ fuel ih =>
      rw [writePieces, if_neg (by omega)]
      rcases Nat.eq_or_lt_of_le before with rfl | earlier
      · have none : (pieces.take piece).drop piece = [] :=
          List.drop_eq_nil_of_le (List.length_take_le ..)
        rw [if_pos rfl, writePieces_joined fuel (by omega) (by omega), none]
        rfl
      · have inside : piece < (pieces.take best).length := by
          rw [List.length_take]
          omega
        rw [if_neg (by omega), if_pos (by omega), ih (by omega) (by omega),
          List.drop_eq_getElem_cons inside, List.flatMap_cons, List.getElem_take,
          List.getD_eq_getElem?_getD, List.getElem?_eq_getElem (by omega), Option.getD_some]
        simp only [List.append_assoc]

theorem flatMap_colon {groups : List Nat} (some : groups ≠ []) :
    groups.flatMap (fun group => hex group ++ [colon]) = joined (groups.map hex) ++ [colon] := by
  induction groups with
  | nil => exact absurd rfl some
  | cons group groups ih =>
      rw [List.flatMap_cons, List.map_cons]
      cases groups with
      | nil => simp [joined]
      | cons next groups =>
          rw [ih (List.cons_ne_nil _ _), List.map_cons, joined_cons _ (List.cons_ne_nil _ _),
            ← List.map_cons, List.append_assoc, List.append_assoc]
          rfl

/-- What the loops write is the canonical text. -/
theorem written_canonical (address : Address pieces)
    (digits : ∀ piece ∈ pieces, hex piece = hexText piece) :
    IsCanonical (written hex pieces) pieces := by
  have eight := address.eight
  have whole (part : List Nat) (sub : ∀ piece ∈ part, piece ∈ pieces) :
      part.map hex = part.map hexText :=
    List.map_congr_left fun piece inside => digits piece (sub piece inside)
  rw [written]
  rcases searchRuns_spec pieces with ⟨found, none⟩ | run
  · rw [found]
    simp only
    rw [writePieces_joined _ (.inr (Nat.le_refl _)) (by omega), List.drop_zero,
      whole _ fun _ inside => inside]
    exact .whole pieces none
  · generalize searchRuns pieces pieces.length 0 pieces.length 1 = best at run
    have two := run.two
    have within := run.run.within (by omega)
    rw [writePieces_run _ (Nat.zero_le _) (by omega) within (by omega), List.drop_zero,
      whole (pieces.drop _) fun _ inside => List.mem_of_mem_drop inside]
    have canonical := IsCanonical.short pieces best.1 best.2 run
    by_cases start : best.1 = 0
    · rw [start] at canonical ⊢
      exact canonical
    · rw [if_neg start, flatMap_colon, whole _ fun _ inside => List.mem_of_mem_take inside,
        List.append_assoc, List.append_assoc]
      · exact canonical
      · intro none
        have length := congrArg List.length none
        rw [List.length_take, List.length_nil] at length
        omega

end Writing

theorem shifted (piece shift : Nat) : (piece >>> shift) &&& 0xf = piece / 2 ^ shift % 16 := by
  rw [Nat.shiftRight_eq_div_pow]
  exact Nat.and_two_pow_sub_one_eq_mod _ 4

theorem hexDigits_skip {piece shift : Nat} (shifts : List Nat) (zero : piece / 2 ^ shift % 16 = 0)
    (more : shift ≠ 0) :
    Browser.hexDigits piece (shift :: shifts) true = Browser.hexDigits piece shifts true := by
  rw [Browser.hexDigits, shifted, if_pos ⟨rfl, zero, more⟩]

/-- Behind the leading zeros every digit is written. -/
theorem hexDigits_all (piece : Nat) (shifts : List Nat) :
    Browser.hexDigits piece shifts false
      = shifts.map fun shift => hexDigit (piece / 2 ^ shift % 16) := by
  induction shifts with
  | nil => rfl
  | cons shift shifts ih =>
      rw [Browser.hexDigits, if_neg (by simp), shifted, ih, List.map_cons]

theorem hexDigits_first {piece shift : Nat} (shifts : List Nat)
    (some : piece / 2 ^ shift % 16 ≠ 0 ∨ shift = 0) :
    Browser.hexDigits piece (shift :: shifts) true
      = (shift :: shifts).map fun shift => hexDigit (piece / 2 ^ shift % 16) := by
  rw [Browser.hexDigits, shifted, if_neg (fun skipped => some.elim (· skipped.2.1) skipped.2.2), hexDigits_all,
    List.map_cons]

theorem hexText_step {group : Nat} (large : ¬ group < 16) :
    hexText group = hexText (group / 16) ++ [hexDigit (group % 16)] := by
  rw [hexText, if_neg large]

theorem hexText_one {group : Nat} (small : group < 16) : hexText group = [hexDigit group] := by
  rw [hexText, if_pos small]

/-- The browser writes the digits of a piece as they are written by `{:x}`. -/
theorem hexDigits_eq {piece : Nat} (small : piece < 0x10000) :
    Browser.hexDigits piece [12, 8, 4, 0] true = hexText piece := by
  by_cases one : piece < 16
  · rw [hexDigits_skip _ (by omega) (by decide), hexDigits_skip _ (by omega) (by decide),
      hexDigits_skip _ (by omega) (by decide), hexDigits_first _ (.inr rfl), hexText_one one]
    simp [Nat.mod_eq_of_lt one]
  by_cases two : piece < 16 ^ 2
  · rw [hexDigits_skip _ (by omega) (by decide), hexDigits_skip _ (by omega) (by decide),
      hexDigits_first _ (.inl (by omega)), hexText_step one, hexText_one (by omega)]
    simp [Nat.mod_eq_of_lt (show piece / 16 < 16 by omega)]
  by_cases three : piece < 16 ^ 3
  · rw [hexDigits_skip _ (by omega) (by decide), hexDigits_first _ (.inl (by omega)),
      hexText_step one, hexText_step (by omega), hexText_one (by omega)]
    simp [Nat.div_div_eq_div_mul, Nat.mod_eq_of_lt (show piece / 256 < 16 by omega)]
  · rw [hexDigits_first _ (.inl (by omega)), hexText_step one, hexText_step (by omega),
      hexText_step (by omega), hexText_one (by omega)]
    simp [Nat.div_div_eq_div_mul, Nat.mod_eq_of_lt (show piece / 4096 < 16 by omega)]

/-! ## The text that is read -/

theorem groupDigit_hexDigit {digit : Nat} (small : digit < 16) :
    groupDigit (hexDigit digit) = some digit := by
  have all : ∀ d < 16, groupDigit (hexDigit d) = some d := by decide
  exact all digit small

/-- A digit that is read is a digit of the number it stands for. -/
theorem groupDigit_lt {character : UInt8} {digit : Nat} (read : groupDigit character = some digit) :
    digit < 16 := by
  have nine : (byte '0').toNat = 48 := by decide
  have six : (byte 'a').toNat = 97 ∧ (byte 'f').toNat = 102 := by decide
  unfold groupDigit at read
  split at read
  · next decimal =>
      rw [isDigit_iff] at decimal
      have := Option.some.inj read
      omega
  · split at read
    · next letter =>
        rw [UInt8.le_iff_toNat_le, UInt8.le_iff_toNat_le] at letter
        have := Option.some.inj read
        omega
    · cases read

/-- A text that does not go on with a digit. -/
def Stops (rest : List UInt8) : Prop := ∀ character ∈ rest.head?, groupDigit character = none

theorem readDigits_all (group : List UInt8) (rest : List UInt8) (stops : Stops rest)
    (digits : ∀ character ∈ group, ∃ digit < 16, character = hexDigit digit) (budget value count : Nat)
    (room : group.length < budget) :
    readDigits budget (group ++ rest) value count
      = (groupValue value group, count + group.length, rest) := by
  induction group generalizing budget value count with
  | nil =>
      obtain ⟨budget, rfl⟩ := Nat.exists_eq_add_of_lt room
      rw [List.nil_append, List.length_nil, Nat.zero_add]
      cases rest with
      | nil => rfl
      | cons character rest =>
          rw [readDigits, stops character rfl]
          rfl
  | cons character group ih =>
      obtain ⟨digit, small, rfl⟩ := digits character List.mem_cons_self
      obtain ⟨budget, rfl⟩ : ∃ more, budget = more + 1 := ⟨budget - 1, by omega⟩
      rw [List.length_cons] at room ⊢
      rw [List.cons_append, readDigits, groupDigit_hexDigit small]
      dsimp only
      rw [ih (fun other inside => digits other (List.mem_cons_of_mem _ inside)) budget _ _ (by omega),
        groupValue_cons, digitValue_hexDigit small, Option.getD_some, Nat.add_assoc, Nat.add_comm 1]

/-- A group of a piece is read as that piece. -/
theorem readDigits_hexText {piece : Nat} (small : piece < 0x10000) {rest : List UInt8}
    (stops : Stops rest) :
    readDigits 5 (hexText piece ++ rest) 0 0 = (piece, (hexText piece).length, rest) := by
  have short := (hexText_group small).short
  rw [readDigits_all _ _ stops (hexText_digits piece) 5 0 0 (by omega), groupValue_hexText,
    Nat.zero_add]

section Reading

variable {κ : Type} {unset : κ → Bool} {at_ : Nat → κ} {compress : κ}

theorem stops_nil : Stops [] := by
  intro character first
  cases first

theorem stops_colon (rest : List UInt8) : Stops (colon :: rest) := by
  intro character first
  have same : colon = character := Option.some.inj first
  subst same
  decide

/-- The last piece of a literal. -/
theorem readPieces_last {piece room : Nat} (small : piece < 0x10000) (read : List Nat) :
    readPieces unset at_ (room + 1) (hexText piece) read compress = some (read ++ [piece], compress) := by
  have digits := readDigits_hexText small stops_nil
  have group := hexText_group small
  have some := List.length_pos_iff.2 group.some
  rw [List.append_nil] at digits
  rw [readPieces, if_neg group.some, digits]
  dsimp only
  rw [if_neg (by have := group.short; omega)]

/-- A piece with a colon and another piece behind it. -/
theorem readPieces_next {piece room : Nat} (small : piece < 0x10000) (read : List Nat)
    {second : UInt8} (other : second ≠ colon) (rest : List UInt8) :
    readPieces unset at_ (room + 1) (hexText piece ++ colon :: second :: rest) read compress
      = readPieces unset at_ room (second :: rest) (read ++ [piece]) compress := by
  have digits := readDigits_hexText small (stops_colon (second :: rest))
  have group := hexText_group small
  have some := List.length_pos_iff.2 group.some
  rw [readPieces, if_neg (by simp), digits]
  dsimp only
  rw [if_neg (by have := group.short; omega), if_neg (by simp), if_neg other]

/-- A piece with a `::` behind it, the first one. -/
theorem readPieces_mark {piece room : Nat} (small : piece < 0x10000) (read : List Nat)
    (first : unset compress = true) (rest : List UInt8) :
    readPieces unset at_ (room + 1) (hexText piece ++ colon :: colon :: rest) read compress
      = readPieces unset at_ room rest (read ++ [piece]) (at_ (read.length + 1)) := by
  have digits := readDigits_hexText small (stops_colon (colon :: rest))
  have group := hexText_group small
  have some := List.length_pos_iff.2 group.some
  rw [readPieces, if_neg (by simp), digits]
  dsimp only
  rw [if_neg (by have := group.short; omega), if_neg (by simp), if_pos rfl, if_pos first]

/-- The text of a group begins with a digit. -/
theorem hexText_head (piece : Nat) : ∃ first rest, hexText piece = first :: rest ∧ first ≠ colon := by
  obtain ⟨first, rest, text⟩ := List.exists_cons_of_ne_nil (hexText_ne_nil piece)
  obtain ⟨digit, small, rfl⟩ := hexText_digits piece first (by rw [text]; exact List.mem_cons_self)
  refine ⟨_, rest, text, ?_⟩
  have all : ∀ d < 16, hexDigit d ≠ colon := by decide
  exact all digit small

theorem joined_head {pieces : List Nat} (some : pieces ≠ []) :
    ∃ first rest, joined (pieces.map hexText) = first :: rest ∧ first ≠ colon := by
  obtain ⟨piece, pieces, rfl⟩ := List.exists_cons_of_ne_nil some
  obtain ⟨first, rest, text, other⟩ := hexText_head piece
  rw [List.map_cons]
  cases pieces with
  | nil => exact ⟨first, rest, by rw [List.map_nil, joined_singleton, text], other⟩
  | cons next pieces =>
      rw [List.map_cons, joined_cons _ (List.cons_ne_nil _ _), text]
      exact ⟨first, _, rfl, other⟩

theorem readPieces_joined {pieces : List Nat} (small : ∀ piece ∈ pieces, piece < 0x10000) (room : Nat)
    (fits : pieces.length ≤ room) (read : List Nat) :
    readPieces unset at_ room (joined (pieces.map hexText)) read compress
      = some (read ++ pieces, compress) := by
  induction pieces generalizing room read with
  | nil =>
      rw [List.append_nil]
      cases room with
      | zero => rfl
      | succ room => rfl
  | cons piece pieces ih =>
      obtain ⟨room, rfl⟩ : ∃ more, room = more + 1 := ⟨room - 1, by
        rw [List.length_cons] at fits
        omega⟩
      have low := small piece List.mem_cons_self
      rw [List.map_cons]
      cases pieces with
      | nil => rw [List.map_nil, joined_singleton, readPieces_last low]
      | cons next pieces =>
          obtain ⟨first, rest, text, other⟩ := joined_head (List.cons_ne_nil next pieces)
          have more := ih (fun other inside => small other (List.mem_cons_of_mem _ inside)) room
            (Nat.le_of_succ_le_succ fits) (read ++ [piece])
          rw [text] at more
          rw [joined_cons _ (by simp), text, readPieces_next low read other rest, more,
            List.append_assoc]
          rfl

theorem readPieces_short {pieces : List Nat} (small : ∀ piece ∈ pieces, piece < 0x10000)
    (some : pieces ≠ []) (room : Nat) (fits : pieces.length ≤ room) (read : List Nat)
    (first : unset compress = true) (rest : List UInt8) :
    readPieces unset at_ room (joined (pieces.map hexText) ++ colon :: colon :: rest) read compress
      = readPieces unset at_ (room - pieces.length) rest (read ++ pieces)
          (at_ (read.length + pieces.length)) := by
  induction pieces generalizing room read with
  | nil => exact absurd rfl some
  | cons piece pieces ih =>
      obtain ⟨room, rfl⟩ : ∃ more, room = more + 1 := ⟨room - 1, by
        rw [List.length_cons] at fits
        omega⟩
      have low := small piece List.mem_cons_self
      rw [List.map_cons]
      cases pieces with
      | nil =>
          rw [List.map_nil, joined_singleton, readPieces_mark low read first]
          rfl
      | cons next pieces =>
          obtain ⟨start, more, text, other⟩ := joined_head (List.cons_ne_nil next pieces)
          have step := ih (fun other inside => small other (List.mem_cons_of_mem _ inside))
            (List.cons_ne_nil _ _) room (Nat.le_of_succ_le_succ fits) (read ++ [piece])
          rw [text, List.cons_append] at step
          rw [joined_cons _ (by simp), text, List.append_assoc, List.cons_append, List.cons_append,
            readPieces_next low read other, step, List.append_assoc, List.length_append,
            List.length_singleton, List.length_cons (a := piece), Nat.add_sub_add_right,
            Nat.add_assoc, Nat.add_comm 1]
          rfl

theorem readDigits_bound (budget : Nat) (text : List UInt8) (value count : Nat)
    (small : value < 16 ^ count) :
    (readDigits budget text value count).1 < 16 ^ (readDigits budget text value count).2.1 := by
  induction budget generalizing text value count with
  | zero => exact small
  | succ budget ih =>
      cases text with
      | nil => exact small
      | cons character text =>
          rw [readDigits]
          cases read : groupDigit character with
          | none => exact small
          | some digit =>
              have low := groupDigit_lt read
              refine ih text _ _ ?_
              rw [Nat.pow_succ]
              omega

/-- A group of at most four digits is a piece. -/
theorem readDigits_small {budget value digits : Nat} {text rest : List UInt8}
    (read : readDigits budget text 0 0 = (value, digits, rest)) (short : ¬ (digits = 0 ∨ 4 < digits)) :
    value < 0x10000 := by
  have bound := readDigits_bound budget text 0 0 (by decide)
  rw [read] at bound
  have most : 16 ^ digits ≤ 16 ^ 4 := Nat.pow_le_pow_right (by decide) (by omega)
  exact Nat.lt_of_lt_of_le bound most

/-- What is known of the pieces that are read. -/
structure PiecesRead (at_ : Nat → κ) (compress : κ) (most : Nat) (pieces : List Nat) (mark : κ) :
    Prop where
  short : pieces.length ≤ most
  small : ∀ piece ∈ pieces, piece < 0x10000
  marked : mark = compress ∨ ∃ k ≤ pieces.length, mark = at_ k

theorem readPieces_sound (room : Nat) {text : List UInt8} {read pieces : List Nat} {mark : κ}
    (small : ∀ piece ∈ read, piece < 0x10000)
    (done : readPieces unset at_ room text read compress = some (pieces, mark)) :
    read <+: pieces ∧ PiecesRead at_ compress (read.length + room) pieces mark := by
  induction room generalizing text read compress with
  | zero =>
      rw [readPieces] at done
      split at done
      · obtain ⟨rfl, rfl⟩ := Prod.mk.inj (Option.some.inj done)
        exact ⟨List.prefix_refl _, Nat.le_refl _, small, .inl rfl⟩
      · cases done
  | succ room ih =>
      rw [readPieces] at done
      split at done
      · obtain ⟨rfl, rfl⟩ := Prod.mk.inj (Option.some.inj done)
        exact ⟨List.prefix_refl _, Nat.le_add_right _ _, small, .inl rfl⟩
      · cases digits : readDigits 5 text 0 0 with
        | mk value more =>
            obtain ⟨count, rest⟩ := more
            rw [digits] at done
            dsimp only at done
            split at done
            · cases done
            · next short =>
                have low := readDigits_small digits short
                have all : ∀ piece ∈ read ++ [value], piece < 0x10000 := by
                  intro piece inside
                  rcases List.mem_append.1 inside with inside | last
                  · exact small piece inside
                  · rw [List.mem_singleton.1 last]
                    exact low
                have length : (read ++ [value]).length = read.length + 1 := by simp
                have grown : read <+: read ++ [value] := List.prefix_append _ _
                split at done
                · obtain ⟨rfl, rfl⟩ := Prod.mk.inj (Option.some.inj done)
                  exact ⟨grown, by omega, all, .inl rfl⟩
                · cases done
                · split at done
                  · cases done
                  · split at done
                    · split at done
                      · obtain ⟨front, short, low, marked⟩ := ih all done
                        have some := front.length_le
                        refine ⟨grown.trans front, by omega, low, .inr ?_⟩
                        rcases marked with rfl | ⟨k, within, rfl⟩
                        · exact ⟨_, by omega, rfl⟩
                        · exact ⟨k, within, rfl⟩
                      · cases done
                    · obtain ⟨front, short, low, marked⟩ := ih all done
                      exact ⟨grown.trans front, by omega, low, marked⟩

end Reading

/-! ## The pieces behind the mark -/

theorem movePieces_eq (count zeros : Nat) (whole : count + (zeros + 1) = 8) (front back done : List Nat)
    (moved : Nat) (behind : done.length = moved) (all : front.length + back.length + moved = count) :
    Browser.movePieces count back.length moved
        (front ++ back ++ List.replicate (zeros + 1) 0 ++ done)
      = front ++ List.replicate (zeros + 1) 0 ++ back ++ done := by
  induction back using List.reverseRecOn generalizing done moved with
  | nil => simp [Browser.movePieces]
  | append_singleton back piece ih =>
      rw [List.length_append, List.length_singleton] at all ⊢
      rw [Browser.movePieces]
      have place : count - 1 - moved = (front ++ back).length := by
        rw [List.length_append]
        omega
      have target : 7 - moved = (front ++ back).length + (zeros + 1) := by
        rw [List.length_append]
        omega
      have shape : front ++ (back ++ [piece]) ++ List.replicate (zeros + 1) 0 ++ done
          = (front ++ back) ++ (piece :: (List.replicate zeros 0 ++ 0 :: done)) := by
        rw [List.replicate_succ']
        simp
      have value : (front ++ (back ++ [piece]) ++ List.replicate (zeros + 1) 0 ++ done).getD
          (count - 1 - moved) 0 = piece := by
        rw [shape, place, List.getD_eq_getElem?_getD, List.getElem?_append_right (Nat.le_refl _)]
        simp
      have step : ((front ++ (back ++ [piece]) ++ List.replicate (zeros + 1) 0 ++ done).set
          (7 - moved) piece).set (count - 1 - moved) 0
          = front ++ back ++ List.replicate (zeros + 1) 0 ++ (piece :: done) := by
        rw [shape, target, place, List.set_append_right _ _ (by omega), Nat.add_sub_cancel_left,
          List.set_append_right _ _ (Nat.le_refl _), Nat.sub_self, List.set_cons_succ,
          List.set_cons_zero, List.set_append_right _ _ (by simp), List.length_replicate,
          Nat.sub_self, List.set_cons_zero, List.replicate_succ]
        simp
      rw [value, step, ih (piece :: done) (moved + 1) (by simp [behind]) (by omega)]
      simp

/-- The pieces with zeros between the two parts. -/
def expanded (front back : List Nat) : List Nat :=
  front ++ List.replicate (8 - (front ++ back).length) 0 ++ back

theorem expanded_address {front back : List Nat} (few : (front ++ back).length < 8)
    (small : ∀ piece ∈ front ++ back, piece < 0x10000) : Address (expanded front back) where
  eight := by
    rw [List.length_append] at few
    simp only [expanded, List.length_append, List.length_replicate]
    omega
  small := by
    intro piece inside
    rw [expanded, List.mem_append, List.mem_append] at inside
    rcases inside with (inside | zero) | inside
    · exact small piece (List.mem_append_left _ inside)
    · rw [List.eq_of_mem_replicate zero]
      decide
    · exact small piece (List.mem_append_right _ inside)

/-- The browser's loop. -/
theorem movePieces_expanded {front back : List Nat} (few : (front ++ back).length < 8) :
    Browser.movePieces (front ++ back).length ((front ++ back).length - front.length) 0
        (front ++ back ++ List.replicate (8 - (front ++ back).length) 0)
      = expanded front back := by
  have length : (front ++ back).length = front.length + back.length := List.length_append
  obtain ⟨zeros, room⟩ := Nat.exists_eq_add_of_lt few
  have moved := movePieces_eq (front ++ back).length zeros (by omega) front back [] 0 rfl (by omega)
  rw [List.append_nil, List.append_nil] at moved
  rw [expanded, show 8 - (front ++ back).length = zeros + 1 by omega, ← moved]
  congr 1
  omega

/-- The backend's copy. -/
theorem fill_expanded {front back : List Nat} (few : (front ++ back).length < 8) :
    Backend.fill (Backend.copyWithin (front ++ back ++ List.replicate (8 - (front ++ back).length) 0)
        front.length (front ++ back).length (8 - ((front ++ back).length - front.length)))
        front.length (8 - ((front ++ back).length - front.length))
      = expanded front back := by
  have length : (front ++ back).length = front.length + back.length := List.length_append
  have gap : 8 - ((front ++ back).length - front.length) = 8 - back.length := by omega
  have taken : ((front ++ back ++ List.replicate (8 - (front ++ back).length) 0).take
      (8 - back.length)).length = 8 - back.length := by
    rw [List.length_take, List.length_append, List.length_replicate]
    omega
  have copied : Backend.copyWithin (front ++ back ++ List.replicate (8 - (front ++ back).length) 0)
      front.length (front ++ back).length (8 - back.length)
      = (front ++ back ++ List.replicate (8 - (front ++ back).length) 0).take (8 - back.length)
        ++ back := by
    rw [Backend.copyWithin, List.append_assoc front, List.drop_left, show (front ++ back).length
      - front.length = back.length by omega, List.take_left, List.drop_eq_nil_of_le, List.append_nil]
    simp only [List.length_append, List.length_replicate]
    omega
  rw [gap, copied, Backend.fill, List.drop_left' taken, List.take_append_of_le_length (by omega),
    List.take_take, Nat.min_eq_left (by omega), List.append_assoc front, List.take_left, expanded,
    length]
  congr 3
  omega

/-! ## Literals that are accepted -/

section Starts

variable {κ : Type} (at_ : Nat → κ) (none_ : κ)

/-- Where reading starts: behind a leading `::`, which is the first mark. -/
def reading (text : List UInt8) : List UInt8 × κ :=
  if [colon, colon].isPrefixOf text then (text.drop 2, at_ 0) else (text, none_)

variable {at_ none_} {unset : κ → Bool}

theorem reading_head {first : UInt8} (other : first ≠ colon) (rest : List UInt8) :
    reading at_ none_ (first :: rest) = (first :: rest, none_) := by
  rw [reading, if_neg]
  simp [Ne.symm other]

theorem read_whole {pieces : List Nat} (address : Address pieces) :
    readPieces unset at_ 8 (reading at_ none_ (joined (pieces.map hexText))).1 []
        (reading at_ none_ (joined (pieces.map hexText))).2 = some (pieces, none_) := by
  have some : pieces ≠ [] := by
    rintro rfl
    cases address.eight
  obtain ⟨first, rest, text, other⟩ := joined_head some
  rw [text, reading_head other, ← text]
  exact readPieces_joined address.small 8 (Nat.le_of_eq address.eight) []

theorem read_short {left right : List Nat} (few : (left ++ right).length < 8)
    (small : ∀ piece ∈ left ++ right, piece < 0x10000) (first : unset none_ = true) :
    readPieces unset at_ 8
        (reading at_ none_ (joined (left.map hexText) ++ colon :: colon :: joined (right.map hexText))).1
        [] (reading at_ none_ (joined (left.map hexText) ++ colon :: colon ::
          joined (right.map hexText))).2
      = some (left ++ right, at_ left.length) := by
  have lefts : ∀ piece ∈ left, piece < 0x10000 := fun piece inside =>
    small piece (List.mem_append_left _ inside)
  have rights : ∀ piece ∈ right, piece < 0x10000 := fun piece inside =>
    small piece (List.mem_append_right _ inside)
  rw [List.length_append] at few
  by_cases none : left = []
  · subst none
    rw [List.length_nil] at few
    have start : reading at_ none_ (joined ([].map hexText) ++ colon :: colon ::
        joined (right.map hexText)) = (joined (right.map hexText), at_ 0) := by
      rw [reading, if_pos]
      · rfl
      · simp [joined]
    rw [start]
    exact readPieces_joined rights 8 (by omega) []
  · obtain ⟨character, rest, text, other⟩ := joined_head none
    rw [text, List.cons_append, reading_head other, ← List.cons_append, ← text,
      readPieces_short lefts none 8 (by omega) [] first,
      readPieces_joined rights _ (by omega) ([] ++ left), List.nil_append, List.length_nil,
      Nat.zero_add]

/-- What reading gives, as two parts around the mark. -/
theorem read_parts {text : List UInt8} {pieces : List Nat} {mark : κ}
    (done : readPieces unset at_ 8 (reading at_ none_ text).1 [] (reading at_ none_ text).2
      = some (pieces, mark)) :
    (∀ piece ∈ pieces, piece < 0x10000) ∧
      (mark = none_ ∨ ∃ front back, pieces = front ++ back ∧ mark = at_ front.length) := by
  obtain ⟨_, _, small, marked⟩ := readPieces_sound 8 (by simp) done
  refine ⟨small, ?_⟩
  have start : (reading at_ none_ text).2 = none_ ∨ (reading at_ none_ text).2 = at_ 0 := by
    rw [reading]
    split
    · exact .inr rfl
    · exact .inl rfl
  rcases marked with rfl | ⟨k, within, rfl⟩
  · exact start.imp id fun zero => ⟨[], pieces, rfl, zero⟩
  · refine .inr ⟨pieces.take k, pieces.drop k, (List.take_append_drop ..).symm, ?_⟩
    rw [List.length_take, Nat.min_eq_left within]

end Starts

theorem zero_cut {pieces : List Nat} {start length : Nat} (address : Address pieces)
    (run : FirstLongest pieces start length) :
    (pieces.take start ++ pieces.drop (start + length)).length < 8 ∧
      (pieces.take start).length = start ∧
      (∀ piece ∈ pieces.take start ++ pieces.drop (start + length), piece < 0x10000) ∧
      expanded (pieces.take start) (pieces.drop (start + length)) = pieces := by
  have two := run.two
  have within := run.run.within (by omega)
  have eight := address.eight
  have front : (pieces.take start).length = start := by
    rw [List.length_take]
    omega
  have count : (pieces.take start ++ pieces.drop (start + length)).length = 8 - length := by
    rw [List.length_append, front, List.length_drop]
    omega
  refine ⟨by omega, front, ?_, ?_⟩
  · intro piece inside
    rcases List.mem_append.1 inside with inside | inside
    · exact address.small piece (List.mem_of_mem_take inside)
    · exact address.small piece (List.mem_of_mem_drop inside)
  · rw [expanded, count, show 8 - (8 - length) = length by omega, ← run.run.cut]

/-- The browser accepts the canonical texts of addresses. -/
theorem canonicalIPv6_iff (text : List UInt8) :
    Browser.canonicalIPv6 text = true ↔ ∃ pieces, Address pieces ∧ IsCanonical text pieces := by
  have canonical {pieces : List Nat} (address : Address pieces) :
      IsCanonical (written (fun piece => Browser.hexDigits piece [12, 8, 4, 0] true) pieces) pieces :=
    written_canonical address fun piece inside => hexDigits_eq (address.small piece inside)
  have begins : (if [colon, colon].isPrefixOf text then (text.drop 2, 0) else (text, 8))
      = reading id 8 text := rfl
  rw [Browser.canonicalIPv6, begins]
  constructor
  · intro accepted
    cases done : readPieces (· == 8) id 8 (reading id 8 text).1 [] (reading id 8 text).2 with
    | none =>
        rw [done] at accepted
        cases accepted
    | some found =>
        obtain ⟨read, compress⟩ := found
        obtain ⟨small, marked⟩ := read_parts done
        rw [done] at accepted
        dsimp only at accepted
        by_cases unset : compress = 8
        · rw [if_pos unset] at accepted
          by_cases eight : read.length = 8
          · have address : Address read := ⟨eight, small⟩
            rw [if_neg (by simpa using eight), if_neg (not_not.2 unset), eight, Nat.sub_self,
              List.replicate_zero, List.append_nil, beq_iff_eq] at accepted
            exact ⟨read, address, accepted ▸ canonical address⟩
          · rw [if_pos (by simpa using eight)] at accepted
            cases accepted
        · obtain ⟨front, back, rfl, rfl⟩ := marked.resolve_left unset
          rw [if_neg unset] at accepted
          split at accepted
          · cases accepted
          · next few =>
              rw [decide_eq_true_eq, Nat.not_le] at few
              have address := expanded_address few small
              rw [id, movePieces_expanded few, beq_iff_eq] at accepted
              exact ⟨_, address, accepted ▸ canonical address⟩
  · rintro ⟨pieces, address, is_⟩
    have same := canonical_unique is_ (canonical address)
    cases is_ with
    | whole _ none =>
        rw [read_whole address]
        dsimp only
        rw [if_pos rfl, if_neg (by simpa using address.eight), if_neg (by simp), address.eight,
          Nat.sub_self, List.replicate_zero, List.append_nil, beq_iff_eq]
        exact same
    | short _ start length run =>
        obtain ⟨few, front, small, whole⟩ := zero_cut address run
        have set_ : (pieces.take start).length ≠ 8 := by
          rw [List.length_append] at few
          omega
        rw [read_short few small rfl]
        dsimp only
        rw [id, if_neg set_, if_neg (by simpa using few), if_pos set_, movePieces_expanded few, whole,
          beq_iff_eq]
        exact same

/-- So does the backend. -/
theorem canonicalIpv6_iff (text : List UInt8) :
    Backend.canonicalIpv6 text = true ↔ ∃ pieces, Address pieces ∧ IsCanonical text pieces := by
  have canonical {pieces : List Nat} (address : Address pieces) :
      IsCanonical (written hexText pieces) pieces := written_canonical address fun _ _ => rfl
  have begins : (if [colon, colon].isPrefixOf text then (text.drop 2, some 0) else (text, none))
      = reading some none text := rfl
  rw [Backend.canonicalIpv6, begins]
  constructor
  · intro accepted
    cases done : readPieces Option.isNone some 8 (reading some none text).1 []
        (reading some none text).2 with
    | none =>
        rw [done] at accepted
        cases accepted
    | some found =>
        obtain ⟨read, compress⟩ := found
        obtain ⟨small, rfl | ⟨front, back, rfl, rfl⟩⟩ := read_parts done
        · rw [done] at accepted
          dsimp only at accepted
          by_cases eight : read.length = 8
          · have address : Address read := ⟨eight, small⟩
            rw [if_neg (by simpa using eight), eight, Nat.sub_self, List.replicate_zero,
              List.append_nil, beq_iff_eq] at accepted
            exact ⟨read, address, accepted ▸ canonical address⟩
          · rw [if_pos eight] at accepted
            cases accepted
        · rw [done] at accepted
          dsimp only at accepted
          split at accepted
          · cases accepted
          · next few =>
              rw [Nat.not_le] at few
              have address := expanded_address few small
              rw [fill_expanded few, beq_iff_eq] at accepted
              exact ⟨_, address, accepted ▸ canonical address⟩
  · rintro ⟨pieces, address, is_⟩
    have same := canonical_unique is_ (canonical address)
    cases is_ with
    | whole _ none =>
        rw [read_whole address]
        dsimp only
        rw [if_neg (by simpa using address.eight), address.eight, Nat.sub_self, List.replicate_zero,
          List.append_nil, beq_iff_eq]
        exact same
    | short _ start length run =>
        obtain ⟨few, front, small, whole⟩ := zero_cut address run
        rw [read_short few small rfl]
        dsimp only
        rw [if_neg (Nat.not_le.2 few), fill_expanded few, whole, beq_iff_eq]
        exact same

end Reb.Console.Origin
