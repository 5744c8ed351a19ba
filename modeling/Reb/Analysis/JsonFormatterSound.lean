/-
# Analysis.JsonFormatterSound -- what the formatter accepts, and what it writes

A text that is accepted spells a value, and what is written is the layout of that
value (`run_sound`).  `Moves` says of one step of the formatter what it took from the
text, what it wrote and how many tokens it counted.
-/
import Reb.Analysis.JsonFormatter
import Reb.Theory.Fallible

namespace Reb.Analysis.JsonFormatter

open Theory.Fallible

set_option autoImplicit false

structure Moves (f : Settings) (c c' : Cursor) (taken written : List UInt8) (tokens : Nat) :
    Prop where
  rest : c.rest = taken ++ c'.rest
  output : c'.output = c.output ++ written
  tokens : c'.tokens = c.tokens + tokens
  room : c.output.length ≤ f.outputLimit → c'.output.length ≤ f.outputLimit
  counted : c.tokens ≤ kDecoderMaxJsonTokens → c'.tokens ≤ kDecoderMaxJsonTokens

section Steps

variable {f : Settings} {c m c' : Cursor} {taken taken' written written' : List UInt8}
  {tokens tokens' : Nat}

theorem Moves.trans (first : Moves f c m taken written tokens)
    (second : Moves f m c' taken' written' tokens') :
    Moves f c c' (taken ++ taken') (written ++ written') (tokens + tokens') := by
  refine ⟨?_, ?_, ?_, fun room => second.room (first.room room),
    fun counted => second.counted (first.counted counted)⟩
  · rw [first.rest, second.rest, List.append_assoc]
  · rw [second.output, first.output, List.append_assoc]
  · rw [second.tokens, first.tokens, Nat.add_assoc]

theorem appendByte_eq_ok {byte : UInt8} :
    appendByte f byte c = .ok c' ↔
      c.output.length < f.outputLimit ∧ c' = { c with output := c.output ++ [byte] } := by
  rw [appendByte, ite_error_eq_ok, Except.ok.injEq, Nat.not_le, eq_comm (b := c')]

theorem append_eq_ok {text : List UInt8} :
    append f text c = .ok c' ↔ text.length ≤ f.outputLimit - c.output.length
      ∧ c' = { c with output := c.output ++ text } := by
  have room : f.outputLimit - min c.output.length f.outputLimit
      = f.outputLimit - c.output.length := by omega
  rw [append, ite_error_eq_ok, Except.ok.injEq, room, Nat.not_lt, eq_comm (b := c')]

theorem token_eq_ok :
    token c = .ok c' ↔ c.tokens < kDecoderMaxJsonTokens ∧ c' = { c with tokens := c.tokens + 1 } := by
  rw [token, ite_error_eq_ok, Except.ok.injEq, Nat.not_lt, Nat.succ_le_iff, eq_comm (b := c')]

theorem advance_moves {left : List UInt8} (rest : c.rest = taken ++ left) :
    Moves f c { c with rest := left } taken [] 0 :=
  ⟨rest, (List.append_nil _).symm, rfl, id, id⟩

/-- Output that takes a piece of the text with it. -/
theorem take_moves {text left : List UInt8} (rest : c.rest = taken ++ left)
    (fits : text.length ≤ f.outputLimit - c.output.length) :
    Moves f c { c with rest := left, output := c.output ++ text } taken text 0 := by
  refine ⟨rest, rfl, rfl, fun room => ?_, id⟩
  simp only [List.length_append]
  omega

theorem appendByte_moves {byte : UInt8} (ok : appendByte f byte c = .ok c') :
    Moves f c c' [] [byte] 0 := by
  obtain ⟨fits, rfl⟩ := appendByte_eq_ok.1 ok
  exact take_moves rfl (Nat.succ_le_of_lt (Nat.sub_pos_of_lt fits))

theorem append_moves {text left : List UInt8} (rest : c.rest = taken ++ left)
    (ok : append f text { c with rest := left } = .ok c') : Moves f c c' taken text 0 := by
  obtain ⟨fits, rfl⟩ := append_eq_ok.1 ok
  exact take_moves rest fits

theorem token_moves (ok : token c = .ok c') : Moves f c c' [] [] 1 := by
  obtain ⟨counted, rfl⟩ := token_eq_ok.1 ok
  exact ⟨rfl, by simp, rfl, id, fun _ => counted⟩

theorem newlineAndIndent_moves {depth : Nat} (ok : newlineAndIndent f depth c = .ok c') :
    Moves f c c' [] (f.newline depth) 0 := by
  rw [newlineAndIndent] at ok
  split at ok
  · rename_i plain
    cases ok
    rw [Layout.newline, if_neg (by simpa using plain)]
    exact ⟨rfl, by simp, rfl, id, id⟩
  · rename_i pretty
    obtain ⟨m, first, second⟩ := bind_eq_ok.1 ok
    obtain ⟨-, second⟩ := ite_error_eq_ok.1 second
    have indents : Moves f m c' [] (List.replicate (depth * 2) 0x20) 0 := append_moves rfl second
    rw [Layout.newline, if_pos (by simpa using pretty)]
    exact (appendByte_moves first).trans indents

/-- Blanks are passed over. -/
theorem skipWhitespace_moves : ∃ blanks, Blank blanks ∧ Moves f c (skipWhitespace c) blanks [] 0 := by
  refine ⟨c.rest.takeWhile isBlank, fun byte member => List.mem_takeWhile_imp member, ?_⟩
  exact ⟨List.takeWhile_append_dropWhile.symm, by simp [skipWhitespace], rfl, id, id⟩

end Steps

/-! ## Strings -/

theorem scanString_sound {bytes taken left : List UInt8}
    (ok : scanString bytes = .ok (taken, left)) :
    ∃ text : Text, taken = text.spelled ++ [quote] ∧ bytes = taken ++ left := by
  induction bytes using scanString.induct generalizing taken left with
  | case1 => simp [scanString] at ok
  | case2 rest =>
      unfold scanString at ok
      rw [if_pos rfl] at ok
      cases ok
      exact ⟨[], rfl, rfl⟩
  | case3 byte rest other control =>
      unfold scanString at ok
      rw [if_neg other, if_pos control] at ok
      cases ok
  | case4 byte rest other control ordinary ih =>
      unfold scanString at ok
      rw [if_neg other, if_neg control, if_pos ordinary, map_eq_ok] at ok
      obtain ⟨⟨inner, left⟩, scanned, same⟩ := ok
      cases same
      obtain ⟨text, rfl, rfl⟩ := ih scanned
      exact ⟨.plain byte ⟨UInt8.not_lt.1 control, other, ordinary⟩ :: text, rfl, rfl⟩
  | case5 byte other control escapes =>
      unfold scanString at ok
      rw [if_neg other, if_neg control, if_neg escapes] at ok
      cases ok
  | case6 byte other control escapes escaped rest simple ih =>
      unfold scanString at ok
      simp only [if_neg other, if_neg control, if_neg escapes, if_pos simple, map_eq_ok] at ok
      obtain ⟨⟨inner, left⟩, scanned, same⟩ := ok
      cases same
      obtain ⟨text, rfl, rfl⟩ := ih scanned
      cases not_not.1 escapes
      exact ⟨.escape escaped simple :: text, rfl, rfl⟩
  | case7 byte other control escapes escaped rest complex wrong =>
      unfold scanString at ok
      simp only [if_neg other, if_neg control, if_neg escapes, if_neg complex, if_pos wrong] at ok
      cases ok
  | case8 byte other control escapes escaped complex named a b c d rest hex ih =>
      unfold scanString at ok
      simp only [if_neg other, if_neg control, if_neg escapes, if_neg complex, if_neg named,
        if_pos hex, map_eq_ok] at ok
      obtain ⟨⟨inner, left⟩, scanned, same⟩ := ok
      cases same
      obtain ⟨text, rfl, rfl⟩ := ih scanned
      cases not_not.1 escapes
      cases not_not.1 named
      simp only [Bool.and_eq_true] at hex
      obtain ⟨⟨⟨first, second⟩, third⟩, fourth⟩ := hex
      exact ⟨.unit ⟨a, first⟩ ⟨b, second⟩ ⟨c, third⟩ ⟨d, fourth⟩ :: text, rfl, rfl⟩
  | case9 byte other control escapes escaped complex named a b c d rest wrong =>
      unfold scanString at ok
      simp only [if_neg other, if_neg control, if_neg escapes, if_neg complex, if_neg named,
        if_neg wrong] at ok
      cases ok
  | case10 byte other control escapes escaped rest complex named short =>
      unfold scanString at ok
      simp only [if_neg other, if_neg control, if_neg escapes, if_neg complex, if_neg named] at ok
      cases ok

section Tokens

variable {f : Settings} {c c' : Cursor}

theorem parseString_moves (head : c.rest.head? = some quote) (ok : parseString f c = .ok c') :
    ∃ text : Text, Moves f c c' text.quoted text.quoted 0 := by
  obtain ⟨⟨taken, left⟩, scanned, appended⟩ := bind_eq_ok.1 ok
  obtain ⟨text, rfl, split⟩ := scanString_sound scanned
  obtain ⟨rest, same⟩ : ∃ rest, c.rest = quote :: rest := List.head?_eq_some_iff.1 head
  rw [same] at split appended
  refine ⟨text, append_moves ?_ appended⟩
  rw [same, Text.quoted, List.cons_append, ← split]
  rfl

/-! ## Numbers -/

theorem takeSign_eq (signs bytes : List UInt8) :
    (takeSign signs bytes).1 ++ (takeSign signs bytes).2 = bytes
      ∧ ((takeSign signs bytes).1 = [] ∨ ∃ byte ∈ signs, (takeSign signs bytes).1 = [byte]) := by
  cases bytes with
  | nil => exact ⟨rfl, .inl rfl⟩
  | cons byte rest =>
      rw [takeSign]
      split
      · exact ⟨rfl, .inr ⟨byte, ‹_›, rfl⟩⟩
      · exact ⟨rfl, .inl rfl⟩

theorem takeDigits_eq (bytes : List UInt8) : (takeDigits bytes).1 ++ (takeDigits bytes).2 = bytes :=
  List.takeWhile_append_dropWhile

/-- A run of digits that is not empty. -/
def foundDigits {bytes : List UInt8} (found : (takeDigits bytes).1 ≠ []) : Digits where
  bytes := (takeDigits bytes).1
  some := found
  digits := fun _ member => List.mem_takeWhile_imp member

theorem scanWhole_sound {bytes taken left : List UInt8} (ok : scanWhole bytes = .ok (taken, left)) :
    ∃ whole : Digits, whole.bytes = taken ∧ (taken.head? = some 0x30 → taken = [0x30])
      ∧ bytes = taken ++ left := by
  cases bytes with
  | nil => cases ok
  | cons byte rest =>
      rw [scanWhole] at ok
      split at ok
      · rename_i zero
        subst zero
        obtain ⟨-, ok⟩ := ite_error_eq_ok.1 ok
        cases ok
        refine ⟨⟨[0x30], by simp, ?_⟩, rfl, fun _ => rfl, rfl⟩
        intro byte member
        rw [List.mem_singleton.1 member]
        rfl
      · rename_i nonzero
        split at ok
        · rename_i ranged
          have first : isDigit byte = true := by
            simp only [isDigit, Bool.and_eq_true, decide_eq_true_eq]
            exact ⟨UInt8.le_trans (by decide) ranged.1, ranged.2⟩
          have split := takeDigits_eq (byte :: rest)
          have found : (takeDigits (byte :: rest)).1 ≠ [] := by
            simp [takeDigits, first]
          have head : (takeDigits (byte :: rest)).1.head? = some byte := by
            simp [takeDigits, first]
          cases ok
          refine ⟨foundDigits found, rfl, fun zero => ?_, split.symm⟩
          exact absurd (Option.some.inj (head.symm.trans zero)) nonzero
        · cases ok

theorem scanFraction_sound {bytes taken left : List UInt8}
    (ok : scanFraction bytes = .ok (taken, left)) :
    ∃ fraction, fractionSpelled fraction = taken ∧ bytes = taken ++ left := by
  cases bytes with
  | nil =>
      cases ok
      exact ⟨none, rfl, rfl⟩
  | cons byte rest =>
      rw [scanFraction] at ok
      split at ok
      · rename_i point
        subst point
        obtain ⟨found, ok⟩ := ite_error_eq_ok.1 ok
        have split := takeDigits_eq rest
        cases ok
        exact ⟨some (foundDigits found), rfl, by rw [List.cons_append, split]⟩
      · cases ok
        exact ⟨none, rfl, rfl⟩

theorem scanExponent_sound {bytes taken left : List UInt8}
    (ok : scanExponent bytes = .ok (taken, left)) :
    ∃ exponent : Option Exponent, exponent.elim [] Exponent.spelled = taken
      ∧ bytes = taken ++ left := by
  cases bytes with
  | nil =>
      cases ok
      exact ⟨none, rfl, rfl⟩
  | cons byte rest =>
      rw [scanExponent] at ok
      split at ok
      · rename_i marks
        obtain ⟨split, signed⟩ := takeSign_eq [0x2b, 0x2d] rest
        generalize takeSign [0x2b, 0x2d] rest = parts at *
        obtain ⟨sign, after⟩ := parts
        simp only [] at ok split signed
        obtain ⟨found, ok⟩ := ite_error_eq_ok.1 ok
        have split' := takeDigits_eq after
        cases ok
        refine ⟨some ⟨byte, marks, sign.head?, ?_, foundDigits found⟩, ?_, ?_⟩
        · rcases signed with rfl | ⟨s, member, rfl⟩
          · simp
          · simpa using member
        · rcases signed with rfl | ⟨s, -, rfl⟩ <;> rfl
        · rw [List.cons_append, List.append_assoc, split', split]
      · cases ok
        exact ⟨none, rfl, rfl⟩

theorem scanNumber_sound {bytes taken left : List UInt8}
    (ok : scanNumber bytes = .ok (taken, left)) :
    ∃ numeral : Numeral, numeral.spelled = taken ∧ bytes = taken ++ left := by
  rw [scanNumber] at ok
  obtain ⟨split, signed⟩ := takeSign_eq [0x2d] bytes
  generalize takeSign [0x2d] bytes = parts at *
  obtain ⟨sign, rest⟩ := parts
  simp only [] at ok split signed
  obtain ⟨⟨whole, fractional⟩, first, ok⟩ := bind_eq_ok.1 ok
  obtain ⟨⟨fraction, exponential⟩, second, ok⟩ := bind_eq_ok.1 ok
  obtain ⟨⟨exponent, after⟩, third, ok⟩ := bind_eq_ok.1 ok
  obtain ⟨w, rfl, canonical, wholes⟩ := scanWhole_sound first
  obtain ⟨x, rfl, fractions⟩ := scanFraction_sound second
  obtain ⟨e, rfl, exponents⟩ := scanExponent_sound third
  cases ok
  refine ⟨⟨sign != [], w, canonical, x, e⟩, ?_, ?_⟩
  · rcases signed with rfl | ⟨s, member, rfl⟩
    · rfl
    · cases List.mem_singleton.1 member
      rfl
  · simp only at fractions exponents
    simp only [← split, wholes, fractions, exponents, List.append_assoc]

theorem parseNumber_moves (ok : parseNumber f c = .ok c') :
    ∃ numeral : Numeral, Moves f c c' numeral.spelled numeral.spelled 0 := by
  obtain ⟨⟨taken, left⟩, scanned, appended⟩ := bind_eq_ok.1 ok
  obtain ⟨numeral, rfl, split⟩ := scanNumber_sound scanned
  exact ⟨numeral, append_moves split appended⟩

theorem parseLiteral_moves {literal : List UInt8} (ok : parseLiteral f literal c = .ok c') :
    Moves f c c' literal literal 0 := by
  obtain ⟨matched, ok⟩ := ite_error_eq_ok.1 ok
  refine append_moves ?_ ok
  calc c.rest = c.rest.take literal.length ++ c.rest.drop literal.length :=
        (List.take_append_drop ..).symm
    _ = literal ++ c.rest.drop literal.length := by rw [not_not.1 matched]

/-! ## Keys -/

theorem parseColon_moves (ok : parseColon f c = .ok c') :
    Moves f c c' [colon] f.separator 0 := by
  rw [parseColon] at ok
  split at ok
  · cases ok
  · rename_i byte rest split
    obtain ⟨colons, ok⟩ := ite_error_eq_ok.1 ok
    cases not_not.1 colons
    exact append_moves split ok

theorem parseKey_moves {bracket : Bracket} (ok : parseKey f bracket c = .ok c') :
    ∃ key taken, SpellsKey bracket key taken
      ∧ Moves f c c' taken (f.key bracket key) bracket.keyTokens := by
  cases bracket with
  | array =>
      cases ok
      exact ⟨(), [], .array, rfl, by simp [Layout.key], rfl, id, id⟩
  | object =>
      rw [parseKey, ite_error_eq_ok, not_not] at ok
      obtain ⟨head, ok⟩ := ok
      obtain ⟨m, counted, ok⟩ := bind_eq_ok.1 ok
      obtain ⟨n, quoted, ok⟩ := bind_eq_ok.1 ok
      obtain ⟨before, blank, skips⟩ := @skipWhitespace_moves f c
      have counts : Moves f (skipWhitespace c) m [] [] 1 := token_moves counted
      have head' : m.rest.head? = some quote := by
        rw [← head, counts.rest, List.nil_append]
      obtain ⟨text, names⟩ := parseString_moves head' quoted
      obtain ⟨after, blank', skips'⟩ := @skipWhitespace_moves f n
      refine ⟨text, _, .object blank blank', ?_⟩
      have moves := (skips.trans counts).trans (names.trans (skips'.trans (parseColon_moves ok)))
      simpa [Layout.key, Bracket.keyTokens] using moves

end Tokens

/-! ## Values -/

section Values

variable {f : Settings}

/-- What `parseValue` accepts. -/
def ValueSound (f : Settings) (fuel : Nat) : Prop :=
  ∀ depth c c', parseValue f fuel depth c = .ok c' →
    ∃ doc blanks taken, Blank blanks ∧ Spells doc taken
      ∧ Moves f c c' (blanks ++ taken) (doc.laid f.toLayout depth) doc.tokens
      ∧ depth + doc.depth ≤ kDecoderMaxJsonDepth

/-- What `parseEntries` accepts: an entry, and the others. -/
def EntriesSound (f : Settings) (fuel : Nat) : Prop :=
  ∀ bracket depth first c c', parseEntries f fuel bracket depth first c = .ok c' →
    ∃ (key : bracket.Key) (value : Doc) (rest : Entries bracket) (named blanks middle last : List UInt8),
      SpellsKey bracket key named ∧ Blank blanks ∧ Spells value middle ∧ SpellsRest rest last
      ∧ Moves f c c' (named ++ (blanks ++ (middle ++ last)))
          ((if first then [] else [comma]) ++ (f.newline (depth + 1) ++ f.key bracket key
            ++ value.laid f.toLayout (depth + 1) ++ rest.laid f.toLayout depth))
          (Entries.cons key value rest).tokens
      ∧ depth + (Entries.cons key value rest).depth ≤ kDecoderMaxJsonDepth

theorem separate_moves {first : Bool} {c c' : Cursor} (ok : separate f first c = .ok c') :
    Moves f c c' [] (if first then [] else [comma]) 0 := by
  rw [separate] at ok
  split at ok
  · cases ok
    rw [if_pos ‹_›]
    exact ⟨rfl, by simp, rfl, id, id⟩
  · rw [if_neg ‹_›]
    exact appendByte_moves ok

/-- What follows an entry, when the other entries are read soundly. -/
theorem parseAfter_sound {fuel depth : Nat} {bracket : Bracket} (entries : EntriesSound f fuel)
    {c c' : Cursor} (ok : parseAfter f bracket depth (parseEntries f fuel bracket depth false) c
      = .ok c') :
    ∃ (rest : Entries bracket) (taken : List UInt8), (∀ blanks, Blank blanks → SpellsRest rest (blanks ++ taken))
      ∧ Moves f c c' taken (rest.laid f.toLayout depth) rest.tokens
      ∧ (rest.depth ≠ 0 → depth + rest.depth ≤ kDecoderMaxJsonDepth) := by
  rw [parseAfter] at ok
  split at ok
  · cases ok
  rename_i byte left split
  split at ok
  · rename_i closes
    subst closes
    obtain ⟨m, lines, ends⟩ := bind_eq_ok.1 ok
    refine ⟨.nil, [bracket.closes], fun blanks blank => .close blank, ?_, fun nonzero => ?_⟩
    · have taking : Moves f c { c with rest := left } [bracket.closes] [] 0 := advance_moves split
      rw [Entries.laid]
      exact taking.trans ((newlineAndIndent_moves lines).trans (appendByte_moves ends))
    · exact absurd rfl nonzero
  split at ok
  · rename_i commas
    subst commas
    obtain ⟨key, value, rest, named, blanks, middle, last, names, blank, spells, follows, moves, deep⟩ :=
      entries bracket depth false _ _ ok
    refine ⟨.cons key value rest, comma :: (named ++ (blanks ++ (middle ++ last))),
      fun before blank' => .more blank' names blank spells follows, ?_, fun _ => deep⟩
    have taking : Moves f c { c with rest := left } [comma] [] 0 := advance_moves split
    have moved := taking.trans moves
    rw [Entries.laid]
    simpa using moved
  · cases ok

theorem entries_sound {fuel : Nat} (values : ValueSound f fuel) (entries : EntriesSound f fuel) :
    EntriesSound f (fuel + 1) := by
  intro bracket depth first c c' ok
  rw [parseEntries, ite_error_eq_ok] at ok
  obtain ⟨m₁, separated, ok⟩ := bind_eq_ok.1 ok.2
  obtain ⟨m₂, lined, ok⟩ := bind_eq_ok.1 ok
  obtain ⟨m₃, keyed, ok⟩ := bind_eq_ok.1 ok
  obtain ⟨m₄, valued, ok⟩ := bind_eq_ok.1 ok
  obtain ⟨key, named, names, keys⟩ := parseKey_moves keyed
  obtain ⟨value, blanks, middle, blank, spells, moves, deep⟩ := values _ _ _ valued
  obtain ⟨between, blank', skips⟩ := @skipWhitespace_moves f m₄
  obtain ⟨rest, taken, follows, others, deep'⟩ := parseAfter_sound entries ok
  refine ⟨key, value, rest, named, blanks, middle, between ++ taken, names, blank, spells,
    follows between blank', ?_, ?_⟩
  · have moved := ((separate_moves separated).trans (newlineAndIndent_moves lined)).trans
      ((keys.trans moves).trans (skips.trans others))
    simpa [Entries.tokens, Nat.add_assoc] using moved
  · rw [Entries.depth]
    rcases Nat.eq_zero_or_pos rest.depth with zero | positive
    · omega
    · have := deep' (by omega)
      omega

/-- The blanks after the opening bracket. -/
theorem spells_opened {bracket : Bracket} {key : bracket.Key} {value : Doc} {rest : Entries bracket}
    {between named blanks middle last : List UInt8} (blank : Blank between)
    (names : SpellsKey bracket key named) (blank' : Blank blanks) (spells : Spells value middle)
    (follows : SpellsRest rest last) :
    Spells (.group bracket (.cons key value rest))
      (bracket.opens :: (between ++ (named ++ (blanks ++ (middle ++ last))))) := by
  have joined {a b : List UInt8} (first : Blank a) (second : Blank b) : Blank (a ++ b) := by
    intro byte member
    rcases List.mem_append.1 member with early | late
    · exact first byte early
    · exact second byte late
  cases names with
  | @object text before after first second =>
      have names := @SpellsKey.object text (between ++ before) after (joined blank first) second
      rw [List.append_assoc] at names
      have whole := Spells.group names blank' spells follows
      rwa [List.append_assoc] at whole
  | array =>
      have whole := Spells.group .array (joined blank blank') spells follows
      rwa [List.append_assoc] at whole

/-- The token of a group is counted before its bracket is read. -/
theorem group_sound {fuel depth : Nat} {bracket : Bracket} (entries : EntriesSound f fuel)
    (shallow : depth ≤ kDecoderMaxJsonDepth) {c c' : Cursor} {left : List UInt8}
    (opens : c.rest = bracket.opens :: left)
    (ok : parseGroup f bracket (parseEntries f fuel bracket depth true) c = .ok c') :
    ∃ (inner : Entries bracket) (taken : List UInt8), Spells (.group bracket inner) taken
      ∧ Moves f c c' taken ((Doc.group bracket inner).laid f.toLayout depth) inner.tokens
      ∧ depth + inner.depth ≤ kDecoderMaxJsonDepth := by
  obtain ⟨m, opened, ok⟩ := bind_eq_ok.1 ok
  have taking : Moves f c { c with rest := c.rest.tail } [bracket.opens] [] 0 :=
    advance_moves (by rw [opens]; rfl)
  obtain ⟨between, blank, skips⟩ := @skipWhitespace_moves f m
  have begins := (taking.trans (appendByte_moves opened)).trans skips
  have inside (ok : parseEntries f fuel bracket depth true (skipWhitespace m) = .ok c') :
      ∃ (inner : Entries bracket) (taken : List UInt8), Spells (.group bracket inner) taken
        ∧ Moves f c c' taken ((Doc.group bracket inner).laid f.toLayout depth) inner.tokens
        ∧ depth + inner.depth ≤ kDecoderMaxJsonDepth := by
    obtain ⟨key, value, rest, named, blanks, middle, last, names, blank', spells, follows, moves, deep⟩ :=
      entries bracket depth true _ _ ok
    refine ⟨.cons key value rest, _, spells_opened blank names blank' spells follows, ?_, deep⟩
    have moved := begins.trans moves
    rw [Doc.laid]
    simpa using moved
  rw [parseInside] at ok
  split at ok
  · exact inside ok
  · rename_i byte rest split
    split at ok
    · rename_i closes
      subst closes
      refine ⟨.nil, _, .empty blank, ?_, shallow⟩
      have closing : Moves f (skipWhitespace m) { skipWhitespace m with rest } [bracket.closes] [] 0 :=
        advance_moves split
      have moved := begins.trans (closing.trans (appendByte_moves ok))
      rw [Doc.laid, Entries.tokens]
      simpa using moved
    · exact inside ok

theorem token_sound {fuel depth : Nat} (entries : EntriesSound f fuel)
    (shallow : depth ≤ kDecoderMaxJsonDepth) {c c' : Cursor} {byte : UInt8} {left : List UInt8}
    (first : c.rest = byte :: left)
    (ok : parseToken f (fun bracket => parseGroup f bracket (parseEntries f fuel bracket depth true))
      byte c = .ok c') :
    ∃ doc taken, Spells doc taken ∧ Moves f c c' taken (doc.laid f.toLayout depth) (doc.tokens - 1)
      ∧ 1 ≤ doc.tokens ∧ depth + doc.depth ≤ kDecoderMaxJsonDepth := by
  have grouped {bracket : Bracket} (opens : byte = bracket.opens)
      (ok : parseGroup f bracket (parseEntries f fuel bracket depth true) c = .ok c') :
      ∃ doc taken, Spells doc taken
        ∧ Moves f c c' taken (doc.laid f.toLayout depth) (doc.tokens - 1)
        ∧ 1 ≤ doc.tokens ∧ depth + doc.depth ≤ kDecoderMaxJsonDepth := by
    obtain ⟨inner, taken, spells, moves, deep⟩ := group_sound entries shallow (opens ▸ first) ok
    refine ⟨.group bracket inner, taken, spells, ?_, ?_, ?_⟩
    · rw [Doc.tokens, Nat.add_sub_cancel_left]
      exact moves
    · rw [Doc.tokens]
      exact Nat.le_add_right ..
    · rw [Doc.depth]
      exact deep
  have literal {word : Word} (ok : parseLiteral f word.spelled c = .ok c') :
      ∃ doc taken, Spells doc taken
        ∧ Moves f c c' taken (doc.laid f.toLayout depth) (doc.tokens - 1)
        ∧ 1 ≤ doc.tokens ∧ depth + doc.depth ≤ kDecoderMaxJsonDepth :=
    ⟨.word word, _, .word word, parseLiteral_moves ok, Nat.le_refl _, shallow⟩
  rw [parseToken] at ok
  split at ok
  · exact @grouped .object ‹_› ok
  split at ok
  · exact @grouped .array ‹_› ok
  split at ok
  · rename_i quotes
    obtain ⟨text, moves⟩ := parseString_moves (by rw [first, quotes]; rfl) ok
    exact ⟨.text text, _, .text text, moves, Nat.le_refl _, shallow⟩
  split at ok
  · exact literal ok
  split at ok
  · exact literal ok
  split at ok
  · exact literal ok
  · obtain ⟨numeral, moves⟩ := parseNumber_moves ok
    exact ⟨.number numeral, _, .number numeral, moves, Nat.le_refl _, shallow⟩

theorem value_sound {fuel : Nat} (entries : EntriesSound f fuel) : ValueSound f (fuel + 1) := by
  intro depth c c' ok
  rw [parseValue, ite_error_eq_ok, Nat.not_lt] at ok
  obtain ⟨shallow, ok⟩ := ok
  obtain ⟨blanks, blank, skips⟩ := @skipWhitespace_moves f c
  split at ok
  · cases ok
  · rename_i byte left split
    obtain ⟨m, counted, ok⟩ := bind_eq_ok.1 ok
    have counts : Moves f (skipWhitespace c) m [] [] 1 := token_moves counted
    have first : m.rest = byte :: left := by rw [← split, counts.rest, List.nil_append]
    obtain ⟨doc, taken, spells, moves, some, deep⟩ := token_sound entries shallow first ok
    refine ⟨doc, blanks, taken, blank, spells, ?_, deep⟩
    have moved := (skips.trans counts).trans moves
    rw [Nat.zero_add, Nat.add_sub_cancel' some] at moved
    simpa using moved

theorem sound (fuel : Nat) : ValueSound f fuel ∧ EntriesSound f fuel := by
  induction fuel with
  | zero =>
      constructor
      · intro depth c c' ok
        rw [parseValue] at ok
        cases ok
      · intro bracket depth first c c' ok
        rw [parseEntries] at ok
        cases ok
  | succ fuel ih => exact ⟨value_sound ih.2, entries_sound ih.1 ih.2⟩

end Values

/-- What the formatter accepts spells a value, and it writes that value's layout. -/
theorem run_sound {f : Settings} {input : List UInt8} (ok : (run f input).status = .ok) :
    ∃ doc : Doc, SpelledBy doc input ∧ (run f input).output = doc.laid f.toLayout 0
      ∧ doc.tokens ≤ kDecoderMaxJsonTokens ∧ doc.depth ≤ kDecoderMaxJsonDepth
      ∧ (doc.laid f.toLayout 0).length ≤ f.outputLimit ∧ isValidUtf8 input = true := by
  rw [run] at ok ⊢
  split at ok
  · cases ok
  rename_i valid
  rw [if_neg valid]
  cases parsed : parseValue f (input.length + 1) 0 (skipWhitespace { rest := input }) with
  | error refusal =>
      simp only [parsed, DecoderResult.failure] at ok
      split at ok <;> cases ok
  | ok c =>
  simp only [parsed] at ok ⊢
  split at ok
  · cases ok
  rename_i ends
  obtain ⟨doc, blanks, taken, blank, spells, moves, deep⟩ := (sound _).1 _ _ _ parsed
  obtain ⟨before, first, skips⟩ := @skipWhitespace_moves f { rest := input }
  obtain ⟨after, last, skips'⟩ := @skipWhitespace_moves f c
  have moved := skips.trans (moves.trans skips')
  have left : (skipWhitespace c).rest = [] := not_not.1 ends
  have written : c.output = doc.laid f.toLayout 0 := by
    rw [moves.output, skips.output]
    simp
  have room := moved.room (Nat.zero_le _)
  simp only [left, ne_eq, not_true, if_false, DecoderResult.success]
  refine ⟨doc, ⟨before ++ blanks, taken, after, ?_, ?_, last, spells⟩, written, ?_, ?_, ?_, ?_⟩
  · have whole := moved.rest
    rw [left] at whole
    simpa using whole
  · intro byte member
    rcases List.mem_append.1 member with early | late
    · exact first byte early
    · exact blank byte late
  · have counted := moved.counted (Nat.zero_le _)
    rw [moved.tokens] at counted
    omega
  · omega
  · rw [← written]
    exact room
  · simpa using valid

end Reb.Analysis.JsonFormatter
