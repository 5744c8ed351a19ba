/-
# Analysis.SnapshotKept -- what the limits leave of a document

A document that is read under limits is read to the same end as without them, and
keeps the beginning of its arrays (`parse_kept`): the numbers are cut at a whole
number of records, and every string that is kept is a part of the one in its place.
-/
import Reb.Analysis.SnapshotStrings

namespace Reb.Analysis.Snapshot

set_option autoImplicit false

/-! ## Groups -/

theorem skipWhitespace_length_le (input : List UInt8) : (skipWhitespace input).length ≤ input.length :=
  List.length_dropWhile_le _ _

theorem consume_shorter {expected : UInt8} {input rest : List UInt8}
    (taken : consume expected input = some rest) : rest.length < input.length := by
  have shorter := skipWhitespace_length_le input
  unfold consume at taken
  cases start : skipWhitespace input with
  | nil => simp [start] at taken
  | cons byte left =>
      simp only [start] at taken
      split_ifs at taken
      cases taken
      rw [start, List.length_cons] at shorter
      omega

section Related

variable {σ τ : Type}

theorem rel_cases {R : σ → τ → Prop} {a : Option σ} {b : Option τ} (related : Option.Rel R a b) :
    (a = none ∧ b = none) ∨ ∃ s t, a = some s ∧ b = some t ∧ R s t := by
  cases related with
  | none => exact .inl ⟨rfl, rfl⟩
  | some both => exact .inr ⟨_, _, rfl, rfl, both⟩

variable {item : σ → List UInt8 → Option (σ × List UInt8)}
  {item' : τ → List UInt8 → Option (τ × List UInt8)} {R : σ → τ → List UInt8 → Prop}

/-- Two readings that end alike, in related states. -/
def EndAlike (R : σ → τ → List UInt8 → Prop) (a : σ × List UInt8) (b : τ × List UInt8) : Prop :=
  a.2 = b.2 ∧ R a.1 b.1 a.2

/-- What the turns of a loop keep, the loop keeps. -/
theorem parseItems_related (closes : UInt8)
    (shorter : ∀ s t input rest, R s t input → rest.length ≤ input.length → R s t rest)
    (step : ∀ s t input, R s t input → Option.Rel (EndAlike R) (item s input) (item' t input)) :
    ∀ (turns : Nat) (s : σ) (t : τ) (input : List UInt8), R s t input →
      Option.Rel (EndAlike R) (parseItems closes item turns s input)
        (parseItems closes item' turns t input)
  | 0, _, _, _, _ => .none
  | turns + 1, s, t, input, related => by
      rw [parseItems, parseItems]
      obtain ⟨none, none'⟩ | ⟨⟨s, rest⟩, ⟨t, rest'⟩, some, some', same, related⟩ :=
        rel_cases (step s t input related)
      · rw [none, none']
        exact .none
      · obtain rfl : rest = rest' := same
        simp only [some, some']
        cases closed : consume closes rest with
        | some left => exact .some ⟨rfl, shorter s t rest left related (consume_shorter closed).le⟩
        | none =>
            cases more : consume comma rest with
            | none => exact .none
            | some left =>
                exact parseItems_related closes shorter step turns s t left
                  (shorter s t rest left related (consume_shorter more).le)

theorem parseGroup_related (bracket : Bracket)
    (shorter : ∀ s t input rest, R s t input → rest.length ≤ input.length → R s t rest)
    (step : ∀ s t input, R s t input → Option.Rel (EndAlike R) (item s input) (item' t input))
    {s : σ} {t : τ} {input : List UInt8} (related : R s t input) :
    Option.Rel (EndAlike R) (parseGroup bracket item s input) (parseGroup bracket item' t input) := by
  unfold parseGroup
  cases opened : consume bracket.opens input with
  | none => exact .none
  | some rest =>
      have inside := shorter s t input rest related (consume_shorter opened).le
      simp only
      cases closed : consume bracket.closes rest with
      | some left => exact .some ⟨rfl, shorter s t rest left inside (consume_shorter closed).le⟩
      | none => exact parseItems_related bracket.closes shorter step _ s t rest inside

theorem parseObject_related
    (shorter : ∀ s t input rest, R s t input → rest.length ≤ input.length → R s t rest)
    (step : ∀ s t input, R s t input → Option.Rel (EndAlike R) (item s input) (item' t input))
    {s : σ} {t : τ} {document : List UInt8} (related : R s t document) :
    Option.Rel (fun s t => ∃ rest, R s t rest) (parseObject item s document)
      (parseObject item' t document) := by
  unfold parseObject
  cases opened : consume 0x7b document with
  | none => exact .none
  | some rest =>
      simp only
      split_ifs with empty
      · exact .none
      · have inside := shorter s t document rest related (consume_shorter opened).le
        obtain ⟨none, none'⟩ | ⟨⟨s, left⟩, ⟨t, left'⟩, some, some', same, related⟩ :=
          rel_cases (parseItems_related 0x7d shorter step (rest.length + 1) s t rest inside)
        · rw [none, none']
          exact .none
        · obtain rfl : left = left' := same
          simp only [some, some']
          split_ifs
          · exact .some ⟨left, related⟩
          · exact .none

end Related

section Kept

variable {σ : Type} {item : σ → List UInt8 → Option (σ × List UInt8)} {I : σ → Prop}

private theorem keeps_related (step : ∀ s input s' rest, I s → item s input = some (s', rest) → I s')
    (s t : σ) (input : List UInt8) (related : s = t ∧ I s) :
    Option.Rel (EndAlike fun s t _ => s = t ∧ I s) (item s input) (item t input) := by
  obtain ⟨rfl, holds⟩ := related
  cases ran : item s input with
  | none => exact .none
  | some ended => exact .some ⟨rfl, rfl, step s input ended.1 ended.2 holds ran⟩

theorem parseGroup_keeps {bracket : Bracket}
    (step : ∀ s input s' rest, I s → item s input = some (s', rest) → I s') {s s' : σ}
    {input rest : List UInt8} (holds : I s) (run : parseGroup bracket item s input = some (s', rest)) :
    I s' := by
  have related : Option.Rel (EndAlike fun s t _ => s = t ∧ I s) (parseGroup bracket item s input)
      (parseGroup bracket item s input) :=
    parseGroup_related bracket (fun _ _ _ _ related _ => related) (keeps_related step) ⟨rfl, holds⟩
  rw [run] at related
  obtain ⟨-, -, kept⟩ | _ := related
  exact kept

theorem parseObject_keeps (step : ∀ s input s' rest, I s → item s input = some (s', rest) → I s')
    {s s' : σ} {document : List UInt8} (holds : I s) (run : parseObject item s document = some s') :
    I s' := by
  have related : Option.Rel (fun s t => ∃ _ : List UInt8, s = t ∧ I s) (parseObject item s document)
      (parseObject item s document) :=
    parseObject_related (R := fun s t _ => s = t ∧ I s) (fun _ _ _ _ related _ => related)
      (keeps_related step) ⟨rfl, holds⟩
  rw [run] at related
  obtain ⟨-, -, kept⟩ | _ := related
  exact kept

end Kept

/-! ## Values -/

theorem readUnsigned_shorter {input rest : List UInt8} {value : Nat}
    (read : readUnsigned input = some (value, rest)) :
    rest.length < input.length ∧ value < 2 ^ 64 := by
  have skipped := skipWhitespace_length_le input
  unfold readUnsigned at read
  simp only at read
  split_ifs at read with none word
  cases read
  obtain ⟨some, -⟩ := not_or.1 none
  have taken := List.takeWhile_append_dropWhile (p := isDigit) (l := skipWhitespace input)
  have lengths := congrArg List.length taken
  have positive := List.length_pos_iff.2 some
  rw [List.length_append] at lengths
  exact ⟨by omega, word⟩

/-- What is kept of all the values of an array. -/
structure Values.KeptOf (maximum : Nat) (cut whole : Values) : Prop where
  kept : cut.kept = whole.kept.take maximum
  truncated : cut.truncated = decide (maximum < whole.kept.length)
  seen : cut.seen = whole.kept.length
  all : whole.seen = whole.kept.length
  complete : whole.truncated = false
  word : ∀ value ∈ whole.kept, value < 2 ^ 64

theorem Values.KeptOf.start (maximum : Nat) : Values.KeptOf maximum {} {} where
  kept := by simp
  truncated := by simp
  seen := rfl
  all := rfl
  complete := rfl
  word := by simp

theorem Values.KeptOf.push {maximum : Nat} {cut whole : Values} (related : Values.KeptOf maximum cut whole)
    {value : Nat} (word : value < 2 ^ 64) {cut' : Values}
    (kept : cut'.kept = (whole.kept ++ [value]).take maximum)
    (truncated : cut'.truncated = decide (maximum ≤ whole.kept.length)) (seen : cut'.seen = cut.seen + 1) :
    Values.KeptOf maximum cut' { whole with kept := whole.kept ++ [value], seen := whole.seen + 1 } where
  kept := kept
  truncated := by
    rw [truncated, decide_eq_decide, List.length_append, List.length_singleton]
    omega
  seen := by rw [seen, related.seen]; simp
  all := by simp [related.all]
  complete := related.complete
  word := by
    simp only [List.mem_append, List.mem_singleton]
    rintro other (before | rfl)
    · exact related.word other before
    · exact word

theorem unsignedItem_related (maximum : Nat) {room unlimited : Nat} (enough : room ≤ unlimited)
    (cut whole : Values) (input : List UInt8)
    (related : Values.KeptOf maximum cut whole ∧ whole.kept.length + input.length ≤ room) :
    Option.Rel (EndAlike fun cut whole input =>
        Values.KeptOf maximum cut whole ∧ whole.kept.length + input.length ≤ room)
      (unsignedItem maximum cut input) (unsignedItem unlimited whole input) := by
  obtain ⟨related, within⟩ := related
  unfold unsignedItem
  cases read : readUnsigned input with
  | none => exact .none
  | some taken =>
      obtain ⟨value, rest⟩ := taken
      obtain ⟨shorter, word⟩ := readUnsigned_shorter read
      have same : cut.seen = whole.seen := related.seen.trans related.all.symm
      have fits : whole.kept.length < unlimited := by omega
      have length := congrArg List.length related.kept
      rw [List.length_take] at length
      have after : (whole.kept ++ [value]).length + rest.length ≤ room := by
        rw [List.length_append, List.length_singleton]
        omega
      simp only [same, fits, if_true]
      split_ifs with last short
      · exact .none
      · -- nothing has been left out so far
        refine .some ⟨rfl, related.push word ?_ ?_ (by rw [same]), after⟩
        · rw [related.kept, List.take_of_length_le (by omega),
            List.take_of_length_le (by rw [List.length_append, List.length_singleton]; omega)]
        · rw [related.truncated, decide_eq_decide]
          omega
      · refine .some ⟨rfl, related.push word ?_ ?_ (by rw [same]), after⟩
        · rw [related.kept, List.take_append_of_le_length (by omega)]
        · symm
          rw [decide_eq_true_iff]
          omega

theorem parseUnsignedArray_related (maximum : Nat) {room unlimited : Nat} {input : List UInt8}
    (within : input.length ≤ room) (enough : room ≤ unlimited) :
    Option.Rel (EndAlike fun cut whole rest =>
        Values.KeptOf maximum cut whole ∧ whole.kept.length + rest.length ≤ room)
      (parseUnsignedArray maximum input) (parseUnsignedArray unlimited input) :=
  parseGroup_related .array (fun _ _ _ _ related shorter => ⟨related.1, by have := related.2; omega⟩)
    (unsignedItem_related maximum enough) ⟨Values.KeptOf.start maximum, by simpa using within⟩

/-! ## Strings -/

/-- What is kept of all the strings: once one is left out, so are all that follow. -/
structure Strings.KeptOf (limits : Limits) (cut whole : Strings) : Prop where
  part : List.Forall₂ List.Sublist cut.kept (whole.kept.take cut.kept.length)
  short : cut.kept.length ≤ whole.kept.length
  full : cut.kept.length < whole.kept.length → cut.available limits = false ∧ cut.truncated = true
  same : cut.truncated = false → cut.kept = whole.kept ∧ whole.truncated = false
  lost : whole.truncated = true → cut.truncated = true
  seen : cut.seen = whole.kept.length
  all : whole.seen = whole.kept.length

theorem Strings.KeptOf.start (limits : Limits) : Strings.KeptOf limits {} {} where
  part := .nil
  short := le_rfl
  full short := by simp at short
  same _ := ⟨rfl, rfl⟩
  lost := id
  seen := rfl
  all := rfl

/-- A string more, of which there was room for a part. -/
theorem Strings.KeptOf.push {limits : Limits} {cut whole : Strings} (related : Strings.KeptOf limits cut whole)
    (room : cut.available limits = true) {value value' : Reading} (part : Reading.KeptOf value value')
    {cut' whole' : Strings} (kept : cut'.kept = cut.kept ++ [value.output])
    (kept' : whole'.kept = whole.kept ++ [value'.output])
    (truncated : cut'.truncated = (cut.truncated || value.truncated))
    (truncated' : whole'.truncated = (whole.truncated || value'.truncated))
    (seen : cut'.seen = cut.seen + 1) (seen' : whole'.seen = whole.seen + 1) :
    Strings.KeptOf limits cut' whole' := by
  have level : cut.kept.length = whole.kept.length := by
    by_contra behind
    have stopped := (related.full (by have := related.short; omega)).1
    rw [room] at stopped
    cases stopped
  have before := related.part
  rw [level, List.take_length] at before
  exact {
    part := by
      rw [kept, kept', List.length_append, level, List.take_of_length_le (by simp)]
      exact List.rel_append before (.cons part.part .nil)
    short := by simp [kept, kept', level]
    full := fun behind => by simp [kept, kept', level] at behind
    same := fun clean => by
      rw [truncated, Bool.or_eq_false_iff] at clean
      obtain ⟨same, complete⟩ := related.same clean.1
      obtain ⟨whole, output⟩ := part.same clean.2
      rw [kept, kept', truncated', same, complete, whole, output]
      exact ⟨rfl, rfl⟩
    lost := fun dirty => by
      rw [truncated', Bool.or_eq_true] at dirty
      rw [truncated, Bool.or_eq_true]
      exact dirty.imp related.lost part.lost
    seen := by rw [seen, related.seen, kept']; simp
    all := by rw [seen', related.all, kept']; simp }

/-- A string more, for which there was no room. -/
theorem Strings.KeptOf.pass {limits : Limits} {cut whole : Strings} (related : Strings.KeptOf limits cut whole)
    (room : cut.available limits = false) {value' : Reading} {whole' : Strings}
    (kept' : whole'.kept = whole.kept ++ [value'.output]) (seen' : whole'.seen = whole.seen + 1) :
    Strings.KeptOf limits { cut with seen := cut.seen + 1, truncated := true } whole' where
  part := by
    rw [kept', List.take_append_of_le_length related.short]
    exact related.part
  short := by
    rw [kept', List.length_append]
    exact related.short.trans (Nat.le_add_right _ _)
  full _ := ⟨room, rfl⟩
  same clean := by cases clean
  lost _ := rfl
  seen := by simp [kept', related.seen]
  all := by simp [seen', kept', related.all]

/-- The strings and what is left of the text take no more than the text did. -/
def Strings.within (room : Nat) (whole : Strings) (input : List UInt8) : Prop :=
  whole.kept.length + input.length ≤ room ∧ whole.bytes + input.length ≤ room

theorem snapshotStringItem_related (limits : Limits) (room : Nat) (cut whole : Strings)
    (input : List UInt8) (related : Strings.KeptOf limits cut whole ∧ whole.within room input) :
    Option.Rel (EndAlike fun cut whole input => Strings.KeptOf limits cut whole ∧ whole.within room input)
      (snapshotStringItem limits cut input) (snapshotStringItem (.none room) whole input) := by
  obtain ⟨related, within⟩ := related
  unfold Strings.within at within
  unfold snapshotStringItem
  by_cases empty : input = []
  · subst empty
    exact .none
  have positive := List.length_pos_iff.2 empty
  have wholeAvailable : whole.available (.none room) = true := by
    show (decide (whole.kept.length < room) && decide (whole.bytes < 2 * room)) = true
    rw [Bool.and_eq_true, decide_eq_true_iff, decide_eq_true_iff]
    omega
  have enough : input.length ≤ min room (2 * room - whole.bytes) := by omega
  simp only [wholeAvailable, if_true]
  obtain ⟨none, none'⟩ | ⟨⟨value, rest⟩, ⟨value', rest'⟩, some, some', part, same, shorter⟩ :=
    rel_cases (readString_kept
      (if cut.available limits then min limits.storedStringBytes (limits.stringBytes - cut.bytes) else 0)
      enough)
  · simp only [Limits.none] at none' ⊢
    rw [none, none']
    exact .none
  · obtain rfl : rest = rest' := same
    have after : Strings.within room
        { kept := whole.kept ++ [value'.output], bytes := whole.bytes + value'.output.length,
          seen := whole.seen + 1, truncated := whole.truncated || value'.truncated } rest := by
      simp only at shorter
      simp only [Strings.within, List.length_append, List.length_singleton]
      omega
    have level : cut.seen = whole.seen := related.seen.trans related.all.symm
    simp only [Limits.none] at some' ⊢
    simp only [some, some', level]
    split_ifs with last room
    · exact .none
    · exact .some ⟨rfl, related.push room part rfl rfl rfl rfl (by rw [level]) rfl, after⟩
    · refine .some ⟨rfl, ?_, after⟩
      rw [← level]
      exact related.pass (Bool.eq_false_iff.2 room) rfl (by rw [level])

theorem parseSnapshotStrings_related (limits : Limits) {room : Nat} {input : List UInt8}
    (enough : input.length ≤ room) :
    Option.Rel (EndAlike fun cut whole rest => Strings.KeptOf limits cut whole ∧ whole.within room rest)
      (parseSnapshotStrings limits input) (parseSnapshotStrings (.none room) input) := by
  refine parseGroup_related .array ?_ (snapshotStringItem_related limits room) ⟨.start limits, ?_⟩
  · rintro cut whole input rest ⟨related, count, bytes⟩ shorter
    exact ⟨related, by omega, by omega⟩
  · exact ⟨by simpa using enough, by simpa using enough⟩

/-! ## Documents -/

namespace SnapshotData

def nodeValues (data : SnapshotData) : Values where
  kept := data.nodes
  seen := data.nodeValuesSeen
  truncated := data.nodeValuesTruncated

def edgeValues (data : SnapshotData) : Values where
  kept := data.edges
  seen := data.edgeValuesSeen
  truncated := data.edgeValuesTruncated

def stringTable (data : SnapshotData) : Strings where
  kept := data.strings
  bytes := data.storedStringBytes
  seen := data.stringsSeen
  truncated := data.stringsTruncated

/-- A document without its arrays. -/
def header (data : SnapshotData) : SnapshotData := withStrings (withEdges (withNodes data {}) {}) {}

/-- What is kept of a document. -/
structure KeptOf (limits : Limits) (cut whole : SnapshotData) : Prop where
  header : cut.header = whole.header
  nodes : Values.KeptOf (whole.nodeFields.length * limits.nodeRecords whole.nodeFields.length)
    cut.nodeValues whole.nodeValues
  edges : Values.KeptOf (whole.edgeFields.length * limits.edgeRecords whole.edgeFields.length)
    cut.edgeValues whole.edgeValues
  strings : Strings.KeptOf limits cut.stringTable whole.stringTable

theorem KeptOf.fields {limits : Limits} {cut whole : SnapshotData} (kept : KeptOf limits cut whole) :
    cut.nodeFields = whole.nodeFields ∧ cut.edgeFields = whole.edgeFields
      ∧ cut.nodeTypes = whole.nodeTypes ∧ cut.edgeTypes = whole.edgeTypes
      ∧ cut.declaredNodes = whole.declaredNodes ∧ cut.declaredEdges = whole.declaredEdges :=
  ⟨(congrArg SnapshotData.nodeFields kept.header :), (congrArg SnapshotData.edgeFields kept.header :),
    (congrArg SnapshotData.nodeTypes kept.header :), (congrArg SnapshotData.edgeTypes kept.header :),
    (congrArg SnapshotData.declaredNodes kept.header :),
    (congrArg SnapshotData.declaredEdges kept.header :)⟩

end SnapshotData

theorem skipMember_state {σ : Type} {state state' : σ} {input rest : List UInt8}
    (read : skipMember state input = some (state', rest)) : state' = state := by
  obtain ⟨left, -, same⟩ := Option.map_eq_some_iff.1 read
  cases same
  rfl

theorem metaItem_header (data : SnapshotData) (input : List UInt8) (data' : SnapshotData)
    (rest : List UInt8) (fresh : data.header = data) (read : metaItem data input = some (data', rest)) :
    data'.header = data' := by
  unfold metaItem at read
  cases key : parseKey input with
  | none => simp [key] at read
  | some taken =>
      simp only [key] at read
      split_ifs at read
      · obtain ⟨⟨nodeFields, left⟩, -, same⟩ := Option.map_eq_some_iff.1 read
        cases same
        exact congrArg (fun data : SnapshotData => { data with nodeFields }) fresh
      · obtain ⟨⟨nodeTypes, left⟩, -, same⟩ := Option.map_eq_some_iff.1 read
        cases same
        exact congrArg (fun data : SnapshotData => { data with nodeTypes }) fresh
      · obtain ⟨⟨edgeFields, left⟩, -, same⟩ := Option.map_eq_some_iff.1 read
        cases same
        exact congrArg (fun data : SnapshotData => { data with edgeFields }) fresh
      · obtain ⟨⟨edgeTypes, left⟩, -, same⟩ := Option.map_eq_some_iff.1 read
        cases same
        exact congrArg (fun data : SnapshotData => { data with edgeTypes }) fresh
      · rw [skipMember_state read]
        exact fresh

theorem headerItem_header (data : SnapshotData) (input : List UInt8) (data' : SnapshotData)
    (rest : List UInt8) (fresh : data.header = data) (read : headerItem data input = some (data', rest)) :
    data'.header = data' := by
  unfold headerItem at read
  cases key : parseKey input with
  | none => simp [key] at read
  | some taken =>
      simp only [key] at read
      split_ifs at read
      · exact parseGroup_keeps (I := fun data => data.header = data) metaItem_header fresh read
      · obtain ⟨⟨declaredNodes, left⟩, -, same⟩ := Option.map_eq_some_iff.1 read
        cases same
        exact congrArg (fun data : SnapshotData => { data with declaredNodes }) fresh
      · obtain ⟨⟨declaredEdges, left⟩, -, same⟩ := Option.map_eq_some_iff.1 read
        cases same
        exact congrArg (fun data : SnapshotData => { data with declaredEdges }) fresh
      · rw [skipMember_state read]
        exact fresh

theorem discoverItem_header (state : SnapshotData × Bool) (input : List UInt8)
    (state' : SnapshotData × Bool) (rest : List UInt8) (fresh : state.1.header = state.1)
    (read : discoverItem state input = some (state', rest)) : state'.1.header = state'.1 := by
  unfold discoverItem at read
  cases key : parseKey input with
  | none => simp [key] at read
  | some taken =>
      simp only [key] at read
      split_ifs at read
      · obtain ⟨⟨data, left⟩, group, same⟩ := Option.map_eq_some_iff.1 read
        cases same
        exact parseGroup_keeps (I := fun data => data.header = data) headerItem_header fresh group
      · rw [skipMember_state read]
        exact fresh

theorem parseKey_shorter {input key rest : List UInt8} (read : parseKey input = some (key, rest)) :
    rest.length ≤ input.length := by
  unfold parseKey at read
  obtain ⟨none, -⟩ | ⟨⟨value, left⟩, ⟨whole, left'⟩, some, -, -, same, shorter⟩ :=
    rel_cases (readString_kept kMaxMetadataTextBytes (le_refl input.length))
  · simp [none] at read
  · obtain rfl : left = left' := same
    simp only [some] at read
    split_ifs at read
    obtain ⟨after, colon, same⟩ := Option.map_eq_some_iff.1 read
    cases same
    have shorter' := consume_shorter colon
    simp only at shorter
    omega

/-! ## Values passed over -/

theorem skipDigits_suffix {input rest : List UInt8} (skipped : skipDigits input = some rest) :
    rest <:+ input := by
  unfold skipDigits at skipped
  split_ifs at skipped
  cases skipped
  exact List.dropWhile_suffix _

theorem skipNumber_suffix {input rest : List UInt8} (skipped : skipNumber input = some rest) :
    rest <:+ input := by
  obtain ⟨afterWhole, first, more⟩ := Option.bind_eq_some_iff.1 skipped
  obtain ⟨afterFraction, second, third⟩ := Option.bind_eq_some_iff.1 more
  have sign : skipSign input <:+ input := by
    unfold skipSign
    split
    · exact List.suffix_rfl
    · split_ifs
      · exact List.suffix_cons _ _
      · exact List.suffix_rfl
  have whole : afterWhole <:+ skipSign input := by
    unfold skipWhole at first
    split at first
    · cases first
    · next byte rest start =>
      rw [start]
      split_ifs at first <;> cases first
      · exact List.suffix_cons _ _
      · exact List.dropWhile_suffix _
  have fraction : afterFraction <:+ afterWhole := by
    unfold skipFraction at second
    split at second
    · cases second
      exact List.suffix_rfl
    · split_ifs at second
      · exact (skipDigits_suffix second).trans (List.suffix_cons _ _)
      · cases second
        exact List.suffix_rfl
  have exponent : rest <:+ afterFraction := by
    unfold skipExponent at third
    split at third
    · cases third
      exact List.suffix_rfl
    · split_ifs at third
      · split at third
        · cases third
        · split_ifs at third
          · exact (skipDigits_suffix third).trans ((List.suffix_cons _ _).trans (List.suffix_cons _ _))
          · exact (skipDigits_suffix third).trans (List.suffix_cons _ _)
      · cases third
        exact List.suffix_rfl
  exact exponent.trans (fraction.trans (whole.trans sign))

theorem skipScalar_suffix {input rest : List UInt8} (skipped : skipScalar input = some rest) :
    rest <:+ input := by
  unfold skipScalar at skipped
  split_ifs at skipped
  · cases skipped
    exact List.drop_suffix _ _
  · cases skipped
    exact List.drop_suffix _ _
  · cases skipped
    exact List.drop_suffix _ _
  · exact skipNumber_suffix skipped

theorem readString_shorter {maximum : Nat} {input rest : List UInt8} {value : Reading}
    (read : readString maximum input = some (value, rest)) : rest.length < input.length := by
  obtain ⟨none, -⟩ | ⟨⟨value, left⟩, ⟨whole, left'⟩, some, -, -, same, shorter⟩ :=
    rel_cases (readString_kept maximum (le_refl input.length))
  · simp [none] at read
  · rw [some] at read
    cases read
    obtain rfl : rest = left' := same
    simp only at shorter
    omega

theorem skipKey_shorter {bracket : Bracket} {input rest : List UInt8}
    (skipped : skipKey bracket input = some rest) : rest.length ≤ input.length := by
  cases bracket with
  | array =>
      cases skipped
      exact le_rfl
  | object =>
      obtain ⟨⟨value, after⟩, read, colon⟩ := Option.bind_eq_some_iff.1 skipped
      exact (consume_shorter colon).le.trans (readString_shorter read).le

section Skip

variable {bracket : Bracket} {loop : List UInt8 → Option (List UInt8)}
  (shorter : ∀ input rest, loop input = some rest → rest.length ≤ input.length)

theorem tail_shorter (input : List UInt8) : (skipWhitespace input).tail.length ≤ input.length := by
  have skipped := skipWhitespace_length_le input
  rw [List.length_tail]
  omega

include shorter

theorem skipGroup_shorter {input rest : List UInt8} (skipped : skipGroup bracket loop input = some rest) :
    rest.length ≤ input.length := by
  unfold skipGroup at skipped
  split_ifs at skipped
  · cases skipped
    exact tail_shorter input
  · exact (shorter _ _ skipped).trans (skipWhitespace_length_le input)

theorem skipAfter_shorter {input rest : List UInt8} (skipped : skipAfter bracket loop input = some rest) :
    rest.length ≤ input.length := by
  unfold skipAfter at skipped
  split_ifs at skipped
  · cases skipped
    exact tail_shorter input
  · obtain ⟨after, taken, more⟩ := Option.bind_eq_some_iff.1 skipped
    exact (shorter _ _ more).trans (consume_shorter taken).le

end Skip

mutual

theorem skipValue_shorter : ∀ (fuel depth : Nat) (input rest : List UInt8),
    skipValue fuel depth input = some rest → rest.length ≤ input.length
  | 0, _, _, _, skipped => by cases skipped
  | fuel + 1, depth, input, rest, skipped => by
      have start := skipWhitespace_length_le input
      rw [skipValue] at skipped
      split_ifs at skipped
      cases first : skipWhitespace input with
      | nil => simp [first] at skipped
      | cons byte after =>
          rw [first, List.length_cons] at start
          simp only [first] at skipped
          split_ifs at skipped
          · obtain ⟨⟨value, left⟩, read, same⟩ := Option.map_eq_some_iff.1 skipped
            obtain rfl : left = rest := same
            have taken := readString_shorter read
            rw [List.length_cons] at taken
            omega
          · have inside := skipGroup_shorter (skipEntries_shorter fuel .object depth) skipped
            omega
          · have inside := skipGroup_shorter (skipEntries_shorter fuel .array depth) skipped
            omega
          · have inside := (skipScalar_suffix skipped).length_le
            rw [List.length_cons] at inside
            omega

theorem skipEntries_shorter : ∀ (fuel : Nat) (bracket : Bracket) (depth : Nat) (input rest : List UInt8),
    skipEntries fuel bracket depth input = some rest → rest.length ≤ input.length
  | 0, _, _, _, _, skipped => by cases skipped
  | fuel + 1, bracket, depth, input, rest, skipped => by
      rw [skipEntries] at skipped
      split_ifs at skipped
      obtain ⟨value, key, more⟩ := Option.bind_eq_some_iff.1 skipped
      obtain ⟨after, entry, others⟩ := Option.bind_eq_some_iff.1 more
      exact (skipAfter_shorter (skipEntries_shorter fuel bracket depth) others).trans
        ((skipValue_shorter fuel (depth + 1) value after entry).trans (skipKey_shorter key))

end

theorem skip_shorter {input rest : List UInt8} (skipped : skip input = some rest) :
    rest.length ≤ input.length :=
  skipValue_shorter _ _ _ _ skipped

section Parts

variable {limits : Limits} {room : Nat} {cut whole : SnapshotData} {input : List UInt8}

/-- Two documents of which the same text is left. -/
def DataKept (limits : Limits) (room : Nat) (cut whole : SnapshotData) (input : List UInt8) : Prop :=
  SnapshotData.KeptOf limits cut whole ∧ input.length ≤ room

theorem parsePart_related (kept : SnapshotData.KeptOf limits cut whole) (enough : input.length ≤ room)
    (part : Part) :
    Option.Rel (EndAlike (DataKept limits room)) (parsePart limits cut input part)
      (parsePart (.none room) whole input part) := by
  obtain ⟨nodeFields, edgeFields, -⟩ := kept.fields
  cases part with
  | snapshot =>
      simp only [parsePart, skipMember]
      cases skipped : skip input with
      | none => exact .none
      | some rest => exact .some ⟨rfl, kept, (skip_shorter skipped).trans enough⟩
  | nodes =>
      simp only [parsePart, nodeFields]
      split_ifs with narrow
      · exact .none
      · have wide : 0 < whole.nodeFields.length := List.length_pos_iff.2 (not_or.1 narrow).1
        obtain ⟨none, none'⟩ | ⟨⟨values, rest⟩, ⟨values', rest'⟩, some, some', same, related, within⟩ :=
          rel_cases (parseUnsignedArray_related
            (whole.nodeFields.length * limits.nodeRecords whole.nodeFields.length) enough
            (Nat.le_mul_of_pos_left room wide))
        · rw [none]
          simp only [Limits.none, none']
          exact .none
        · rw [some]
          simp only [Limits.none, some']
          exact .some ⟨same, ⟨kept.header, related, kept.edges, kept.strings⟩, by
            simp only at within ⊢
            omega⟩
  | edges =>
      simp only [parsePart, edgeFields]
      split_ifs with narrow
      · exact .none
      · have wide : 0 < whole.edgeFields.length := List.length_pos_iff.2 (not_or.1 narrow).1
        obtain ⟨none, none'⟩ | ⟨⟨values, rest⟩, ⟨values', rest'⟩, some, some', same, related, within⟩ :=
          rel_cases (parseUnsignedArray_related
            (whole.edgeFields.length * limits.edgeRecords whole.edgeFields.length) enough
            (Nat.le_mul_of_pos_left room wide))
        · rw [none]
          simp only [Limits.none, none']
          exact .none
        · rw [some]
          simp only [Limits.none, some']
          exact .some ⟨same, ⟨kept.header, kept.nodes, related, kept.strings⟩, by
            simp only at within ⊢
            omega⟩
  | strings =>
      simp only [parsePart]
      obtain ⟨none, none'⟩ | ⟨⟨strings, rest⟩, ⟨strings', rest'⟩, some, some', same, related, within⟩ :=
        rel_cases (parseSnapshotStrings_related limits enough)
      · rw [none, none']
        exact .none
      · rw [some, some']
        exact .some ⟨same, ⟨kept.header, kept.nodes, kept.edges, related⟩, by
          have short := within.1
          simp only at short ⊢
          omega⟩

/-- Two states of the second pass. -/
def PartsKept (limits : Limits) (room : Nat) (cut whole : SnapshotData × List Part)
    (input : List UInt8) : Prop :=
  cut.2 = whole.2 ∧ DataKept limits room cut.1 whole.1 input

theorem partItem_related (cut whole : SnapshotData × List Part) (input : List UInt8)
    (related : PartsKept limits room cut whole input) :
    Option.Rel (EndAlike (PartsKept limits room)) (partItem limits cut input)
      (partItem (.none room) whole input) := by
  obtain ⟨seen, kept, enough⟩ := related
  unfold partItem
  cases read : parseKey input with
  | none => exact .none
  | some taken =>
      obtain ⟨key, rest⟩ := taken
      have shorter := (parseKey_shorter read).trans enough
      simp only
      cases partOf key with
      | none =>
          simp only [skipMember]
          cases skipped : skip rest with
          | none => exact .none
          | some left => exact .some ⟨rfl, seen, kept, (skip_shorter skipped).trans shorter⟩
      | some part =>
          simp only [seen]
          split_ifs
          · exact .none
          · obtain ⟨none, none'⟩ | ⟨⟨data, left⟩, ⟨data', left'⟩, some, some', same, related⟩ :=
              rel_cases (parsePart_related kept shorter part)
            · rw [none, none']
              exact .none
            · rw [some, some']
              exact .some ⟨same, rfl, related⟩

end Parts

theorem SnapshotData.KeptOf.start (limits : Limits) {data : SnapshotData} (fresh : data.header = data) :
    SnapshotData.KeptOf limits data data where
  header := rfl
  nodes := by
    have empty : data.nodeValues = {} := (congrArg SnapshotData.nodeValues fresh.symm :)
    rw [empty]
    exact .start _
  edges := by
    have empty : data.edgeValues = {} := (congrArg SnapshotData.edgeValues fresh.symm :)
    rw [empty]
    exact .start _
  strings := by
    have empty : data.stringTable = {} := (congrArg SnapshotData.stringTable fresh.symm :)
    rw [empty]
    exact .start _

/-- Limits decide what is kept of a document, not whether it is read. -/
theorem parse_kept (limits : Limits) (document : List UInt8) :
    Option.Rel (SnapshotData.KeptOf limits) (parseSnapshotDocument limits document)
      (parseSnapshotDocument (.none document.length) document) := by
  unfold parseSnapshotDocument
  cases discovered : parseObject discoverItem ({}, false) document with
  | none => exact .none
  | some state =>
      obtain ⟨data, found⟩ := state
      simp only
      split_ifs
      · exact .none
      · have fresh : data.header = data :=
          parseObject_keeps (I := fun state : SnapshotData × Bool => state.1.header = state.1)
            discoverItem_header rfl discovered
        obtain ⟨none, none'⟩ | ⟨⟨cut, seen⟩, ⟨whole, seen'⟩, some, some', rest, same, related, -⟩ :=
          rel_cases (parseObject_related
            (fun s t input rest (related : PartsKept limits document.length s t input) shorter =>
              ⟨related.1, related.2.1, shorter.trans related.2.2⟩)
            partItem_related (s := (data, [])) (t := (data, []))
            ⟨rfl, .start limits fresh, le_refl document.length⟩)
        · rw [none, none']
          exact .none
        · obtain rfl : seen = seen' := same
          simp only [some, some']
          split_ifs
          · exact .some related
          · exact .none

end Reb.Analysis.Snapshot
