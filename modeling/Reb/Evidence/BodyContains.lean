/-
# Evidence.BodyContains -- the search for a returned value in a request body

`body_contains` of `js_invocation.rs`: a rolling hash picks the windows of a body, and SHA-256
confirms one of them.  An access out of range is `none`; the answer inside is `none` when the
byte budget ends the search.
-/
import Reb.Evidence.Sha256
import Reb.Theory.Positional

namespace Reb.Evidence.BodySearch

set_option autoImplicit false

abbrev Bytes := List UInt8

def ROLLING_BASE : UInt64 := 0x000001_00000001b3

def SEARCH_BYTE_LIMIT : Nat := 16 <<< 20

def rollingHash (bytes : Bytes) : UInt64 :=
  bytes.foldl (fun hash byte => hash * ROLLING_BASE + byte.toUInt64) 0

variable {Hash : Type} [DecidableEq Hash] (sha256 : Bytes → Hash)

structure Digest32 (Hash : Type) where
  sha256 : Hash
  rolling : UInt64
  byteLength : UInt32

/-- The digest of a text. -/
def digestOf (text : Bytes) : Digest32 Hash where
  sha256 := sha256 text
  rolling := rollingHash text
  byteLength := .ofNat text.length

/-- `&body[start..stop]` -/
def slice (body : Bytes) (start stop : Nat) : Option Bytes :=
  if start ≤ stop ∧ stop ≤ body.length then some ((body.take stop).drop start) else none

def power (length : Nat) : UInt64 := (· * ROLLING_BASE)^[length - 1] 1

/-- The hash of the window at `start`, from that of the window before it. -/
def slide (body : Bytes) (length : Nat) (hash : UInt64) (start : Nat) : Option UInt64 :=
  if start > 0 then do
    let out ← body[start - 1]?
    let incoming ← body[start + length - 1]?
    return (hash - out.toUInt64 * power length) * ROLLING_BASE + incoming.toUInt64
  else some hash

/-- The loop over the starts of the windows. -/
def search (body : Bytes) (digest : Digest32 Hash) (length : Nat) :
    List Nat → UInt64 → Nat → Option (Option Bool)
  | [], _, _ => some (some false)
  | start :: starts, hash, hashed => do
      let hash ← slide body length hash start
      if hash = digest.rolling then
        let hashed := hashed + length
        if hashed > SEARCH_BYTE_LIMIT then return none
        else
          let window ← slice body start (start + length)
          if sha256 window = digest.sha256 then return some true
          else search body digest length starts hash hashed
      else search body digest length starts hash hashed

def bodyContains (body : Bytes) (digest : Digest32 Hash) : Option (Option Bool) :=
  let length := digest.byteLength.toNat
  if length = 0 ∨ length > body.length then some (some false)
  else do
    let first ← slice body 0 length
    search sha256 body digest length (List.range (body.length - length + 1)) (rollingHash first) 0

/-! ## Windows -/

def window (body : Bytes) (length start : Nat) : Bytes := (body.drop start).take length

section Windows

variable {body : Bytes} {length start : Nat}

theorem slice_window (inside : start + length ≤ body.length) :
    slice body start (start + length) = some (window body length start) := by
  rw [slice, if_pos ⟨Nat.le_add_right _ _, inside⟩, List.drop_take, Nat.add_sub_cancel_left, window]

/-- A text that occurs is a window. -/
theorem exists_window {text : Bytes} (occurs : text <:+: body) :
    ∃ start, start + text.length ≤ body.length ∧ window body text.length start = text := by
  obtain ⟨before, after, rfl⟩ := occurs
  refine ⟨before.length, by simp, ?_⟩
  rw [window, List.append_assoc, List.drop_left, List.take_left]

open scoped UInt64.CommRing in
theorem power_eq (length : Nat) : power length = ROLLING_BASE ^ (length - 1) := by
  rw [power]
  induction length - 1 with
  | zero => rfl
  | succ turns ih => rw [Function.iterate_succ_apply', ih, pow_succ]

open scoped UInt64.CommRing in
theorem rollingHash_eq (bytes : Bytes) :
    rollingHash bytes = Theory.Positional.value ROLLING_BASE (bytes.map UInt8.toUInt64) := by
  rw [rollingHash, Theory.Positional.value, List.foldl_map]

open scoped UInt64.CommRing in
/-- After every slide the hash is that of the current window. -/
theorem slide_window (positive : 0 < length) (inside : start + 1 + length ≤ body.length) :
    slide body length (rollingHash (window body length start)) (start + 1)
      = some (rollingHash (window body length (start + 1))) := by
  obtain ⟨less, rfl⟩ : ∃ less, length = less + 1 := ⟨length - 1, by omega⟩
  have front : body[start + 1 - 1]? = some body[start] := List.getElem?_eq_getElem (by omega)
  have back : body[start + 1 + (less + 1) - 1]? = some body[start + 1 + less] :=
    List.getElem?_eq_getElem (by omega)
  have here : window body (less + 1) start = body[start] :: (body.drop (start + 1)).take less := by
    rw [window, List.drop_eq_getElem_cons (by omega), List.take_succ_cons]
  have next : window body (less + 1) (start + 1)
      = (body.drop (start + 1)).take less ++ [body[start + 1 + less]] := by
    rw [window, List.take_add_one, List.getElem?_drop, List.getElem?_eq_getElem (by omega)]
    rfl
  have count : ((body.drop (start + 1)).take less).length = less := by
    rw [List.length_take, List.length_drop]
    omega
  rw [slide, if_pos (Nat.succ_pos _), front, back]
  simp only [Option.bind_eq_bind, Option.bind_some, Option.pure_def, Option.some.injEq]
  rw [here, next, rollingHash_eq, rollingHash_eq, List.map_cons, List.map_append, List.map_singleton,
    ← Theory.Positional.slide, List.length_map, count, power_eq, Nat.add_sub_cancel]

end Windows

/-! ## What the loop finds -/

section Search

variable (body text : Bytes)

/-- A window is hashed by SHA-256 only if its rolling hash is that of the text. -/
def candidate (start : Nat) : Bool := rollingHash (window body text.length start) == rollingHash text

def confirmed (start : Nat) : Bool :=
  decide (sha256 (window body text.length start) = sha256 text)

/-- The candidates up to the first confirmed one, itself included. -/
def tried : List Nat → Nat
  | [] => 0
  | start :: starts => if confirmed sha256 body text start then 1 else tried starts + 1

/-- The answer of the loop at these starts, when so much has been hashed. -/
def answer (starts : List Nat) (hashed : Nat) : Option Bool :=
  let candidates := starts.filter (candidate body text)
  if hashed + text.length * tried sha256 body text candidates > SEARCH_BYTE_LIMIT then none
  else some (candidates.any (confirmed sha256 body text))

variable {body text}

theorem search_eq {first count hashed : Nat} {hash : UInt64} (some_text : text ≠ [])
    (inside : first + count + text.length ≤ body.length + 1) (within : hashed ≤ SEARCH_BYTE_LIMIT)
    (current : 0 < count →
      slide body text.length hash first = some (rollingHash (window body text.length first))) :
    search sha256 body (digestOf sha256 text) text.length (List.range' first count) hash hashed
      = some (answer sha256 body text (List.range' first count) hashed) := by
  induction count generalizing first hashed hash with
  | zero =>
      rw [answer, List.range'_zero, List.filter_nil, tried, Nat.mul_zero, if_neg (by omega)]
      rfl
  | succ count ih =>
      have next : 0 < count → slide body text.length (rollingHash (window body text.length first))
          (first + 1) = some (rollingHash (window body text.length (first + 1))) :=
        fun more => slide_window (List.length_pos_of_ne_nil some_text) (by omega)
      rw [List.range'_succ, search, current (Nat.succ_pos _)]
      simp only [Option.bind_eq_bind, Option.bind_some]
      by_cases same : rollingHash (window body text.length first) = rollingHash text
      · have picks : candidate body text first = true := beq_iff_eq.2 same
        refine (if_pos same).trans ?_
        rw [answer, List.filter_cons_of_pos picks, tried, List.any_cons]
        by_cases exceeds : hashed + text.length > SEARCH_BYTE_LIMIT
        · have more : SEARCH_BYTE_LIMIT < hashed + text.length *
              if confirmed sha256 body text first then 1
              else tried sha256 body text ((List.range' (first + 1) count).filter (candidate body text)) + 1 := by
            split <;> nlinarith
          rw [if_pos exceeds, if_pos more]
          rfl
        · rw [if_neg exceeds, slice_window (by omega)]
          simp only [Option.bind_some]
          by_cases found : sha256 (window body text.length first) = sha256 text
          · have confirms : confirmed sha256 body text first = true := decide_eq_true found
            refine (if_pos found).trans ?_
            rw [confirms, if_pos rfl, Nat.mul_one, if_neg exceeds, Bool.true_or]
            rfl
          · have refuses : confirmed sha256 body text first = false := decide_eq_false found
            have sum (later : Nat) : hashed + text.length * (if false = true then 1 else later + 1)
                = hashed + text.length + text.length * later := by
              rw [if_neg Bool.false_ne_true]
              ring
            refine (if_neg found).trans ?_
            rw [ih (by omega) (by omega) next, answer, refuses, Bool.false_or, sum]
      · have passes : ¬ candidate body text first = true := fun picks => same (beq_iff_eq.1 picks)
        refine (if_neg same).trans ?_
        rw [ih (by omega) within next, answer, answer, List.filter_cons_of_neg passes]

variable (body text) in
/-- The starts of the windows whose rolling hash is that of the text. -/
def candidates : List Nat :=
  (List.range (body.length - text.length + 1)).filter (candidate body text)

theorem bodyContains_eq (some_text : text ≠ []) (encoded : text.length < 2 ^ 32)
    (fits : text.length ≤ body.length) :
    bodyContains sha256 body (digestOf sha256 text)
      = some (answer sha256 body text (List.range (body.length - text.length + 1)) 0) := by
  have length : (digestOf sha256 text).byteLength.toNat = text.length :=
    UInt32.toNat_ofNat_of_lt' encoded
  have positive := List.length_pos_of_ne_nil some_text
  have first : slice body 0 text.length = some (window body text.length 0) := by
    have whole := slice_window (show 0 + text.length ≤ body.length by omega)
    rwa [Nat.zero_add] at whole
  rw [bodyContains]
  simp only [length]
  rw [if_neg (by omega), first, List.range_eq_range']
  exact search_eq sha256 some_text (by omega) (Nat.zero_le _) fun _ => rfl

/-- A text that occurs is a confirmed candidate. -/
theorem occurs_confirmed (occurs : text <:+: body) :
    (candidates body text).any (confirmed sha256 body text) = true := by
  obtain ⟨start, inside, same⟩ := exists_window occurs
  refine List.any_eq_true.2 ⟨start, List.mem_filter.2 ⟨List.mem_range.2 (by omega), ?_⟩, ?_⟩
  · rw [candidate, same, beq_self_eq_true]
  · rw [confirmed, same, decide_eq_true rfl]

/-- The search is exact within its budget, which the windows that SHA-256 hashes count
against: the candidates up to the first confirmed one. -/
theorem bodyContains_exact (some_text : text ≠ []) (encoded : text.length < 2 ^ 32) :
    ∃ found, bodyContains sha256 body (digestOf sha256 text) = some found
      ∧ (found = some true → ∃ start, start + text.length ≤ body.length
          ∧ sha256 (window body text.length start) = sha256 text)
      ∧ (found = some false → ¬ text <:+: body)
      ∧ (found = none → SEARCH_BYTE_LIMIT
          < text.length * tried sha256 body text (candidates body text))
      ∧ ∀ start, start + 1 + text.length ≤ body.length →
          slide body text.length (rollingHash (window body text.length start)) (start + 1)
            = some (rollingHash (window body text.length (start + 1))) := by
  have slides (start : Nat) (inside : start + 1 + text.length ≤ body.length) :=
    slide_window (List.length_pos_of_ne_nil some_text) inside
  by_cases fits : text.length ≤ body.length
  · refine ⟨_, bodyContains_eq sha256 some_text encoded fits, ?_, ?_, ?_, slides⟩
    all_goals
      rw [answer, Nat.zero_add]
      change (if _ then none else some ((candidates body text).any _)) = _ → _
      split
    · exact fun impossible => by cases impossible
    · intro found
      obtain ⟨start, picked, confirms⟩ := List.any_eq_true.1 (Option.some.inj found)
      have range := List.mem_range.1 (List.mem_filter.1 picked).1
      exact ⟨start, by omega, of_decide_eq_true confirms⟩
    · exact fun impossible => by cases impossible
    · intro missed occurs
      rw [occurs_confirmed sha256 occurs] at missed
      cases missed
    · intro _
      assumption
    · exact fun impossible => by cases impossible
  · have length : (digestOf sha256 text).byteLength.toNat = text.length :=
      UInt32.toNat_ofNat_of_lt' encoded
    refine ⟨some false, ?_, by simp, fun _ occurs => fits occurs.length_le, by simp, slides⟩
    rw [bodyContains]
    simp only [length]
    rw [if_pos (.inr (Nat.not_le.1 fits))]

/-- A text above the budget is not looked for, not even in itself. -/
theorem bodyContains_over (long : SEARCH_BYTE_LIMIT < text.length) (encoded : text.length < 2 ^ 32) :
    bodyContains sha256 text (digestOf sha256 text) = some none
      ∧ candidates text text = [0] ∧ confirmed sha256 text text 0 = true := by
  have whole : window text text.length 0 = text := List.take_length
  have confirms : confirmed sha256 text text 0 = true := by rw [confirmed, whole, decide_eq_true rfl]
  have only : candidates text text = [0] := by
    have picked : candidate text text 0 = true := by rw [candidate, whole, beq_self_eq_true]
    rw [candidates, Nat.sub_self, Nat.zero_add, List.range_one, List.filter_cons_of_pos picked,
      List.filter_nil]
  have some_text : text ≠ [] := List.ne_nil_of_length_pos (by omega)
  have exceeds : SEARCH_BYTE_LIMIT < 0 + text.length * tried sha256 text text (candidates text text) := by
    rw [only, tried, confirms, if_pos rfl]
    omega
  exact ⟨(bodyContains_eq sha256 some_text encoded le_rfl).trans (congrArg some (if_pos exceeds)), only,
    confirms⟩

end Search

/-! ## Runs with the digest of the store -/

def sha256Digest (bytes : Bytes) : List UInt8 := (Sha256.update {} bytes).final

theorem bodyContains_exact_sample : ∃ found,
    bodyContains sha256Digest [0x6e, 0x3d, 0x62, 0x26] (digestOf sha256Digest [0x3d, 0x62])
        = some found
      ∧ (found = some false → ¬ [0x3d, 0x62] <:+: ([0x6e, 0x3d, 0x62, 0x26] : Bytes)) := by
  obtain ⟨found, runs, _, missed, _⟩ := @bodyContains_exact _ _ sha256Digest [0x6e, 0x3d, 0x62, 0x26]
    [0x3d, 0x62] (by decide) (by decide)
  exact ⟨found, runs, missed⟩

/-- One byte more than the budget. -/
def beyond : Bytes := List.replicate (SEARCH_BYTE_LIMIT + 1) 0

theorem beyond_length : beyond.length = SEARCH_BYTE_LIMIT + 1 := List.length_replicate

/-- The search misses the empty text, which occurs everywhere; and it ends at a text that is
longer than its budget, though no window comes before the one it would confirm. -/
theorem bodyContains_boundary :
    (bodyContains sha256Digest [] (digestOf sha256Digest []) = some (some false)
        ∧ ([] : Bytes) <:+: [])
      ∧ bodyContains sha256Digest beyond (digestOf sha256Digest beyond) = some none
      ∧ candidates beyond beyond = [0] ∧ confirmed sha256Digest beyond beyond 0 = true := by
  have long : SEARCH_BYTE_LIMIT < beyond.length := by
    rw [beyond_length]
    exact Nat.lt_succ_self _
  have encoded : beyond.length < 2 ^ 32 := by
    rw [beyond_length]
    decide +kernel
  refine ⟨⟨?_, List.infix_rfl⟩, bodyContains_over sha256Digest long encoded⟩
  rw [bodyContains]
  exact if_pos (.inl rfl)

end Reb.Evidence.BodySearch
