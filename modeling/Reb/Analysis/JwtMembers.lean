/-
# Analysis.JwtMembers -- the members that tokens are judged by

The look-up stops in the first member that holds half a surrogate, and says of what
follows that it is not there.  So the flags are right when no later member has the
name, or two earlier ones have (`ReadFar`); a payload with such a member can have a
second expiry put behind its own.
-/
import Reb.Analysis.JsonLayout
import Reb.Analysis.Jwt
import Reb.Analysis.TopLevelMembers

namespace Reb.Analysis

set_option autoImplicit false

/-! ## Members -/

/-- The members that the look-up does not come to. -/
def unreached (members : List Member) : List Member := (members.dropWhile Member.readable).drop 1

theorem namesakes_reached (property : List UInt8) (members : List Member) :
    namesakes property (reached members) + namesakes property (unreached members)
      = namesakes property members := by
  rw [namesakes, namesakes, namesakes, ← List.countP_append, reached, unreached, List.append_assoc,
    List.take_append_drop, List.takeWhile_append_dropWhile]

/-- No member of that name comes after the first unreadable one, or two do up to it. -/
def ReadFar (property : List UInt8) (members : List Member) : Prop :=
  namesakes property (unreached members) = 0 ∨ 2 ≤ namesakes property (reached members)

/-- The flags say whether a member has that name, and whether several have. -/
def Reported (property : List UInt8) (members : List Member) (found : Property) : Prop :=
  (found.present = true ↔ 0 < namesakes property members)
    ∧ (found.duplicate = true ↔ 1 < namesakes property members)

theorem reported_iff {property : List UInt8} {members : List Member} {found : Property}
    (scanned : Scanned property members 0 found) :
    Reported property members found ↔ ReadFar property members := by
  obtain ⟨⟨present, duplicate⟩, -⟩ := scanned
  have total := namesakes_reached property members
  rw [Reported, ReadFar, present, duplicate, decide_eq_true_iff, decide_eq_true_iff, ← total]
  omega

theorem readFar_of_readable {property : List UInt8} {members : List Member}
    (reads : members.all Member.readable = true) : ReadFar property members := by
  left
  have none : members.dropWhile Member.readable = [] := by
    rw [List.dropWhile_eq_nil_iff]
    simpa using reads
  rw [unreached, none]
  rfl

/-! ## Objects -/

/-- An object that has been minified is the one that the text spells. -/
theorem formatJson_object {input : List UInt8} {limit : Nat}
    (ok : (formatJson input false limit).status = .ok)
    (object : isObject (formatJson input false limit).output = true) :
    ∃ entries : Entries .object, SpelledBy (.group .object entries) input
      ∧ (formatJson input false limit).output = (Doc.group .object entries).minified
      ∧ entries.depth ≤ kDecoderMaxJsonDepth
      ∧ (Doc.group .object entries).encoded = true := by
  obtain ⟨doc, spelled, output, -, shallow, -, valid⟩ := JsonFormatter.run_sound ok
  rw [formatJson, output] at object
  have head : (doc.laid flat 0).head? = some 0x7b := by
    simp only [isObject, Bool.and_eq_true, beq_iff_eq] at object
    exact object.1.2
  have encoded := (spelledBy_encoded spelled).symm.trans valid
  cases doc with
  | text text => simp [Doc.laid, Text.quoted, quote] at head
  | number numeral =>
      obtain ⟨byte, left, same⟩ := List.exists_cons_of_ne_nil (numeral_some numeral)
      rw [Doc.laid, same, List.head?_cons, Option.some.injEq] at head
      exact absurd head (numeral_head numeral same).2.1
  | word word => cases word <;> simp [Doc.laid, Word.spelled] at head
  | group bracket entries =>
      cases bracket with
      | array => cases entries <;> simp [Doc.laid, Bracket.opens] at head
      | object => exact ⟨entries, spelled, output, shallow, encoded⟩

/-! ## An expiry put in -/

/-- The entries with one more at the end. -/
def Entries.snoc {bracket : Bracket} (key : bracket.Key) (value : Doc) :
    Entries bracket → Entries bracket
  | .nil => .cons key value .nil
  | .cons first content rest => .cons first content (rest.snoc key value)

theorem snoc_members (key : Text) (value : Doc) : (entries : Entries .object) →
    (entries.snoc key value).members = entries.members ++ [(key, value)]
  | .nil => by simp [Entries.snoc, Entries.members]
  | .cons first content rest => by
      rw [Entries.snoc, Entries.members, Entries.members, snoc_members key value rest,
        List.cons_append]

/-- Before its closing bracket, what follows an entry is continued by the one more. -/
theorem laid_snoc {bracket : Bracket} (key : bracket.Key) (value : Doc) (k : Nat)
    (entries : Entries bracket) : ∃ inner, entries.laid flat k = inner ++ [bracket.closes]
      ∧ (entries.snoc key value).laid flat k
        = inner ++ comma :: (flat.key bracket key ++ value.laid flat (k + 1)) ++ [bracket.closes] := by
  cases entries with
  | nil => exact ⟨[], by simp [Entries.laid, Layout.newline], by
      simp [Entries.snoc, Entries.laid, Layout.newline]⟩
  | cons first content rest =>
      obtain ⟨inner, plain, longer⟩ := laid_snoc key value k rest
      refine ⟨comma :: (flat.key bracket first ++ (content.laid flat (k + 1) ++ inner)), ?_, ?_⟩
      · simp [Entries.laid, Layout.newline, plain]
      · simp [Entries.snoc, Entries.laid, Layout.newline, longer]

theorem insertMember_concat {before member : List UInt8} {last : UInt8} :
    insertMember (before ++ [last]) member
      = before ++ (if before.length = 1 then member else comma :: member) ++ [last] := by
  simp [insertMember]

/-- A member put in before the closing brace is the last one. -/
theorem insertMember_minified (key : Text) (value : Doc) (entries : Entries .object) :
    insertMember (Doc.group .object entries).minified (key.quoted ++ colon :: value.laid flat 1)
      = (Doc.group .object (entries.snoc key value)).minified := by
  have named : flat.key .object key = key.quoted ++ [colon] := rfl
  cases entries with
  | nil =>
      have two : (Doc.group .object .nil).minified = [Bracket.opens .object] ++ [Bracket.closes .object] := by
        simp [Doc.minified, Doc.laid]
      rw [two, insertMember_concat, if_pos (by simp)]
      simp [Doc.minified, Entries.snoc, Doc.laid, Entries.laid, Layout.newline, named]
  | cons first content rest =>
      obtain ⟨inner, plain, longer⟩ := laid_snoc key value 0 rest
      have whole : (Doc.group .object (.cons first content rest)).minified
          = (Bracket.opens .object :: (flat.key .object first ++ (content.laid flat 1 ++ inner)))
            ++ [Bracket.closes .object] := by
        simp [Doc.minified, Doc.laid, Layout.newline, plain]
      have long : ¬ (Bracket.opens .object
          :: (flat.key .object first ++ (content.laid flat 1 ++ inner))).length = 1 := by
        simp [laid_some]
      rw [whole, insertMember_concat, if_neg long]
      simp [Doc.minified, Entries.snoc, Doc.laid, Layout.newline, longer, named]

/-! ## The expiry -/

theorem toUInt8_digit {digit : Char} (digits : digit.isDigit = true) :
    isDigit digit.toUInt8 = true := by
  simp only [Char.isDigit, Bool.and_eq_true, decide_eq_true_eq, ge_iff_le, UInt32.le_iff_toNat_le] at digits
  obtain ⟨least, most⟩ := digits
  have same : digit.toUInt8.toNat = digit.val.toNat := by
    rw [Char.toUInt8, UInt32.toNat_toUInt8]
    change digit.val.toNat ≤ 57 at most
    omega
  simp only [isDigit, Bool.and_eq_true, decide_eq_true_eq, UInt8.le_iff_toNat_le, same]
  exact ⟨least, most⟩

theorem decimal_digits (value : Nat) : ∀ byte ∈ decimal value, isDigit byte = true := by
  intro byte member
  obtain ⟨digit, within, rfl⟩ := List.mem_map.1 member
  exact toUInt8_digit (Nat.isDigit_of_mem_toDigits (by decide) (by decide) within)

theorem decimal_some (value : Nat) : decimal value ≠ [] := by
  simp [decimal, ascii, Nat.toDigits_ne_nil]

theorem decimal_head {value : Nat} (zero : (decimal value).head? = some 0x30) : value = 0 := by
  induction value using Nat.strong_induction_on with
  | _ value ih =>
      by_cases small : value < 10
      · rw [decimal, Nat.toDigits_of_lt_base small] at zero
        have digits : ∀ digit < 10, (ascii [digit.digitChar]).head? = some 0x30 → digit = 0 := by
          decide +kernel
        exact digits value small zero
      · have parts : decimal value = decimal (value / 10) ++ ascii [(value % 10).digitChar] := by
          rw [decimal, Nat.toDigits_of_base_le (by decide) (by omega), ascii, List.map_append]
          rfl
        rw [parts, List.head?_append_of_ne_nil _ (decimal_some _)] at zero
        have none := ih (value / 10) (by omega) zero
        omega

/-- No leading zero is written. -/
theorem decimal_canonical {value : Nat} (zero : (decimal value).head? = some 0x30) :
    decimal value = [0x30] := by
  rw [decimal_head zero]
  rfl

def expKey : Text := [.plain 0x65 (by decide), .plain 0x78 (by decide), .plain 0x70 (by decide)]

def expiryNumeral (expiresAt : UInt64) : Numeral where
  negative := false
  whole := ⟨decimal expiresAt.toNat, decimal_some _, decimal_digits _⟩
  canonical := decimal_canonical
  fraction := none
  exponent := none

/-- The members of a created payload. -/
def withExpiry (entries : Entries .object) : Option UInt64 → Entries .object
  | none => entries
  | some expiresAt => entries.snoc expKey (.number (expiryNumeral expiresAt))

theorem expiryMember_laid (expiresAt : UInt64) :
    expiryMember expiresAt = expKey.quoted ++ colon :: (Doc.number (expiryNumeral expiresAt)).laid flat 1 := by
  have spelled : (Doc.number (expiryNumeral expiresAt)).laid flat 1 = decimal expiresAt.toNat := by
    simp [Doc.laid, Numeral.spelled, expiryNumeral, fractionSpelled]
  rw [spelled]
  rfl

theorem insertMember_expiry (entries : Entries .object) (expiresAt : UInt64) :
    insertMember (Doc.group .object entries).minified (expiryMember expiresAt)
      = (Doc.group .object (withExpiry entries (some expiresAt))).minified := by
  rw [expiryMember_laid, insertMember_minified]
  rfl

/-! ## Creation and inspection -/

/-- The name that `CreateJwt` looks for. -/
abbrev expName : List UInt8 := ascii ['e', 'x', 'p']

/-- The name that `InspectJwt` looks for. -/
abbrev algName : List UInt8 := ascii ['a', 'l', 'g']

/-- What a successful `CreateJwt` has checked and returns. -/
structure Created (payloadJson : List UInt8) (algorithm : JwtAlgorithm) (secret : List UInt8)
    (expiresAt : Option UInt64) (entries : Entries .object) (token : List UInt8) : Prop where
  spelled : SpelledBy (.group .object entries) payloadJson
  shallow : entries.depth ≤ kDecoderMaxJsonDepth
  encoded : (Doc.group .object entries).encoded = true
  supported : algorithm ≠ .unsupported
  keyed : if algorithm = .none then secret = []
    else secret ≠ [] ∧ secret.length ≤ kDecoderMaxSecretBytes
  unnamed : expiresAt.isSome = true → namesakes expName (reached entries.members) = 0
  signed : token = signedToken algorithm secret
    (Doc.group .object (withExpiry entries expiresAt)).minified
  bounded : token.length ≤ kDecoderMaxJwtBytes

theorem boundedToken_ok {algorithm : JwtAlgorithm} {secret payload : List UInt8}
    (ok : (boundedToken algorithm secret payload).status = .ok) :
    (boundedToken algorithm secret payload).token = signedToken algorithm secret payload
      ∧ (signedToken algorithm secret payload).length ≤ kDecoderMaxJwtBytes := by
  rw [boundedToken] at ok ⊢
  split at ok
  · cases ok
  · rename_i fits
    rw [if_neg fits]
    exact ⟨rfl, Nat.not_lt.1 fits⟩

theorem present_unnamed {property : List UInt8} {entries : Entries .object}
    (shallow : entries.depth ≤ kDecoderMaxJsonDepth)
    (absent : (topLevelStringProperty (Doc.group .object entries).minified property).present = false) :
    namesakes property (reached entries.members) = 0 := by
  have present := (topLevelStringProperty_scans property entries shallow).counted.present
  rw [absent, eq_comm, decide_eq_false_iff_not] at present
  omega

theorem createJwt_ok {payloadJson : List UInt8} {algorithm : JwtAlgorithm} {secret : List UInt8}
    {expiresAt : Option UInt64} (ok : (createJwt payloadJson algorithm secret expiresAt).status = .ok) :
    ∃ entries, Created payloadJson algorithm secret expiresAt entries
      (createJwt payloadJson algorithm secret expiresAt).token := by
  unfold createJwt at ok ⊢
  split at ok
  · cases ok
  rename_i bounded
  rw [if_neg bounded]
  split at ok
  · cases ok
  rename_i valid
  rw [if_neg valid]
  simp only [not_or, not_and_or, not_not] at valid
  obtain ⟨supported, unkeyed, keyed⟩ := valid
  dsimp only at ok ⊢
  split at ok
  · cases ok
  rename_i minified
  rw [if_neg minified]
  simp only [not_or, not_not, Bool.not_eq_false] at minified
  obtain ⟨entries, spelled, output, shallow, encoded⟩ := formatJson_object minified.1 minified.2
  have keys : if algorithm = .none then secret = []
      else secret ≠ [] ∧ secret.length ≤ kDecoderMaxSecretBytes := by
    by_cases none : algorithm = .none
    · rw [if_pos none]
      exact unkeyed.resolve_left (not_not.2 none)
    · rw [if_neg none]
      simpa [none] using keyed
  rw [output] at ok ⊢
  cases expiresAt with
  | none =>
      obtain ⟨token, fits⟩ := boundedToken_ok ok
      exact ⟨entries, spelled, shallow, encoded, supported, keys, by simp, token, token ▸ fits⟩
  | some expiresAt =>
      dsimp only at ok ⊢
      split at ok
      · cases ok
      rename_i absent
      rw [if_neg absent]
      obtain ⟨token, fits⟩ := boundedToken_ok ok
      refine ⟨entries, spelled, shallow, encoded, supported, keys, fun _ => ?_, ?_, token ▸ fits⟩
      · exact present_unnamed shallow (by simpa using absent)
      · rw [token, insertMember_expiry]

/-- What a successful `InspectJwt` has found in the header. -/
theorem inspectJwt_header {token : List UInt8} (ok : (inspectJwt token).status = .ok) :
    ∃ (headerSegment payloadSegment signatureSegment header : List UInt8) (entries : Entries .object),
      splitToken token = some (headerSegment, payloadSegment, signatureSegment)
      ∧ base64Decode headerSegment true (8 * 1024) = .success header
      ∧ SpelledBy (.group .object entries) header ∧ entries.depth ≤ kDecoderMaxJsonDepth
      ∧ (headerAlgorithm (Doc.group .object entries).minified).isSome = true := by
  unfold inspectJwt at ok
  split at ok
  · cases ok
  split at ok
  · cases ok
  rename_i headerSegment payloadSegment signatureSegment split
  dsimp only at ok
  split at ok
  · cases ok
  rename_i decoded
  split at ok
  · cases ok
  split at ok
  · cases ok
  split at ok
  · cases ok
  rename_i minified
  split at ok
  · cases ok
  split at ok
  · cases ok
  rename_i algorithm named
  simp only [not_or, not_not, Bool.not_eq_false] at minified decoded
  obtain ⟨entries, spelled, output, shallow, -⟩ := formatJson_object minified.1 minified.2
  refine ⟨headerSegment, payloadSegment, signatureSegment, _, entries, split,
    base64Decode_plain _ _ _ decoded, spelled, shallow, ?_⟩
  rw [← output, named]
  rfl

/-- A header that names its algorithm has it once. -/
theorem headerAlgorithm_once {entries : Entries .object}
    (shallow : entries.depth ≤ kDecoderMaxJsonDepth)
    (named : (headerAlgorithm (Doc.group .object entries).minified).isSome = true) :
    namesakes algName entries.members = 1 := by
  have scanned := topLevelStringProperty_scans algName entries shallow
  unfold headerAlgorithm at named
  dsimp only at named
  split at named
  · cases named
  rename_i algorithm value
  split at named
  · cases named
  rename_i once
  simp only [Bool.or_eq_true, Bool.not_eq_true', not_or, Bool.not_eq_false, Bool.not_eq_true] at once
  have reads : entries.members.all Member.readable = true := by
    by_contra unread
    have gaveUp := scanned.gaveUp (by simpa using unread)
    rw [value] at gaveUp
    cases gaveUp
  have reported := (reported_iff scanned).2 (readFar_of_readable reads)
  have several := reported.1.1 once.1.1.1
  have single : ¬ 1 < namesakes algName entries.members := by
    rw [← reported.2, once.1.1.2]
    decide
  omega

/-! ## What is reported -/

theorem expKey_decoded : expKey.decoded = some expName := by decide +kernel

/-- A payload that was given an expiry has one, if the look-up read far enough. -/
theorem withExpiry_once {entries : Entries .object} {expiresAt : UInt64}
    (unnamed : namesakes expName (reached entries.members) = 0) :
    namesakes expName (withExpiry entries (some expiresAt)).members = 1
      ↔ ReadFar expName entries.members := by
  have total := namesakes_reached expName entries.members
  have one : namesakes expName [(expKey, Doc.number (expiryNumeral expiresAt))] = 1 := by
    rw [namesakes, List.countP_singleton, if_pos]
    rw [Member.named, expKey_decoded]
    exact beq_self_eq_true _
  rw [withExpiry, snoc_members, namesakes, List.countP_append, ← namesakes, ← namesakes, one, ReadFar]
  omega

/-- The flags of the look-up are right exactly when it reads far enough, and so is the
one expiry of a created payload; an accepted header has one algorithm in any case. -/
theorem members_reported (input payloadJson secret token : List UInt8) (limit : Nat)
    (algorithm : JwtAlgorithm) (expiresAt : UInt64) :
    ((formatJson input false limit).status = .ok →
      isObject (formatJson input false limit).output = true →
        ∃ entries : Entries .object, SpelledBy (.group .object entries) input
          ∧ (formatJson input false limit).output = (Doc.group .object entries).minified
          ∧ ∀ property : List UInt8,
            Reported property entries.members
                (topLevelStringProperty (formatJson input false limit).output property)
              ↔ ReadFar property entries.members)
    ∧ ((createJwt payloadJson algorithm secret (some expiresAt)).status = .ok →
        ∃ entries : Entries .object, SpelledBy (.group .object entries) payloadJson
          ∧ (createJwt payloadJson algorithm secret (some expiresAt)).token
            = signedToken algorithm secret
              (Doc.group .object (withExpiry entries (some expiresAt))).minified
          ∧ (namesakes expName (withExpiry entries (some expiresAt)).members = 1
            ↔ ReadFar expName entries.members))
    ∧ ((inspectJwt token).status = .ok →
      ∃ (headerSegment payloadSegment signatureSegment header : List UInt8)
          (entries : Entries .object),
        splitToken token = some (headerSegment, payloadSegment, signatureSegment)
        ∧ base64Decode headerSegment true (8 * 1024) = .success header
        ∧ SpelledBy (.group .object entries) header
        ∧ namesakes algName entries.members = 1) := by
  refine ⟨?_, ?_, ?_⟩
  · intro ok object
    obtain ⟨entries, spelled, output, shallow, -⟩ := formatJson_object ok object
    refine ⟨entries, spelled, output, fun property => ?_⟩
    rw [output]
    exact reported_iff (topLevelStringProperty_scans property entries shallow)
  · intro ok
    obtain ⟨entries, created⟩ := createJwt_ok ok
    exact ⟨entries, created.spelled, created.signed, withExpiry_once (created.unnamed rfl)⟩
  · intro ok
    obtain ⟨headerSegment, payloadSegment, signatureSegment, header, entries, split, decoded,
      spelled, shallow, named⟩ := inspectJwt_header ok
    exact ⟨headerSegment, payloadSegment, signatureSegment, header, entries, split, decoded,
      spelled, headerAlgorithm_once shallow named⟩

/-- An object with an expiry, and a token whose header names its algorithm. -/
theorem members_reported_sample :
    (∃ entries : Entries .object, SpelledBy (.group .object entries)
        (ascii ['{', '"', 'e', 'x', 'p', '"', ':', '1', '}'])
      ∧ ∀ property : List UInt8, Reported property entries.members
          (topLevelStringProperty (ascii ['{', '"', 'e', 'x', 'p', '"', ':', '1', '}']) property)
        ↔ ReadFar property entries.members)
    ∧ (∃ entries : Entries .object, SpelledBy (.group .object entries) (ascii ['{', '}'])
      ∧ (namesakes expName (withExpiry entries (some 1)).members = 1
        ↔ ReadFar expName entries.members))
    ∧ ∃ entries : Entries .object,
      SpelledBy (.group .object entries) (createdHeader .none)
        ∧ namesakes algName entries.members = 1 := by
  obtain ⟨objects, payloads, tokens⟩ := members_reported
    (ascii ['{', '"', 'e', 'x', 'p', '"', ':', '1', '}']) (ascii ['{', '}']) []
    (signedToken .none [] (ascii ['{', '}'])) 100 .none 1
  refine ⟨?_, ?_, ?_⟩
  · obtain ⟨entries, spelled, -, reported⟩ := objects (by decide +kernel) (by decide +kernel)
    have same : (formatJson (ascii ['{', '"', 'e', 'x', 'p', '"', ':', '1', '}']) false 100).output
        = ascii ['{', '"', 'e', 'x', 'p', '"', ':', '1', '}'] := by decide +kernel
    rw [same] at reported
    exact ⟨entries, spelled, reported⟩
  · obtain ⟨entries, spelled, -, once⟩ := payloads (by decide +kernel)
    exact ⟨entries, spelled, once⟩
  · obtain ⟨headerSegment, payloadSegment, signatureSegment, header, entries, split, decoded, spelled,
      once⟩ := tokens (by decide +kernel)
    have segment : splitToken (signedToken .none [] (ascii ['{', '}']))
        = some (base64Encode true false (createdHeader .none),
          base64Encode true false (ascii ['{', '}']), []) := by decide +kernel
    rw [segment] at split
    cases split
    have same : base64Decode (base64Encode true false (createdHeader .none)) true (8 * 1024)
        = .success (createdHeader .none) := by decide +kernel
    rw [same] at decoded
    cases decoded
    exact ⟨entries, spelled, once⟩

/-- An object with half a surrogate in front of its expiry: `{"x":"\ud800","exp":1}`. -/
def halfSurrogate : Entries .object :=
  .cons [.plain 0x78 (by decide)]
    (.text [.unit ⟨0x64, by decide⟩ ⟨0x38, by decide⟩ ⟨0x30, by decide⟩ ⟨0x30, by decide⟩])
    (.cons expKey (.number (expiryNumeral 1)) .nil)

/-- The expiry of that object is not reported, and a second one is put behind it. -/
theorem expiry_overlooked :
    ¬ ∀ (payloadJson secret : List UInt8) (algorithm : JwtAlgorithm) (expiresAt : UInt64)
      (entries : Entries .object), SpelledBy (.group .object entries) payloadJson →
        (createJwt payloadJson algorithm secret (some expiresAt)).status = .ok →
          Reported expName entries.members
              (topLevelStringProperty (formatJson payloadJson false (56 * 1024)).output expName)
            ∧ namesakes expName (withExpiry entries (some expiresAt)).members = 1 := by
  intro all
  have spelled := laid_spelledBy flat (.group .object halfSurrogate)
  have overlooked := all _ [] .none 2 halfSurrogate spelled (by decide +kernel)
  have twice : namesakes expName (withExpiry halfSurrogate (some 2)).members = 2 := by
    rw [withExpiry, snoc_members, halfSurrogate]
    simp only [Entries.members]
    decide +kernel
  omega

end Reb.Analysis
