/-
# Analysis.JwtRoundTrip -- tokens that verify again

A created token has three segments that decode to its header, its payload and its
signature, and inspection accepts each of them but for one bound: the payload is shown
indented, in at most 112 KiB.  Within that bound the token verifies (`created_verifies`);
over it, inspection says so.
-/
import Reb.Analysis.JwtMembers

namespace Reb.Analysis

set_option autoImplicit false

/-! ## Segments -/

theorem dropWhile_dot {segment : List UInt8} (plain : ∀ byte ∈ segment, byte ≠ dot)
    (rest : List UInt8) : (segment ++ dot :: rest).dropWhile (· != dot) = dot :: rest := by
  rw [List.dropWhile_append_of_pos (by simpa using plain), List.dropWhile_cons_of_neg (by simp)]

theorem takeWhile_dot {segment : List UInt8} (plain : ∀ byte ∈ segment, byte ≠ dot)
    (rest : List UInt8) : (segment ++ dot :: rest).takeWhile (· != dot) = segment := by
  rw [List.takeWhile_append_of_pos (by simpa using plain), List.takeWhile_cons_of_neg (by simp),
    List.append_nil]

/-- Three segments without dots are split at the two dots between them. -/
theorem splitToken_join {header payload signature : List UInt8}
    (plain : ∀ byte ∈ header, byte ≠ dot) (plain' : ∀ byte ∈ payload, byte ≠ dot)
    (plain'' : ∀ byte ∈ signature, byte ≠ dot) (first : header ≠ []) (second : payload ≠ []) :
    splitToken (signingInput header payload ++ dot :: signature)
      = some (header, payload, signature) := by
  have whole : signingInput header payload ++ dot :: signature
      = header ++ dot :: (payload ++ dot :: signature) := by
    simp [signingInput]
  have single : ¬ (dot ∈ signature ∨ header = [] ∨ payload = []) := by
    simp only [not_or]
    exact ⟨fun member => plain'' dot member rfl, first, second⟩
  rw [whole]
  unfold splitToken
  rw [dropWhile_dot plain]
  simp only
  rw [dropWhile_dot plain']
  simp only
  rw [takeWhile_dot plain, takeWhile_dot plain', if_neg single]

-- Two dots are needed, and only two may stand there.
example : splitToken [0x61, dot, 0x62, dot] = some ([0x61], [0x62], []) ∧ splitToken [0x61, dot, 0x62] = none := by
  decide +kernel

theorem letters_plain (input : List UInt8) : ∀ byte ∈ base64Encode true false input, byte ≠ dot :=
  fun byte member => (base64Letters_safe true input byte member).2

theorem letters_some {input : List UInt8} (some : input ≠ []) : base64Encode true false input ≠ [] := by
  intro none
  have size := base64Letters_length true input
  have long := List.length_pos_of_ne_nil some
  rw [none, List.length_nil] at size
  omega

/-! ## The header -/

structure HeaderReads (algorithm : JwtAlgorithm) : Prop where
  minified : formatJson (createdHeader algorithm) false (8 * 1024)
    = .success (createdHeader algorithm)
  object : isObject (createdHeader algorithm) = true
  named : headerAlgorithm (createdHeader algorithm) = some (jwtAlgorithmName algorithm)
  shown : (formatJson (createdHeader algorithm) true (16 * 1024)).status = .ok
  known : jwtAlgorithmFromName (jwtAlgorithmName algorithm) = algorithm
  short : (createdHeader algorithm).length ≤ 8 * 1024

theorem createdHeader_reads {algorithm : JwtAlgorithm} (supported : algorithm ≠ .unsupported) :
    HeaderReads algorithm := by
  cases algorithm with
  | unsupported => exact absurd rfl supported
  | none | hs256 | hs384 | hs512 =>
      constructor <;> decide +kernel

/-! ## The payload -/

theorem keyTokens_le {bracket : Bracket} (key : bracket.Key) :
    bracket.keyTokens ≤ (flat.key bracket key).length := by
  cases bracket <;> simp [Bracket.keyTokens, Layout.key, Text.quoted]

mutual

/-- A token is at least a byte. -/
theorem tokens_le (k : Nat) : (doc : Doc) → doc.tokens ≤ (doc.laid flat k).length
  | .text text => by simp [Doc.tokens, Doc.laid, Text.quoted]
  | .number numeral => by
      have long := List.length_pos_of_ne_nil (numeral_some numeral)
      rw [Doc.tokens, Doc.laid]
      omega
  | .word word => by cases word <;> simp [Doc.tokens, Doc.laid, Word.spelled]
  | .group bracket .nil => by simp [Doc.tokens, Entries.tokens, Doc.laid]
  | .group bracket (.cons key value others) => by
      have first := keyTokens_le key
      have middle := tokens_le (k + 1) value
      have last := entriesTokens_le k others
      simp only [Doc.tokens, Entries.tokens, Doc.laid, List.length_cons, List.length_append]
      omega

theorem entriesTokens_le {bracket : Bracket} (k : Nat) :
    (entries : Entries bracket) → entries.tokens ≤ (entries.laid flat k).length
  | .nil => by simp [Entries.tokens]
  | .cons key value others => by
      have first := keyTokens_le key
      have middle := tokens_le (k + 1) value
      have last := entriesTokens_le k others
      simp only [Entries.tokens, Entries.laid, List.length_cons, List.length_append]
      omega

end

theorem snoc_depth {bracket : Bracket} (key : bracket.Key) (value : Doc) :
    (entries : Entries bracket) → (entries.snoc key value).depth = max entries.depth (value.depth + 1)
  | .nil => by simp [Entries.snoc, Entries.depth]
  | .cons first content rest => by
      rw [Entries.snoc, Entries.depth, Entries.depth, snoc_depth key value rest, Nat.max_assoc]

theorem snoc_encoded {bracket : Bracket} (key : bracket.Key) (value : Doc) :
    (entries : Entries bracket) → (entries.snoc key value).encoded
      = (entries.encoded && (keyEncoded bracket key && value.encoded))
  | .nil => by simp [Entries.snoc, Entries.encoded]
  | .cons first content rest => by
      rw [Entries.snoc, Entries.encoded, Entries.encoded, snoc_encoded key value rest, Bool.and_assoc,
        Bool.and_assoc, Bool.and_assoc]

theorem withExpiry_depth {entries : Entries .object} (expiresAt : Option UInt64)
    (shallow : entries.depth ≤ kDecoderMaxJsonDepth) :
    (withExpiry entries expiresAt).depth ≤ kDecoderMaxJsonDepth := by
  cases expiresAt with
  | none => exact shallow
  | some expiresAt =>
      rw [withExpiry, snoc_depth, Doc.depth]
      exact Nat.max_le.2 ⟨shallow, by decide⟩

theorem withExpiry_encoded {entries : Entries .object} (expiresAt : Option UInt64)
    (encoded : entries.encoded = true) : (withExpiry entries expiresAt).encoded = true := by
  cases expiresAt with
  | none => exact encoded
  | some expiresAt =>
      rw [withExpiry, snoc_encoded, encoded, Doc.encoded, Bool.true_and, Bool.and_true]
      decide +kernel

theorem minified_object (entries : Entries .object) :
    isObject (Doc.group .object entries).minified = true := by
  cases entries with
  | nil => decide +kernel
  | cons key value others =>
      have closes := last_closes (flat.key .object key ++ value.laid flat 1) (Bracket.opens .object)
        others 0
      have laid : (Doc.group .object (.cons key value others)).minified
          = 0x7b :: (flat.key .object key ++ value.laid flat 1 ++ others.laid flat 0) := by
        simp [Doc.minified, Doc.laid, Layout.newline, Bracket.opens]
      have opens : (0x7b : UInt8) = Bracket.opens .object := rfl
      rw [isObject, laid, opens, closes]
      simp [Bracket.closes, Bracket.opens, Layout.key, Text.quoted]

/-! ## Tokens -/

/-- The signature of a created token. -/
def createdSignature (algorithm : JwtAlgorithm) (secret payload : List UInt8) : List UInt8 :=
  if algorithm = .none then []
  else hmacSha2 algorithm secret (signingInput (base64Encode true false (createdHeader algorithm))
    (base64Encode true false payload))

theorem createdSignature_length (algorithm : JwtAlgorithm) (secret payload : List UInt8) :
    (createdSignature algorithm secret payload).length ≤ 64 := by
  rw [createdSignature]
  split
  · exact Nat.zero_le _
  · exact hmacSha2_length _ _ _

theorem isObject_some {payload : List UInt8} (object : isObject payload = true) : payload ≠ [] := by
  rintro rfl
  cases object

theorem signedToken_split {algorithm : JwtAlgorithm} {secret payload : List UInt8}
    (supported : algorithm ≠ .unsupported) (object : isObject payload = true) :
    splitToken (signedToken algorithm secret payload)
      = some (base64Encode true false (createdHeader algorithm), base64Encode true false payload,
        base64Encode true false (createdSignature algorithm secret payload)) :=
  splitToken_join (letters_plain _) (letters_plain _) (letters_plain _)
    (letters_some (isObject_some (createdHeader_reads supported).object))
    (letters_some (isObject_some object))

/-- A token that fits has a payload that does. -/
theorem signedToken_payload {algorithm : JwtAlgorithm} {secret payload : List UInt8}
    (bounded : (signedToken algorithm secret payload).length ≤ kDecoderMaxJwtBytes) :
    payload.length ≤ 56 * 1024 := by
  have size := base64Letters_length true payload
  simp only [signedToken, signingInput, List.length_append, List.length_cons, size,
    kDecoderMaxJwtBytes] at bounded
  omega

/-- What inspection finds in a created token, apart from the display of the payload. -/
theorem inspectJwt_signed {algorithm : JwtAlgorithm} {secret payload : List UInt8}
    (supported : algorithm ≠ .unsupported) (object : isObject payload = true)
    (minified : formatJson payload false (56 * 1024) = .success payload)
    (bounded : (signedToken algorithm secret payload).length ≤ kDecoderMaxJwtBytes) :
    inspectJwt (signedToken algorithm secret payload)
      = if (formatJson payload true (112 * 1024)).status ≠ .ok then
          jwtFailure "JWT JSON display exceeds the bounded output limit"
        else
          { status := .ok
            algorithm := jwtAlgorithmName algorithm
            algorithmKind := algorithm
            signatureStatus :=
              inspectedSignature algorithm (createdSignature algorithm secret payload)
            headerJson := (formatJson (createdHeader algorithm) true (16 * 1024)).output
            payloadJson := (formatJson payload true (112 * 1024)).output
            tokenBytes := (signedToken algorithm secret payload).length
            signatureBytes := (createdSignature algorithm secret payload).length } := by
  have reads := createdHeader_reads supported
  have long : ¬ (signedToken algorithm secret payload = []
      ∨ (signedToken algorithm secret payload).length > kDecoderMaxJwtBytes) := by
    simp only [not_or]
    exact ⟨by simp [signedToken], Nat.not_lt.2 bounded⟩
  have header : base64Decode (base64Encode true false (createdHeader algorithm)) true (8 * 1024)
      = .success (createdHeader algorithm) := base64Decode_encode (.inl rfl) reads.short
  have content : base64Decode (base64Encode true false payload) true (56 * 1024) = .success payload :=
    base64Decode_encode (.inl rfl) (signedToken_payload bounded)
  have signature : base64Decode (base64Encode true false (createdSignature algorithm secret payload))
      true 128 = .success (createdSignature algorithm secret payload) :=
    base64Decode_encode (.inl rfl)
      (Nat.le_trans (createdSignature_length algorithm secret payload) (by decide))
  rw [inspectJwt, if_neg long, signedToken_split supported object]
  simp only [header, content, signature, DecoderResult.success, ne_eq, not_true, if_false,
    reads.minified, minified, reads.object, object, reads.named, reads.shown, reads.known,
    Bool.true_eq_false, or_self, false_or]

/-- A created token verifies, once it has been accepted. -/
theorem verifyJwt_signed {algorithm : JwtAlgorithm} {secret payload : List UInt8}
    (supported : algorithm ≠ .unsupported) (object : isObject payload = true)
    (keyed : if algorithm = .none then secret = []
      else secret ≠ [] ∧ secret.length ≤ kDecoderMaxSecretBytes)
    {inspection : JwtInspection}
    (inspected : inspectJwt (signedToken algorithm secret payload) = inspection)
    (ok : inspection.status = .ok) (kind : inspection.algorithmKind = algorithm)
    (checked : inspection.signatureStatus
      = inspectedSignature algorithm (createdSignature algorithm secret payload)) :
    (verifyJwt (signedToken algorithm secret payload) secret).status = .ok
      ∧ (verifyJwt (signedToken algorithm secret payload) secret).signatureStatus
        = (if algorithm = .none then .unsigned else .verified)
      ∧ (verifyJwt (signedToken algorithm secret payload) secret).payloadJson
        = inspection.payloadJson := by
  rw [verifyJwt, inspected]
  dsimp only
  rw [if_neg (by simp [ok]), kind]
  by_cases unsigned : algorithm = .none
  · rw [if_pos unsigned, if_pos unsigned]
    refine ⟨ok, ?_, rfl⟩
    rw [checked, unsigned]
    rfl
  · rw [if_neg unsigned] at keyed
    have bounded : ¬ (secret = [] ∨ secret.length > kDecoderMaxSecretBytes) := by
      simp only [not_or]
      exact ⟨keyed.1, Nat.not_lt.2 keyed.2⟩
    have signature : base64Decode (base64Encode true false (createdSignature algorithm secret payload))
        true 128 = .success (createdSignature algorithm secret payload) :=
      base64Decode_encode (.inl rfl)
        (Nat.le_trans (createdSignature_length algorithm secret payload) (by decide))
    have same : createdSignature algorithm secret payload
        = hmacSha2 algorithm secret (signingInput (base64Encode true false (createdHeader algorithm))
          (base64Encode true false payload)) := if_neg unsigned
    rw [if_neg unsigned, if_neg unsigned, if_neg supported, if_neg bounded,
      signedToken_split supported object]
    simp only [signature, DecoderResult.success]
    refine ⟨ok, ?_, trivial⟩
    rw [if_pos ⟨trivial, constantTimeEqual_iff.2 same.symm⟩]

/-! ## Forgeries -/

/-- A verified token is signed by the HMAC of what it signs. -/
theorem verifyJwt_verified {token secret : List UInt8}
    (verified : (verifyJwt token secret).signatureStatus = .verified) :
    ∃ header payload signature, splitToken token = some (header, payload, signature)
      ∧ base64Decode signature true 128
        = .success (hmacSha2 (verifyJwt token secret).algorithmKind secret (signingInput header payload)) := by
  have unchecked : (inspectJwt token).signatureStatus ≠ .verified := by
    unfold inspectJwt
    dsimp only
    repeat' split
    all_goals first
      | exact fun impossible => by cases impossible
      | skip
    unfold inspectedSignature
    split
    · split <;> exact fun impossible => by cases impossible
    · exact fun impossible => by cases impossible
    · exact fun impossible => by cases impossible
  unfold verifyJwt at verified ⊢
  dsimp only at verified ⊢
  split at verified
  · exact absurd verified unchecked
  rename_i accepted
  rw [if_neg accepted]
  split at verified
  · exact absurd verified unchecked
  rename_i signed
  rw [if_neg signed]
  split at verified
  · exact absurd verified unchecked
  rename_i supported
  rw [if_neg supported]
  split at verified
  · exact absurd verified unchecked
  rename_i keyed
  rw [if_neg keyed]
  split at verified
  · exact absurd verified unchecked
  rename_i header payload signature split
  split at verified
  · rename_i matching
    refine ⟨header, payload, signature, split, ?_⟩
    rw [base64Decode_plain _ _ _ matching.1, ← constantTimeEqual_iff.1 matching.2]
  · cases verified

/-! ## Created tokens -/

/-- A payload of less than 48 000 bytes leaves room for the header and the signature. -/
theorem signedToken_bounded {algorithm : JwtAlgorithm} {secret payload : List UInt8}
    (short : payload.length ≤ 48000) :
    (signedToken algorithm secret payload).length ≤ kDecoderMaxJwtBytes := by
  have letters := base64Letters_length true payload
  have header : (base64Encode true false (createdHeader algorithm)).length ≤ 46 := by
    cases algorithm <;> decide +kernel
  have signature := base64Letters_length true (createdSignature algorithm secret payload)
  have digest := createdSignature_length algorithm secret payload
  have size : (signedToken algorithm secret payload).length
      = (base64Encode true false (createdHeader algorithm)).length
        + ((base64Encode true false payload).length + 1)
        + ((base64Encode true false (createdSignature algorithm secret payload)).length + 1) := by
    rw [← List.length_cons, ← List.length_cons, ← List.length_append, ← List.length_append]
    rfl
  rw [size, kDecoderMaxJwtBytes]
  omega

/-- A short object is made into a token. -/
theorem createJwt_accepts {entries : Entries .object} {algorithm : JwtAlgorithm} {secret : List UInt8}
    (shallow : entries.depth ≤ kDecoderMaxJsonDepth)
    (encoded : (Doc.group .object entries).encoded = true)
    (short : (Doc.group .object entries).minified.length ≤ 48000)
    (supported : algorithm ≠ .unsupported)
    (keyed : if algorithm = .none then secret = []
      else secret ≠ [] ∧ secret.length ≤ kDecoderMaxSecretBytes) :
    createJwt (Doc.group .object entries).minified algorithm secret none
      = { status := .ok
          token := signedToken algorithm secret (Doc.group .object entries).minified } := by
  have counts := tokens_le 0 (.group .object entries)
  have accepted : formatJson (Doc.group .object entries).minified false (56 * 1024)
      = .success (Doc.group .object entries).minified :=
    JsonFormatter.run_laid flat (Nat.le_trans counts (Nat.le_trans short (by decide))) shallow encoded
      (Nat.le_trans short (by decide))
  have object := minified_object entries
  generalize (Doc.group .object entries).minified = payload at *
  have fits : ¬ (payload = [] ∨ payload.length > 56 * 1024) := by
    simp only [not_or]
    exact ⟨isObject_some object, by omega⟩
  have valid : ¬ (algorithm = .unsupported ∨ (algorithm = .none ∧ secret ≠ []) ∨
      (algorithm ≠ .none ∧ (secret = [] ∨ secret.length > kDecoderMaxSecretBytes))) := by
    by_cases unsigned : algorithm = .none
    · rw [if_pos unsigned] at keyed
      simp [unsigned, keyed]
    · rw [if_neg unsigned] at keyed
      simp [unsigned, supported, keyed.1, keyed.2]
  rw [createJwt, if_neg fits, if_neg valid, accepted]
  simp only [DecoderResult.success, object, ne_eq, not_true, Bool.true_eq_false, or_self, if_false]
  rw [boundedToken, if_neg (Nat.not_lt.2 (signedToken_bounded short))]

/-- What `VerifyJwt` says of a created token: all is well, or the display is too long. -/
def Verifies (algorithm : JwtAlgorithm) (shown : List UInt8) (inspection : JwtInspection) : Prop :=
  if shown.length ≤ 112 * 1024 then
    inspection.status = .ok
      ∧ inspection.signatureStatus = (if algorithm = .none then .unsigned else .verified)
      ∧ inspection.payloadJson = shown
  else inspection = jwtFailure "JWT JSON display exceeds the bounded output limit"

theorem created_verify {payloadJson : List UInt8} {algorithm : JwtAlgorithm} {secret : List UInt8}
    {expiresAt : Option UInt64} {entries : Entries .object} {token : List UInt8}
    (created : Created payloadJson algorithm secret expiresAt entries token) :
    Verifies algorithm (Doc.group .object (withExpiry entries expiresAt)).pretty
      (verifyJwt token secret) := by
  obtain ⟨-, shallow, encoded, supported, keyed, -, rfl, bounded⟩ := created
  have shallow' := withExpiry_depth expiresAt shallow
  have encoded' := withExpiry_encoded expiresAt encoded
  generalize withExpiry entries expiresAt = entries at *
  have object := minified_object entries
  have fits := signedToken_payload bounded
  have counts : (Doc.group .object entries).tokens ≤ kDecoderMaxJsonTokens :=
    Nat.le_trans (tokens_le 0 _) (Nat.le_trans fits (by decide))
  have minified : formatJson (Doc.group .object entries).minified false (56 * 1024)
      = .success (Doc.group .object entries).minified :=
    JsonFormatter.run_laid flat counts shallow' encoded' fits
  have inspected := inspectJwt_signed supported object minified bounded
  rw [Verifies]
  split
  · rename_i room
    have shown : formatJson (Doc.group .object entries).minified true (112 * 1024)
        = .success (Doc.group .object entries).pretty :=
      JsonFormatter.run_laid flat counts shallow' encoded' room
    rw [shown, if_neg (by simp [DecoderResult.success])] at inspected
    exact verifyJwt_signed supported object keyed inspected rfl rfl rfl
  · rename_i long
    have refused : (formatJson (Doc.group .object entries).minified true (112 * 1024)).status ≠ .ok :=
      JsonFormatter.run_exceeds (laid_spelledBy flat _) counts shallow' (Nat.not_le.1 long)
    rw [if_pos refused] at inspected
    rw [verifyJwt, inspected]
    rfl

/-- A created token verifies exactly when its payload can be shown, and what verifies with its
signature has its HMAC. -/
theorem created_tokens_verify :
    (∀ (payloadJson secret : List UInt8) (algorithm : JwtAlgorithm) (expiresAt : Option UInt64),
      (createJwt payloadJson algorithm secret expiresAt).status = .ok →
        ∃ entries : Entries .object, SpelledBy (.group .object entries) payloadJson
          ∧ Verifies algorithm (Doc.group .object (withExpiry entries expiresAt)).pretty
            (verifyJwt (createJwt payloadJson algorithm secret expiresAt).token secret))
    ∧ ∀ (payloadJson secret : List UInt8) (algorithm : JwtAlgorithm) (expiresAt : Option UInt64),
      (createJwt payloadJson algorithm secret expiresAt).status = .ok →
        ∀ token secret' header payload header' payload' signature : List UInt8,
          splitToken (createJwt payloadJson algorithm secret expiresAt).token
            = some (header, payload, signature) →
          splitToken token = some (header', payload', signature) →
          (verifyJwt token secret').signatureStatus = .verified →
            hmacSha2 (verifyJwt token secret').algorithmKind secret' (signingInput header' payload')
              = if algorithm = .none then []
                else hmacSha2 algorithm secret (signingInput header payload) := by
  constructor
  · intro payloadJson secret algorithm expiresAt ok
    obtain ⟨entries, created⟩ := createJwt_ok ok
    exact ⟨entries, created.spelled, created_verify created⟩
  · intro payloadJson secret algorithm expiresAt ok token secret' header payload header' payload'
      signature split split' verified
    obtain ⟨entries, created⟩ := createJwt_ok ok
    obtain ⟨header'', payload'', signature'', split'', decoded⟩ := verifyJwt_verified verified
    rw [split'] at split''
    cases split''
    rw [created.signed, signedToken_split created.supported (minified_object _)] at split
    cases split
    have own : base64Decode (base64Encode true false (createdSignature algorithm secret
        (Doc.group .object (withExpiry entries expiresAt)).minified)) true 128
          = .success (createdSignature algorithm secret
            (Doc.group .object (withExpiry entries expiresAt)).minified) :=
      base64Decode_encode (.inl rfl) (Nat.le_trans (createdSignature_length _ _ _) (by decide))
    rw [own] at decoded
    exact (congrArg DecoderResult.output decoded).symm

/-- A token without claims, signed and read with one secret. -/
theorem created_tokens_verify_sample :
    (∃ entries : Entries .object,
      SpelledBy (.group .object entries) (Doc.group .object .nil).minified
        ∧ Verifies .hs256 (Doc.group .object (withExpiry entries none)).pretty
          (verifyJwt (signedToken .hs256 [0x61] (Doc.group .object .nil).minified) [0x61]))
    ∧ hmacSha2 (verifyJwt (signedToken .hs256 [0x61] (Doc.group .object .nil).minified)
          [0x61]).algorithmKind [0x61]
        (signingInput (base64Encode true false (createdHeader .hs256))
          (base64Encode true false (Doc.group .object .nil).minified))
      = hmacSha2 .hs256 [0x61] (signingInput (base64Encode true false (createdHeader .hs256))
          (base64Encode true false (Doc.group .object .nil).minified)) := by
  obtain ⟨verify, forge⟩ := created_tokens_verify
  have creates := @createJwt_accepts .nil .hs256 [0x61] (by decide +kernel) (by decide +kernel)
    (by decide +kernel) (by decide) (by decide)
  have object : isObject (Doc.group .object .nil).minified = true := minified_object .nil
  have ok : (createJwt (Doc.group .object .nil).minified .hs256 [0x61] none).status = .ok := by
    rw [creates]
  have token : (createJwt (Doc.group .object .nil).minified .hs256 [0x61] none).token
      = signedToken .hs256 [0x61] (Doc.group .object .nil).minified := congrArg JwtCreation.token creates
  have split := @signedToken_split .hs256 [0x61] _ (by decide) object
  have created : Created (Doc.group .object .nil).minified .hs256 [0x61] none .nil
      (signedToken .hs256 [0x61] (Doc.group .object .nil).minified) :=
    { spelled := laid_spelledBy flat _
      shallow := by decide +kernel
      encoded := by decide +kernel
      supported := by decide
      keyed := by decide
      unnamed := fun impossible => by cases impossible
      signed := by rw [withExpiry]
      bounded := signedToken_bounded (by decide +kernel) }
  have verified := created_verify created
  rw [Verifies, if_pos (by decide +kernel)] at verified
  have verifies := verify _ _ _ _ ok
  have forged := forge _ _ _ _ ok (signedToken .hs256 [0x61] (Doc.group .object .nil).minified) [0x61]
  rw [token] at verifies forged
  have equal := forged _ _ _ _ _ split split (verified.2.1.trans (if_neg (by decide)))
  exact ⟨verifies, equal.trans (if_neg (by decide))⟩

/-! ## Nested payloads -/

/-- An array's entries: so many zeros. -/
def zeros : Nat → Entries .array
  | 0 => .nil
  | count + 1 => .cons () (.number (expiryNumeral 0)) (zeros count)

/-- A value in so many arrays, one inside the other. -/
def nest : Nat → Doc → Doc
  | 0, doc => doc
  | count + 1, doc => .group .array (.cons () (nest count doc) .nil)

/-- An object that is short on one line and long when it is indented. -/
def nested (rows depth : Nat) : Entries .object :=
  .cons [.plain 0x61 (by decide)] (nest depth (.group .array (zeros rows))) .nil

-- Two zeros, one array deep, may be written out.
example : (zeros 2).tokens = 2 ∧ (zeros 2).depth = 1 ∧ (zeros 2).encoded = true := by
  simp [zeros, Entries.tokens, Entries.depth, Entries.encoded, Doc.tokens, Doc.depth, Doc.encoded,
    Bracket.keyTokens, keyEncoded]

theorem zeros_laid (layout : Layout) (k : Nat) : (count : Nat) →
    ((zeros count).laid layout k).length
      = count * (2 + (layout.newline (k + 1)).length) + (layout.newline k).length + 1
  | 0 => by simp [zeros, Entries.laid]
  | count + 1 => by
      have digit : (Doc.laid layout (k + 1) (.number (expiryNumeral 0))).length = 1 := rfl
      simp only [zeros, Entries.laid, Layout.key, List.length_cons, List.length_append, digit,
        zeros_laid layout k count, List.append_nil, Nat.add_mul]
      omega

theorem zeros_depth : (count : Nat) → (zeros count).depth ≤ 1
  | 0 => by simp [zeros, Entries.depth]
  | count + 1 => by
      rw [zeros, Entries.depth, Doc.depth]
      exact Nat.max_le.2 ⟨Nat.le_refl _, zeros_depth count⟩

theorem zeros_encoded : (count : Nat) → (zeros count).encoded = true
  | 0 => by rw [zeros, Entries.encoded]
  | count + 1 => by
      rw [zeros, Entries.encoded, zeros_encoded count, Doc.encoded]
      rfl

example : ((nest 1 (.group .array .nil)).laid flat 0).length = 4 := by
  simp [nest, Doc.laid, Entries.laid, Layout.newline, Layout.key, flat]

theorem nest_laid (layout : Layout) (doc : Doc) : (count k : Nat) →
    (doc.laid layout (k + count)).length ≤ ((nest count doc).laid layout k).length
  | 0, k => by rw [nest, Nat.add_zero]
  | count + 1, k => by
      have inner := nest_laid layout doc count (k + 1)
      rw [show k + 1 + count = k + (count + 1) by omega] at inner
      simp only [nest, Doc.laid, List.length_cons, List.length_append]
      omega

theorem nest_flat {doc : Doc} {size : Nat} (same : ∀ k, (doc.laid flat k).length = size) :
    (count k : Nat) → ((nest count doc).laid flat k).length = size + 2 * count
  | 0, k => by simp [nest, same]
  | count + 1, k => by
      simp only [nest, Doc.laid, Entries.laid, Layout.newline, Layout.key, Bool.false_eq_true,
        if_false, List.nil_append, List.length_cons, List.length_append, List.length_nil,
        nest_flat same count (k + 1)]
      omega

theorem nest_depth (doc : Doc) : (count : Nat) → (nest count doc).depth = doc.depth + count
  | 0 => rfl
  | count + 1 => by
      rw [nest, Doc.depth, Entries.depth, Entries.depth, nest_depth doc count]
      omega

theorem nest_encoded (doc : Doc) : (count : Nat) → (nest count doc).encoded = doc.encoded
  | 0 => rfl
  | count + 1 => by
      rw [nest, Doc.encoded, Entries.encoded, Entries.encoded, nest_encoded doc count, keyEncoded,
        Bool.true_and, Bool.and_true]

example : (nest 2 (.group .array .nil)).depth = 2 := by decide +kernel

theorem group_laid {bracket : Bracket} {key : bracket.Key} {value : Doc} {others : Entries bracket}
    (layout : Layout) (k : Nat) :
    ((Doc.group bracket (.cons key value others)).laid layout k).length
      = ((Entries.cons key value others).laid layout k).length := by
  simp [Doc.laid, Entries.laid]

theorem newline_pretty (k : Nat) : (Layout.newline ⟨true⟩ k).length = k * 2 + 1 := by
  simp [Layout.newline]

theorem row_laid (layout : Layout) (rows k : Nat) :
    ((Doc.group .array (zeros (rows + 1))).laid layout k).length
      = (rows + 1) * (2 + (layout.newline (k + 1)).length) + (layout.newline k).length + 1 := by
  rw [← zeros_laid, zeros, group_laid]

example : ((Doc.group .array (zeros 2)).laid flat 0).length = 5 := by decide +kernel

section Nested

variable {rows depth : Nat}

theorem nested_minified :
    (Doc.group .object (nested (rows + 1) depth)).minified.length = (rows + 1) * 2 + depth * 2 + 7 := by
  have row (k : Nat) : ((Doc.group .array (zeros (rows + 1))).laid flat k).length
      = (rows + 1) * 2 + 1 := by
    rw [row_laid]
    simp [Layout.newline]
  have inner := nest_flat row depth 1
  have key : (flat.key .object [.plain 0x61 (by decide)]).length = 4 := by decide +kernel
  simp only [Doc.minified, nested, Doc.laid, Entries.laid, Layout.newline, Bool.false_eq_true, if_false,
    List.nil_append, List.length_cons, List.length_append, List.length_nil, inner, key]
  omega

theorem nested_pretty :
    (rows + 1) * ((depth + 2) * 2 + 3) ≤ (Doc.group .object (nested (rows + 1) depth)).pretty.length := by
  have row := row_laid ⟨true⟩ rows (1 + depth)
  have inner := nest_laid ⟨true⟩ (.group .array (zeros (rows + 1))) depth 1
  rw [newline_pretty, newline_pretty, show 2 + ((1 + depth + 1) * 2 + 1) = (depth + 2) * 2 + 3 by omega]
    at row
  simp only [Doc.pretty, nested, Doc.laid, List.length_cons, List.length_append, Nat.zero_add]
  omega

-- Four lines become one.
example : (Doc.group .object (nested 1 0)).minified.length = 9 := by decide +kernel

theorem nested_depth : (nested rows depth).depth ≤ depth + 2 := by
  have row := zeros_depth rows
  rw [nested, Entries.depth, Entries.depth, nest_depth, Doc.depth]
  omega

theorem nested_encoded : (Doc.group .object (nested rows depth)).encoded = true := by
  have key : keyEncoded .object [.plain 0x61 (by decide)] = true := by decide +kernel
  rw [Doc.encoded, nested, Entries.encoded, Entries.encoded, nest_encoded, Doc.encoded, zeros_encoded,
    key]
  rfl

/-- A token whose payload takes too long a display is created, and then refused. -/
theorem nested_refused (shallow : depth ≤ 62) (short : (rows + 1) * 2 + depth * 2 + 7 ≤ 48000)
    (long : 112 * 1024 < (rows + 1) * ((depth + 2) * 2 + 3)) :
    (createJwt (Doc.group .object (nested (rows + 1) depth)).minified .none [] none).status = .ok
      ∧ (verifyJwt (createJwt (Doc.group .object (nested (rows + 1) depth)).minified .none [] none).token
        []).status ≠ .ok := by
  have deep : (nested (rows + 1) depth).depth ≤ kDecoderMaxJsonDepth :=
    Nat.le_trans nested_depth (by rw [kDecoderMaxJsonDepth]; omega)
  have creates := @createJwt_accepts (nested (rows + 1) depth) .none [] deep nested_encoded
    (nested_minified.trans_le short) (by decide) (by simp)
  obtain ⟨ok, token⟩ : (createJwt (Doc.group .object (nested (rows + 1) depth)).minified .none []
      none).status = .ok ∧ _ := ⟨by rw [creates], congrArg JwtCreation.token creates⟩
  have created : Created (Doc.group .object (nested (rows + 1) depth)).minified .none [] none
      (nested (rows + 1) depth)
      (signedToken .none [] (Doc.group .object (nested (rows + 1) depth)).minified) :=
    { spelled := laid_spelledBy flat _
      shallow := deep
      encoded := nested_encoded
      supported := by decide
      keyed := by simp
      unnamed := fun impossible => by cases impossible
      signed := by rw [withExpiry]
      bounded := signedToken_bounded (nested_minified.trans_le short) }
  have refused := created_verify created
  have size := @nested_pretty rows depth
  rw [Verifies, withExpiry, if_neg (by omega)] at refused
  refine ⟨ok, ?_⟩
  rw [token, refused]
  exact fun impossible => by cases impossible

end Nested

/-- Two kilobytes, 62 arrays deep: a token is created, and its display is refused. -/
theorem deep_payload_refused :
    ¬ ∀ (payloadJson secret : List UInt8) (algorithm : JwtAlgorithm) (expiresAt : Option UInt64),
      (createJwt payloadJson algorithm secret expiresAt).status = .ok →
        (verifyJwt (createJwt payloadJson algorithm secret expiresAt).token secret).status = .ok := by
  intro all
  have refused := @nested_refused 899 61 (by decide) (by decide) (by decide)
  exact refused.2 (all _ [] .none none refused.1)

end Reb.Analysis
