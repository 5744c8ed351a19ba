/-
# Analysis.Jwt -- tokens inspected, verified and created

`InspectJwt` reads the three segments of a token and bounds each of them by itself;
`VerifyJwt` inspects and then compares the signature; `CreateJwt` minifies a payload,
adds the expiry and signs.
-/
import Reb.Analysis.Base64
import Reb.Analysis.Hmac
import Reb.Analysis.TopLevelProperty

namespace Reb.Analysis

set_option autoImplicit false

def kDecoderMaxJwtBytes : Nat := 64 * 1024

def kDecoderMaxSecretBytes : Nat := 4 * 1024

/-- The bytes of a literal. -/
def ascii (letters : List Char) : List UInt8 := letters.map Char.toUInt8

/-- `std::to_string`. -/
def decimal (value : Nat) : List UInt8 := ascii (Nat.toDigits 10 value)

abbrev dot : UInt8 := 0x2e

/-! ## Algorithms -/

def jwtAlgorithmName : JwtAlgorithm → List UInt8
  | .none => ascii ['n', 'o', 'n', 'e']
  | .hs256 => ascii ['H', 'S', '2', '5', '6']
  | .hs384 => ascii ['H', 'S', '3', '8', '4']
  | .hs512 => ascii ['H', 'S', '5', '1', '2']
  | .unsupported => ascii ['u', 'n', 's', 'u', 'p', 'p', 'o', 'r', 't', 'e', 'd']

def jwtAlgorithmFromName (name : List UInt8) : JwtAlgorithm :=
  if name = ascii ['n', 'o', 'n', 'e'] then .none
  else if name = ascii ['H', 'S', '2', '5', '6'] then .hs256
  else if name = ascii ['H', 'S', '3', '8', '4'] then .hs384
  else if name = ascii ['H', 'S', '5', '1', '2'] then .hs512
  else .unsupported

/-! ## Inspection -/

inductive JwtSignatureStatus where
  | notChecked | verified | invalid | unsigned | unsupported
  deriving DecidableEq, Repr

structure JwtInspection where
  status : DecoderStatus := .invalidInput
  error : String := ""
  algorithm : List UInt8 := []
  algorithmKind : JwtAlgorithm := .unsupported
  signatureStatus : JwtSignatureStatus := .notChecked
  headerJson : List UInt8 := []
  payloadJson : List UInt8 := []
  tokenBytes : Nat := 0
  signatureBytes : Nat := 0
  deriving DecidableEq, Repr

def jwtFailure (message : String) : JwtInspection := { error := message }

/-- The header, the payload and the signature of a token with exactly two dots. -/
def splitToken (token : List UInt8) : Option (List UInt8 × List UInt8 × List UInt8) :=
  match token.dropWhile (· != dot) with
  | [] => none
  | _ :: rest =>
      match rest.dropWhile (· != dot) with
      | [] => none
      | _ :: signature =>
          let header := token.takeWhile (· != dot)
          let payload := rest.takeWhile (· != dot)
          if dot ∈ signature ∨ header = [] ∨ payload = [] then none
          else some (header, payload, signature)

/-- The test for an object on what `FormatJson` has written. -/
def isObject (text : List UInt8) : Bool :=
  2 ≤ text.length && text.head? == some 0x7b && text.getLast? == some 0x7d

/-- The algorithm that a minified header names, if it is one bounded string. -/
def headerAlgorithm (header : List UInt8) : Option (List UInt8) :=
  let found := topLevelStringProperty header (ascii ['a', 'l', 'g'])
  match found.value with
  | none => none
  | some algorithm =>
      if !found.present || found.duplicate || algorithm = [] || algorithm.length > 32 then none
      else some algorithm

def inspectedSignature (kind : JwtAlgorithm) (signature : List UInt8) : JwtSignatureStatus :=
  match kind with
  | .none => if signature = [] then .unsigned else .invalid
  | .unsupported => .unsupported
  | _ => .notChecked

def inspectJwt (token : List UInt8) : JwtInspection :=
  if token = [] ∨ token.length > kDecoderMaxJwtBytes then
    jwtFailure "JWT must contain between 1 byte and 64 KiB"
  else
    match splitToken token with
    | none => jwtFailure "JWT compact serialization must contain exactly three segments"
    | some (headerSegment, payloadSegment, signatureSegment) =>
        let header := base64Decode headerSegment true (8 * 1024)
        let payload := base64Decode payloadSegment true (56 * 1024)
        let signature := base64Decode signatureSegment true 128
        if header.status ≠ .ok then
          jwtFailure ("JWT header is not canonical Base64URL: " ++ header.error)
        else if payload.status ≠ .ok then
          jwtFailure ("JWT payload is not canonical Base64URL: " ++ payload.error)
        else if signature.status ≠ .ok then
          jwtFailure ("JWT signature is not canonical Base64URL: " ++ signature.error)
        else
          let headerMinified := formatJson header.output false (8 * 1024)
          let payloadMinified := formatJson payload.output false (56 * 1024)
          if headerMinified.status ≠ .ok ∨ isObject headerMinified.output = false then
            jwtFailure "JWT header must be a bounded JSON object"
          else if payloadMinified.status ≠ .ok ∨ isObject payloadMinified.output = false then
            jwtFailure "JWT payload must be a bounded JSON object"
          else
            match headerAlgorithm headerMinified.output with
            | none => jwtFailure "JWT header must contain one bounded string algorithm"
            | some algorithm =>
                let headerPretty := formatJson header.output true (16 * 1024)
                let payloadPretty := formatJson payload.output true (112 * 1024)
                if headerPretty.status ≠ .ok ∨ payloadPretty.status ≠ .ok then
                  jwtFailure "JWT JSON display exceeds the bounded output limit"
                else
                  { status := .ok
                    algorithm
                    algorithmKind := jwtAlgorithmFromName algorithm
                    signatureStatus :=
                      inspectedSignature (jwtAlgorithmFromName algorithm) signature.output
                    headerJson := headerPretty.output
                    payloadJson := payloadPretty.output
                    tokenBytes := token.length
                    signatureBytes := signature.output.length }

/-! ## Verification -/

/-- What the signature is over: the token up to its second dot. -/
def signingInput (header payload : List UInt8) : List UInt8 := header ++ dot :: payload

def verifyJwt (token secret : List UInt8) : JwtInspection :=
  let inspection := inspectJwt token
  if inspection.status ≠ .ok then inspection
  else if inspection.algorithmKind = .none then
    { inspection with error := "Unsigned JWTs do not have a verifiable signature" }
  else if inspection.algorithmKind = .unsupported then
    { inspection with error := "Only HS256, HS384, and HS512 signatures can be verified locally" }
  else if secret = [] ∨ secret.length > kDecoderMaxSecretBytes then
    { inspection with
      status := .invalidInput
      error := "JWT HMAC secret must contain between 1 byte and 4 KiB" }
  else
    match splitToken token with
    | none => inspection
    | some (headerSegment, payloadSegment, signatureSegment) =>
        let signature := base64Decode signatureSegment true 128
        let expected :=
          hmacSha2 inspection.algorithmKind secret (signingInput headerSegment payloadSegment)
        { inspection with
          signatureStatus :=
            if signature.status = .ok ∧ constantTimeEqual expected signature.output = true then
              .verified
            else .invalid }

/-! ## Creation -/

structure JwtCreation where
  status : DecoderStatus := .invalidInput
  error : String := ""
  token : List UInt8 := []
  deriving DecidableEq, Repr

/-- The member that an expiry is. -/
def expiryMember (expiresAt : UInt64) : List UInt8 :=
  ascii ['"', 'e', 'x', 'p', '"', ':'] ++ decimal expiresAt.toNat

/-- The payload with a member put in before its closing brace. -/
def insertMember (payload member : List UInt8) : List UInt8 :=
  payload.take (payload.length - 1) ++ (if payload.length = 2 then member else comma :: member)
    ++ payload.drop (payload.length - 1)

def createdHeader (algorithm : JwtAlgorithm) : List UInt8 :=
  ascii ['{', '"', 'a', 'l', 'g', '"', ':', '"'] ++ jwtAlgorithmName algorithm
    ++ ascii ['"', ',', '"', 't', 'y', 'p', '"', ':', '"', 'J', 'W', 'T', '"', '}']

/-- The token of a header and a payload. -/
def signedToken (algorithm : JwtAlgorithm) (secret payload : List UInt8) : List UInt8 :=
  let signing := signingInput (base64Encode true false (createdHeader algorithm))
    (base64Encode true false payload)
  let signature := if algorithm = .none then [] else hmacSha2 algorithm secret signing
  signing ++ dot :: base64Encode true false signature

/-- The payload is what the token carries: minified, with its expiry. -/
def boundedToken (algorithm : JwtAlgorithm) (secret payload : List UInt8) : JwtCreation :=
  if (signedToken algorithm secret payload).length > kDecoderMaxJwtBytes then
    { status := .outputLimit, error := "Created JWT exceeds the 64 KiB token limit" }
  else { status := .ok, token := signedToken algorithm secret payload }

def createJwt (payloadJson : List UInt8) (algorithm : JwtAlgorithm) (secret : List UInt8)
    (expiresAt : Option UInt64) : JwtCreation :=
  if payloadJson = [] ∨ payloadJson.length > 56 * 1024 then
    { error := "JWT payload must contain between 1 byte and 56 KiB" }
  else if algorithm = .unsupported ∨ (algorithm = .none ∧ secret ≠ []) ∨
      (algorithm ≠ .none ∧ (secret = [] ∨ secret.length > kDecoderMaxSecretBytes)) then
    { error := "JWT creation algorithm or HMAC secret is invalid" }
  else
    let compact := formatJson payloadJson false (56 * 1024)
    if compact.status ≠ .ok ∨ isObject compact.output = false then
      { error := "JWT payload must be a bounded JSON object" }
    else
      match expiresAt with
      | none => boundedToken algorithm secret compact.output
      | some expiresAt =>
          if (topLevelStringProperty compact.output (ascii ['e', 'x', 'p'])).present then
            { error := "Set either payload exp or expires-in, not both" }
          else
            boundedToken algorithm secret (insertMember compact.output (expiryMember expiresAt))

end Reb.Analysis
