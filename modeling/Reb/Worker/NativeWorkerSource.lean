/-
# Worker.NativeWorkerSource -- the text of a worker, encoded and cleaned

The renderer hands over Blink strings: Latin-1 bytes or 16-bit code units.  `encode` walks
the units twice, first for the size alone (an empty output) and then for the bytes;
`sanitizeUrl` cuts what a URL may tell about its user.  Sizes and code points stay far below
32 bits, so they are plain numbers.
-/
import Reb.Theory.StringView
import Reb.Theory.Utf16
import Reb.Theory.Utf8

namespace Reb.Worker.Source

set_option autoImplicit false

open Reb.Theory.StringView Reb.Theory.Utf8

def kNativeWorkerSourceMaxBytes : Nat := 2 * 1024 * 1024

def kNativeWorkerSourceMaxUrlBytes : Nat := 8192

inductive NativeWorkerCaptureStatus where
  | accepted | disabled | busy | expired | wrongWorker | unsupportedWorker | staleGeneration
  | invalid | tooLarge | full | empty | outputTooSmall | allocationFailed | sourceUnavailable
  deriving DecidableEq, Repr

inductive NativeWorkerUrlStatus where
  | absent | sanitized | opaqueOmitted | invalidOmitted | unsupportedAuthorityOmitted
  deriving DecidableEq, Repr

structure NativeWorkerText where
  latin1 : List UInt8 := []
  utf16 : List UInt16 := []
  unavailable : Bool := false
  deriving DecidableEq, Repr

/-! ## `Encode` -/

/-- The bytes of a code point behind the first, last one first, and what is left of it. -/
def writeTail (size : Nat) : Nat → List UInt8 → Nat → List UInt8 × Nat
  | 0, output, point => (output, point)
  | byte + 1, output, point =>
      writeTail size byte (output.set (size + (byte + 1)) (.ofNat (0x80 ||| (point &&& 0x3f))))
        (point >>> 6)

def writePoint (output : List UInt8) (size count point : Nat) : List UInt8 :=
  if count = 1 then output.set size (.ofNat point)
  else
    let written := writeTail size (count - 1) output point
    let leading := if count = 2 then 0xc0 else if count = 3 then 0xe0 else 0xf0
    written.1.set size (.ofNat (leading ||| written.2))

def pointSize (point : Nat) : Nat :=
  if point < 0x80 then 1 else if point < 0x800 then 2 else if point < 0x10000 then 3 else 4

/-- One code point: the output and the size after it. -/
def encodePoint (limit : Nat) (output : List UInt8) (size point : Nat) :
    Except NativeWorkerCaptureStatus (List UInt8 × Nat) :=
  let count := pointSize point
  if limit - size < count then .error .tooLarge
  else if output = [] then .ok (output, size + count)
  else if output.length - size < count then .error .outputTooSmall
  else .ok (writePoint output size count point, size + count)

/-- The code point of a pair of surrogates. -/
@[irreducible] def pairedPoint (high low : Nat) : Nat := 0x10000 + (high - 0xd800) <<< 10 + (low - 0xdc00)

/-- The loop over the units: the status, the output and the size it ends with. -/
def encodeUnits (limit : Nat) :
    List Nat → List UInt8 → Nat → NativeWorkerCaptureStatus × List UInt8 × Nat
  | [], output, size => (.accepted, output, size)
  | unit :: rest, output, size =>
      if 0xd800 ≤ unit ∧ unit ≤ 0xdbff then
        match rest with
        | [] => (.invalid, output, size)
        | low :: rest =>
            if low < 0xdc00 ∨ 0xdfff < low then (.invalid, output, size)
            else
              match encodePoint limit output size (pairedPoint unit low) with
              | .error status => (status, output, size)
              | .ok (output, size) => encodeUnits limit rest output size
      else if 0xdc00 ≤ unit ∧ unit ≤ 0xdfff then (.invalid, output, size)
      else
        match encodePoint limit output size unit with
        | .error status => (status, output, size)
        | .ok (output, size) => encodeUnits limit rest output size

/-- `Encode`: the status, the output and the size. -/
def encode (text : NativeWorkerText) (output : List UInt8) (limit : Nat) :
    NativeWorkerCaptureStatus × List UInt8 × Nat :=
  if text.unavailable then (.sourceUnavailable, output, 0)
  else if text.latin1 ≠ [] ∧ text.utf16 ≠ [] then (.invalid, output, 0)
  else if limit < text.latin1.length + text.utf16.length then (.tooLarge, output, 0)
  else
    encodeUnits limit
      (if text.utf16 = [] then text.latin1.map UInt8.toNat else text.utf16.map UInt16.toNat)
      output 0

/-- What `Capture` keeps of a source: sized first, then written to the slot of the ring. -/
def capturedSource (source : NativeWorkerText) (slot : List UInt8) :
    Except NativeWorkerCaptureStatus (List UInt8) :=
  match encode source [] kNativeWorkerSourceMaxBytes with
  | (.accepted, _, _) =>
      match encode source slot kNativeWorkerSourceMaxBytes with
      | (.accepted, written, size) => .ok (written.take size)
      | _ => .error .staleGeneration
  | (status, _, _) => .error status

/-! ## `AdmitAuthority` -/

/-- The digits of a port. -/
def portAdmitted : List UInt8 → Nat → Bool
  | [], _ => true
  | digit :: digits, port =>
      if digit < byte '0' ∨ byte '9' < digit then false
      else
        let port := port * 10 + (digit.toNat - (byte '0').toNat)
        if 65535 < port then false else portAdmitted digits port

def suffixAdmitted (suffix : List UInt8) : Bool :=
  if suffix = [] then true
  else if suffix.head? ≠ some (byte ':') ∨ suffix.length = 1 then false
  else portAdmitted (suffix.drop 1) 0

def labelByte (value : UInt8) : Bool :=
  (byte 'a' ≤ value && value ≤ byte 'z') || (byte 'A' ≤ value && value ≤ byte 'Z') ||
    (byte '0' ≤ value && value ≤ byte '9') || value == byte '-'

def labelAdmitted (label : List UInt8) : Bool :=
  !(label.isEmpty || 63 < label.length || label.head? == some (byte '-') ||
    label.getLast? == some (byte '-') || label.any fun value => !labelByte value)

/-- The loop over the labels. -/
def admitLabels : List UInt8 → NativeWorkerUrlStatus
  | [] => .sanitized
  | first :: rest =>
      match find (first :: rest) (byte '.') 0 with
      | none => if labelAdmitted (first :: rest) then .sanitized else .unsupportedAuthorityOmitted
      | some dot =>
          if !labelAdmitted (substr (first :: rest) 0 dot) then .unsupportedAuthorityOmitted
          else if rest.drop dot = [] then .unsupportedAuthorityOmitted
          else admitLabels (rest.drop dot)
termination_by host => host.length
decreasing_by
  rw [List.length_drop, List.length_cons]
  omega

def admitHost (host : List UInt8) : NativeWorkerUrlStatus :=
  let host := if host.getLast? = some (byte '.') then host.dropLast else host
  if host = [] ∨ 253 < host.length then .unsupportedAuthorityOmitted else admitLabels host

def admitAuthority (authority : List UInt8) : NativeWorkerUrlStatus :=
  if authority.head? = some (byte '[') then
    match find authority (byte ']') 0 with
    | none => .invalidOmitted
    | some close =>
        if close = 1 ∨ find authority (byte '[') 1 ≠ none ∨
            find authority (byte ']') (close + 1) ≠ none then .invalidOmitted
        else if !suffixAdmitted (authority.drop (close + 1)) then .invalidOmitted
        else .unsupportedAuthorityOmitted
  else if findFirstOf authority [byte '[', byte ']'] 0 ≠ none then .invalidOmitted
  else
    let colon := (find authority (byte ':') 0).getD authority.length
    if authority.take colon = [] then .invalidOmitted
    else if !suffixAdmitted (authority.drop colon) then .invalidOmitted
    else admitHost (authority.take colon)

/-! ## `SanitizeUrl` -/

def httpsScheme : List UInt8 := "https://".toList.map byte

def httpScheme : List UInt8 := "http://".toList.map byte

def refusedByte (value : UInt8) : Bool := value ≤ 0x20 || value == 0x7f || value == byte '\\'

/-- What `SanitizeUrl` does with the encoded bytes. -/
def sanitize (url output : List UInt8) : NativeWorkerUrlStatus × List UInt8 × Nat :=
  if url.any refusedByte then (.invalidOmitted, output, 0)
  else
    let scheme := if httpsScheme.isPrefixOf url then 8 else if httpScheme.isPrefixOf url then 7 else 0
    if scheme = 0 then (.opaqueOmitted, output, 0)
    else
      let url := url.take ((findFirstOf url [byte '?', byte '#'] 0).getD url.length)
      let stop := (find url (byte '/') scheme).getD url.length
      let authority := substr url scheme (stop - scheme)
      let host := (rfind authority (byte '@')).elim scheme fun at_ => scheme + at_ + 1
      let admission := admitAuthority (substr url host (stop - host))
      if admission ≠ .sanitized then (admission, output, 0)
      else
        let written := url.take scheme ++ url.drop host
        (.sanitized, written ++ output.drop written.length, scheme + url.length - host)

def sanitizeUrl (text : NativeWorkerText) (output : List UInt8) :
    NativeWorkerUrlStatus × List UInt8 × Nat :=
  match encode text (List.replicate kNativeWorkerSourceMaxUrlBytes 0)
      kNativeWorkerSourceMaxUrlBytes with
  | (.accepted, encoded, size) =>
      if size = 0 then (.absent, output, 0) else sanitize (encoded.take size) output
  | _ => (.invalidOmitted, output, 0)

/-! ## What a text spells -/

/-- A string of 8-bit or of 16-bit code units. -/
abbrev CodeUnits := List UInt8 ⊕ List UInt16

def CodeUnits.text : CodeUnits → NativeWorkerText
  | .inl bytes => { latin1 := bytes }
  | .inr units => { utf16 := units }

/-- The characters of a well-formed string. -/
def Spells (units : CodeUnits) (cs : List Char) : Prop :=
  match units with
  | .inl bytes => cs = bytes.map fun byte => Char.ofNat byte.toNat
  | .inr units => units = Theory.Utf16.encode cs

end Reb.Worker.Source
