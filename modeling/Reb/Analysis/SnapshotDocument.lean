/-
# Analysis.SnapshotDocument -- reading the document of a heap snapshot

`JsonReader` passes over the document once; what is left of it stands for its
position.  A string keeps no more bytes than it is allowed, and half a surrogate is
read as U+FFFD; either is remembered as a truncation.

The members of the document may stand in any order, so it is read twice: once for the
layout that its metadata gives, and once for the arrays, which keep what their limits
allow and count the rest.  The limits are a parameter: what a document holds in full
is what it holds with none (`Limits.none`).
-/
import Reb.Analysis.TopLevelProperty

namespace Reb.Analysis.Snapshot

set_option autoImplicit false

def kMaxJsonDepth : Nat := 64

/-- `std::isspace`. -/
def isSpace (byte : UInt8) : Bool := byte == 0x20 || (0x09 ≤ byte && byte ≤ 0x0d)

def skipWhitespace (input : List UInt8) : List UInt8 := input.dropWhile isSpace

def consume (expected : UInt8) (input : List UInt8) : Option (List UInt8) :=
  match skipWhitespace input with
  | [] => none
  | byte :: rest => if byte = expected then some rest else none

/-! ## Strings -/

/-- A character of a string, as it is appended: a byte, the bytes of a code point, or
what stands for an isolated surrogate. -/
inductive Character where
  | byte (value : UInt8)
  | codePoint (value : Nat)
  | replacement
  deriving DecidableEq, Repr

def Character.spelled : Character → List UInt8
  | .byte value => [value]
  | .codePoint value => utf8 value
  | .replacement => utf8 0xfffd

/-- What follows a high surrogate; unless it is a low one, the position is set back. -/
def readLow (high : Nat) : List UInt8 → Option (Character × List UInt8)
  | slash :: letter :: after =>
      if slash = backslash ∧ letter = 0x75 then
        match after with
        | a :: b :: c :: d :: rest =>
            (readUnit a b c d).map fun low =>
              if isLow low then (.codePoint (0x10000 + (high - 0xd800) * 1024 + (low - 0xdc00)), rest)
              else (.replacement, slash :: letter :: after)
        | _ => none
      else some (.replacement, slash :: letter :: after)
  | short => some (.replacement, short)

/-- A turn of `ReadString`, when the byte is not the closing quote. -/
def readCharacter (byte : UInt8) (rest : List UInt8) : Option (Character × List UInt8) :=
  if byte < 0x20 then none
  else if byte ≠ backslash then some (.byte byte, rest)
  else
    match rest with
    | [] => none
    | escape :: rest =>
        if escape ≠ 0x75 then (readEscape escape).map fun character => (.byte character, rest)
        else
          match rest with
          | a :: b :: c :: d :: rest =>
              (readUnit a b c d).bind fun unit =>
                if isHigh unit then readLow unit rest
                else if isLow unit then some (.replacement, rest)
                else some (.codePoint unit, rest)
          | _ => none

/-- A string as far as it has been read. -/
structure Reading where
  output : List UInt8 := []
  truncated : Bool := false
  deriving DecidableEq, Repr

namespace Reading

variable (maximum : Nat) (r : Reading)

def appendByte (byte : UInt8) : Reading :=
  if r.output.length < maximum then { r with output := r.output ++ [byte] }
  else { r with truncated := true }

/-- `AppendCodePoint`: all of its bytes or none. -/
def appendCodePoint (codePoint : Nat) : Reading :=
  if (utf8 codePoint).length ≤ maximum - min maximum r.output.length then
    { r with output := r.output ++ utf8 codePoint }
  else { r with truncated := true }

/-- A character more; an isolated surrogate is lost. -/
def append : Character → Reading
  | .byte value => r.appendByte maximum value
  | .codePoint value => r.appendCodePoint maximum value
  | .replacement => appendCodePoint maximum { r with truncated := true } 0xfffd

end Reading

/-- The loop of `ReadString`, after the opening quote; every turn takes a byte. -/
def readRest (maximum : Nat) : Nat → List UInt8 → Reading → Option (Reading × List UInt8)
  | 0, _, _ => none
  | _ + 1, [], _ => none
  | turns + 1, byte :: rest, r =>
      if byte = quote then some (r, rest)
      else
        (readCharacter byte rest).bind fun (character, rest) =>
          readRest maximum turns rest (r.append maximum character)

def readString (maximum : Nat) (input : List UInt8) : Option (Reading × List UInt8) :=
  match skipWhitespace input with
  | [] => none
  | byte :: rest => if byte = quote then readRest maximum rest.length rest {} else none

/-! ## Numbers -/

/-- The value of a run of digits. -/
def digitsValue (digits : List UInt8) : Nat :=
  digits.foldl (fun value byte => value * 10 + (byte.toNat - 0x30)) 0

/-- `ReadUnsigned`; `std::from_chars` refuses what 64 bits do not hold. -/
def readUnsigned (input : List UInt8) : Option (Nat × List UInt8) :=
  let input := skipWhitespace input
  let digits := input.takeWhile isDigit
  if digits = [] ∨ (digits.length > 1 ∧ digits.head? = some 0x30) then none
  else if digitsValue digits < 2 ^ 64 then some (digitsValue digits, input.dropWhile isDigit)
  else none

/-- At least one digit. -/
def skipDigits (input : List UInt8) : Option (List UInt8) :=
  if input.takeWhile isDigit = [] then none else some (input.dropWhile isDigit)

/-- The whole part of `SkipNumber`. -/
def skipWhole : List UInt8 → Option (List UInt8)
  | [] => none
  | byte :: rest =>
      if byte = 0x30 then some rest
      else if 0x31 ≤ byte ∧ byte ≤ 0x39 then some ((byte :: rest).dropWhile isDigit)
      else none

def skipFraction : List UInt8 → Option (List UInt8)
  | [] => some []
  | byte :: rest => if byte = 0x2e then skipDigits rest else some (byte :: rest)

def skipExponent : List UInt8 → Option (List UInt8)
  | [] => some []
  | byte :: rest =>
      if byte = 0x65 ∨ byte = 0x45 then
        match rest with
        | [] => none
        | sign :: after =>
            if sign = 0x2b ∨ sign = 0x2d then skipDigits after else skipDigits (sign :: after)
      else some (byte :: rest)

def skipSign : List UInt8 → List UInt8
  | [] => []
  | byte :: rest => if byte = 0x2d then rest else byte :: rest

def skipNumber (input : List UInt8) : Option (List UInt8) :=
  (skipWhole (skipSign input)).bind fun rest => (skipFraction rest).bind skipExponent

/-- A word, or a number. -/
def skipScalar (input : List UInt8) : Option (List UInt8) :=
  if input.take 4 = Word.yes.spelled then some (input.drop 4)
  else if input.take 5 = Word.no.spelled then some (input.drop 5)
  else if input.take 4 = Word.null.spelled then some (input.drop 4)
  else skipNumber input

/-! ## Values passed over -/

def skipKey : Bracket → List UInt8 → Option (List UInt8)
  | .array, input => some input
  | .object, input => (readString 0 input).bind fun (_, rest) => consume colon rest

/-- What follows the opening bracket; `entries` is the loop of the group. -/
def skipGroup (bracket : Bracket) (entries : List UInt8 → Option (List UInt8))
    (input : List UInt8) : Option (List UInt8) :=
  if (skipWhitespace input).head? = some bracket.closes then some (skipWhitespace input).tail
  else entries (skipWhitespace input)

/-- What follows an entry; `more` is the loop of the group. -/
def skipAfter (bracket : Bracket) (more : List UInt8 → Option (List UInt8)) (input : List UInt8) :
    Option (List UInt8) :=
  if (skipWhitespace input).head? = some bracket.closes then some (skipWhitespace input).tail
  else (consume comma input).bind more

mutual

/-- `SkipValue`; every call takes a byte, so the text's length is enough fuel. -/
def skipValue (fuel depth : Nat) (input : List UInt8) : Option (List UInt8) :=
  match fuel with
  | 0 => none
  | fuel + 1 =>
      if depth > kMaxJsonDepth then none
      else
        match skipWhitespace input with
        | [] => none
        | byte :: rest =>
            if byte = quote then (readString 0 (byte :: rest)).map (·.2)
            else if byte = 0x7b then skipGroup .object (skipEntries fuel .object depth) rest
            else if byte = 0x5b then skipGroup .array (skipEntries fuel .array depth) rest
            else skipScalar (byte :: rest)

def skipEntries (fuel : Nat) (bracket : Bracket) (depth : Nat) (input : List UInt8) :
    Option (List UInt8) :=
  match fuel with
  | 0 => none
  | fuel + 1 =>
      if input = [] then none
      else
        (skipKey bracket input).bind fun rest =>
          (skipValue fuel (depth + 1) rest).bind (skipAfter bracket (skipEntries fuel bracket depth))

end

/-- `SkipValue` at depth 0. -/
def skip (input : List UInt8) : Option (List UInt8) := skipValue (input.length + 1) 0 input

/-- Half a surrogate is replaced, and a character that does not fit is left out. -/
example : readString 4 (quote :: 0x5c :: 0x75 :: 0x64 :: 0x38 :: 0x30 :: 0x30
      :: 0xc3 :: 0xa9 :: [quote])
    = some ({ output := [0xef, 0xbf, 0xbd, 0xc3], truncated := true }, []) := by
  decide +kernel

end Reb.Analysis.Snapshot

namespace Reb.Analysis.Snapshot

/-! # The document -/

/-- The bytes of a literal. -/
def text (literal : String) : List UInt8 := literal.toList.map Char.toUInt8

def kMaxMetadataFields : Nat := 64
def kMaxMetadataTextBytes : Nat := 256
def kMaxStoredNodeBytes : Nat := 128 * 1024 * 1024
def kMaxStoredEdgeBytes : Nat := 192 * 1024 * 1024
def kHeapSnapshotMaxFileBytes : Nat := 256 * 1024 * 1024
def kHeapSnapshotMaxNodes : Nat := 2000000
def kHeapSnapshotMaxEdges : Nat := 8000000
def kHeapSnapshotMaxStrings : Nat := 2000000
def kHeapSnapshotMaxStringBytes : Nat := 64 * 1024 * 1024
def kHeapSnapshotMaxStoredStringBytes : Nat := 4096

/-- What is kept of the arrays; the records of a width are what fits the bytes for them. -/
structure Limits where
  nodeRecords : Nat → Nat
  edgeRecords : Nat → Nat
  strings : Nat
  stringBytes : Nat
  storedStringBytes : Nat

/-- The limits of the program. -/
def Limits.program : Limits where
  nodeRecords := fun fields => min kHeapSnapshotMaxNodes (kMaxStoredNodeBytes / 8 / fields)
  edgeRecords := fun fields => min kHeapSnapshotMaxEdges (kMaxStoredEdgeBytes / 8 / fields)
  strings := kHeapSnapshotMaxStrings
  stringBytes := kHeapSnapshotMaxStringBytes
  storedStringBytes := kHeapSnapshotMaxStoredStringBytes

/-- Limits that no document of that length comes to. -/
def Limits.none (length : Nat) : Limits where
  nodeRecords := fun _ => length
  edgeRecords := fun _ => length
  strings := length
  stringBytes := 2 * length
  storedStringBytes := length

structure SnapshotData where
  declaredNodes : Nat := 0
  declaredEdges : Nat := 0
  nodeFields : List (List UInt8) := []
  nodeTypes : List (List UInt8) := []
  edgeFields : List (List UInt8) := []
  edgeTypes : List (List UInt8) := []
  nodes : List Nat := []
  edges : List Nat := []
  strings : List (List UInt8) := []
  nodeValuesSeen : Nat := 0
  edgeValuesSeen : Nat := 0
  stringsSeen : Nat := 0
  storedStringBytes : Nat := 0
  nodeValuesTruncated : Bool := false
  edgeValuesTruncated : Bool := false
  stringsTruncated : Bool := false
  deriving DecidableEq, Repr

/-! ## Groups -/

section Items

universe u

variable {σ : Type u}

/-- The loop over the items of a group; every turn takes a byte. -/
def parseItems (closes : UInt8) (item : σ → List UInt8 → Option (σ × List UInt8)) :
    Nat → σ → List UInt8 → Option (σ × List UInt8)
  | 0, _, _ => none
  | turns + 1, state, input =>
      match item state input with
      | none => none
      | some (state, rest) =>
          match consume closes rest with
          | some rest => some (state, rest)
          | none =>
              match consume comma rest with
              | none => none
              | some rest => parseItems closes item turns state rest

/-- A group that may be empty. -/
def parseGroup (bracket : Bracket) (item : σ → List UInt8 → Option (σ × List UInt8)) (state : σ)
    (input : List UInt8) : Option (σ × List UInt8) :=
  match consume bracket.opens input with
  | none => none
  | some rest =>
      match consume bracket.closes rest with
      | some rest => some (state, rest)
      | none => parseItems bracket.closes item (rest.length + 1) state rest

/-- A key of an object and its colon, which must not be truncated. -/
def parseKey (input : List UInt8) : Option (List UInt8 × List UInt8) :=
  match readString kMaxMetadataTextBytes input with
  | none => none
  | some (key, rest) =>
      if key.truncated then none else (consume colon rest).map fun rest => (key.output, rest)

/-- A member whose value is passed over. -/
def skipMember (state : σ) (input : List UInt8) : Option (σ × List UInt8) :=
  (skip input).map fun rest => (state, rest)

end Items

/-! ## Arrays -/

/-- The item of `ParseStringArray`. -/
def stringItem (maximumCount maximumTextBytes : Nat) (state : List (List UInt8) × Bool)
    (input : List UInt8) : Option ((List (List UInt8) × Bool) × List UInt8) :=
  (readString maximumTextBytes input).map fun (value, rest) =>
    if state.1.length < maximumCount then
      ((state.1 ++ [value.output], state.2 || value.truncated), rest)
    else ((state.1, true), rest)

/-- `ParseStringArray` for metadata, which must not be truncated. -/
def parseFields (output : List (List UInt8)) (input : List UInt8) :
    Option (List (List UInt8) × List UInt8) :=
  match parseGroup .array (stringItem kMaxMetadataFields kMaxMetadataTextBytes) (output, false) input with
  | none => none
  | some ((output, truncated), rest) => if truncated then none else some (output, rest)

/-- The loop of `ParseTypeTable` over what follows the names. -/
def skipColumns : Nat → List UInt8 → Option (List UInt8)
  | 0, _ => none
  | turns + 1, input =>
      match consume 0x5d input with
      | some rest => some rest
      | none =>
          match consume comma input with
          | none => none
          | some rest =>
              match skip rest with
              | none => none
              | some rest => skipColumns turns rest

/-- `ParseTypeTable`: the first item of the array is the array of names. -/
def parseTypeTable (types : List (List UInt8)) (input : List UInt8) :
    Option (List (List UInt8) × List UInt8) :=
  match consume 0x5b input with
  | none => none
  | some rest =>
      match consume 0x5d rest with
      | some rest => some (types, rest)
      | none =>
          match parseFields types rest with
          | none => none
          | some (types, rest) => (skipColumns (rest.length + 1) rest).map fun rest => (types, rest)

/-- The values of an array: those that are kept, and how many there are. -/
structure Values where
  kept : List Nat := []
  seen : Nat := 0
  truncated : Bool := false
  deriving DecidableEq, Repr

/-- The item of `ParseUnsignedArray`. -/
def unsignedItem (maximumValues : Nat) (values : Values) (input : List UInt8) :
    Option (Values × List UInt8) :=
  match readUnsigned input with
  | none => none
  | some (value, rest) =>
      if values.seen = 2 ^ 64 - 1 then none
      else if values.kept.length < maximumValues then
        some ({ values with kept := values.kept ++ [value], seen := values.seen + 1 }, rest)
      else some ({ values with seen := values.seen + 1, truncated := true }, rest)

def parseUnsignedArray (maximumValues : Nat) : List UInt8 → Option (Values × List UInt8) :=
  parseGroup .array (unsignedItem maximumValues) {}

/-- The strings: those that are kept, their bytes, and how many there are. -/
structure Strings where
  kept : List (List UInt8) := []
  bytes : Nat := 0
  seen : Nat := 0
  truncated : Bool := false
  deriving DecidableEq, Repr

/-- There is room for a string more. -/
def Strings.available (limits : Limits) (strings : Strings) : Bool :=
  strings.kept.length < limits.strings && strings.bytes < limits.stringBytes

/-- The item of `ParseSnapshotStrings`. -/
def snapshotStringItem (limits : Limits) (strings : Strings) (input : List UInt8) :
    Option (Strings × List UInt8) :=
  let perStringLimit :=
    if strings.available limits then
      min limits.storedStringBytes (limits.stringBytes - strings.bytes)
    else 0
  match readString perStringLimit input with
  | none => none
  | some (value, rest) =>
      if strings.seen = 2 ^ 64 - 1 then none
      else if strings.available limits then
        some ({ kept := strings.kept ++ [value.output]
                bytes := strings.bytes + value.output.length
                seen := strings.seen + 1
                truncated := strings.truncated || value.truncated }, rest)
      else some ({ strings with seen := strings.seen + 1, truncated := true }, rest)

def parseSnapshotStrings (limits : Limits) : List UInt8 → Option (Strings × List UInt8) :=
  parseGroup .array (snapshotStringItem limits) {}

/-! ## Metadata -/

/-- A member of `ParseMeta`. -/
def metaItem (data : SnapshotData) (input : List UInt8) : Option (SnapshotData × List UInt8) :=
  match parseKey input with
  | none => none
  | some (key, rest) =>
      if key = text "node_fields" then
        (parseFields data.nodeFields rest).map fun (nodeFields, rest) => ({ data with nodeFields }, rest)
      else if key = text "node_types" then
        (parseTypeTable data.nodeTypes rest).map fun (nodeTypes, rest) => ({ data with nodeTypes }, rest)
      else if key = text "edge_fields" then
        (parseFields data.edgeFields rest).map fun (edgeFields, rest) => ({ data with edgeFields }, rest)
      else if key = text "edge_types" then
        (parseTypeTable data.edgeTypes rest).map fun (edgeTypes, rest) => ({ data with edgeTypes }, rest)
      else skipMember data rest

/-- A member of `ParseSnapshotHeader`. -/
def headerItem (data : SnapshotData) (input : List UInt8) : Option (SnapshotData × List UInt8) :=
  match parseKey input with
  | none => none
  | some (key, rest) =>
      if key = text "meta" then parseGroup .object metaItem data rest
      else if key = text "node_count" then
        (readUnsigned rest).map fun (declaredNodes, rest) => ({ data with declaredNodes }, rest)
      else if key = text "edge_count" then
        (readUnsigned rest).map fun (declaredEdges, rest) => ({ data with declaredEdges }, rest)
      else skipMember data rest

/-! ## The document -/

/-- A member in the first pass of `ParseSnapshotDocument`; the flag is `found_header`. -/
def discoverItem (state : SnapshotData × Bool) (input : List UInt8) :
    Option ((SnapshotData × Bool) × List UInt8) :=
  match parseKey input with
  | none => none
  | some (key, rest) =>
      if key = text "snapshot" then
        if state.2 then none
        else (parseGroup .object headerItem state.1 rest).map fun (data, rest) => ((data, true), rest)
      else skipMember state rest

/-- The sections of which there must be one each. -/
inductive Part where
  | snapshot | nodes | edges | strings
  deriving DecidableEq, Repr

def partOf (key : List UInt8) : Option Part :=
  if key = text "snapshot" then some .snapshot
  else if key = text "nodes" then some .nodes
  else if key = text "edges" then some .edges
  else if key = text "strings" then some .strings
  else none

def withNodes (data : SnapshotData) (values : Values) : SnapshotData :=
  { data with nodes := values.kept, nodeValuesSeen := values.seen, nodeValuesTruncated := values.truncated }

def withEdges (data : SnapshotData) (values : Values) : SnapshotData :=
  { data with edges := values.kept, edgeValuesSeen := values.seen, edgeValuesTruncated := values.truncated }

def withStrings (data : SnapshotData) (strings : Strings) : SnapshotData :=
  { data with
    strings := strings.kept
    storedStringBytes := strings.bytes
    stringsSeen := strings.seen
    stringsTruncated := strings.truncated }

/-- The value of a section in the second pass. -/
def parsePart (limits : Limits) (data : SnapshotData) (input : List UInt8) :
    Part → Option (SnapshotData × List UInt8)
  | .snapshot => skipMember data input
  | .nodes =>
      if data.nodeFields = [] ∨ data.nodeFields.length > (2 ^ 64 - 1) / kHeapSnapshotMaxNodes then none
      else
        (parseUnsignedArray (data.nodeFields.length * limits.nodeRecords data.nodeFields.length) input).map
          fun (values, rest) => (withNodes data values, rest)
  | .edges =>
      if data.edgeFields = [] ∨ data.edgeFields.length > (2 ^ 64 - 1) / kHeapSnapshotMaxEdges then none
      else
        (parseUnsignedArray (data.edgeFields.length * limits.edgeRecords data.edgeFields.length) input).map
          fun (values, rest) => (withEdges data values, rest)
  | .strings =>
      (parseSnapshotStrings limits input).map fun (strings, rest) => (withStrings data strings, rest)

/-- A member in the second pass, with the sections seen so far. -/
def partItem (limits : Limits) (state : SnapshotData × List Part) (input : List UInt8) :
    Option ((SnapshotData × List Part) × List UInt8) :=
  match parseKey input with
  | none => none
  | some (key, rest) =>
      match partOf key with
      | none => skipMember state rest
      | some part =>
          if part ∈ state.2 then none
          else (parsePart limits state.1 rest part).map fun (data, rest) => ((data, part :: state.2), rest)

/-- A whole document: an object that is not empty, and nothing after it. -/
def parseObject {σ : Type} (item : σ → List UInt8 → Option (σ × List UInt8)) (state : σ)
    (document : List UInt8) : Option σ :=
  match consume 0x7b document with
  | none => none
  | some rest =>
      if (consume 0x7d rest).isSome then none
      else
        match parseItems 0x7d item (rest.length + 1) state rest with
        | none => none
        | some (state, rest) => if skipWhitespace rest = [] then some state else none

/-- `ParseSnapshotDocument`. -/
def parseSnapshotDocument (limits : Limits) (document : List UInt8) : Option SnapshotData :=
  match parseObject discoverItem ({}, false) document with
  | none => none
  | some (data, found) =>
      if !found then none
      else
        match parseObject (partItem limits) (data, []) document with
        | none => none
        | some (data, seen) =>
            if .snapshot ∈ seen ∧ .nodes ∈ seen ∧ .edges ∈ seen ∧ .strings ∈ seen then some data
            else none

end Reb.Analysis.Snapshot
