/-
# Backend.VmPack -- instruction sets of two workspaces compared

`compare` checks a pack and two workspace documents, picks one workspace of each, and lists
their handlers in rows.  Handlers whose exact effect shape is unique on both sides are
paired; a shape that occurs more than once keeps all its handlers apart; what is left is
paired by its opcode, and the rest stands alone.  The schemas, the JSON text, the digest and
the letters of Unicode come from libraries.
-/
import Reb.Theory.FirstFit
import Reb.Theory.Gather
import Reb.Theory.SerdeValue
import Reb.Theory.Utf16

namespace Reb.Backend.VmPack

open Reb.Theory
open Reb.Theory.Serde

set_option autoImplicit false

def maxInputBytes : Nat := 16 * 1024 * 1024
def maxOutputBytes : Nat := 32 * 1024 * 1024
def maxPackBytes : Nat := 65536

/-- What the libraries do: the text of a value, a text read as it stands, the digest, the
letters and digits of Unicode, and whether a value has the form of a schema. -/
structure Library where
  toString : Value → List Char
  fromSlice : List UInt8 → Option Value
  sha256 : List UInt8 → List UInt8
  isAlphanumeric : Char → Bool
  packSchema : Value → Bool
  workspaceSchema : Value → Bool

/-! ## Values of a validated document

A schema demands every field that is read without a question; where one were missing the
field reads as empty here. -/

/-- `as_array().unwrap()`. -/
def items (value : Value) : List Value := value.asArray.getD []

/-- `as_str().unwrap()`. -/
def word (value : Value) : String := value.asStr.getD ""

/-- `as_u64().unwrap()`. -/
def count (value : Value) : Nat := (value.asU64.map UInt64.toNat).getD 0

def without (name : String) : Value → Value
  | .object members => .object (members.filter (·.1 ≠ name))
  | value => value

/-! ## Text -/

mutual

/-- `StrictJson`: no floats, no long strings or names, no name twice. -/
def strictJson : Value → Option Value
  | .null => some .null
  | .bool value => some (.bool value)
  | .number (.float _) => none
  | .number value => some (.number value)
  | .string value => if value.utf8ByteSize > 8192 then none else some (.string value)
  | .array values => (strictValues values).map .array
  | .object members => (strictMembers [] members).map .object

def strictValues : List Value → Option (List Value)
  | [] => some []
  | value :: values => do
      let value ← strictJson value
      let values ← strictValues values
      return value :: values

def strictMembers (read : List (String × Value)) :
    List (String × Value) → Option (List (String × Value))
  | [] => some read
  | (name, value) :: members =>
      if name.utf8ByteSize > 8192 || (read.lookup name).isSome then none
      else do
        let value ← strictJson value
        strictMembers (Value.setMember name value read) members

end

/-- The scan for depth and tokens. -/
structure Scan where
  depth : Nat := 0
  tokens : Nat := 0
  quoted : Bool := false
  escaped : Bool := false

def Scan.next (scan : Scan) (byte : UInt8) : Option Scan :=
  if scan.quoted then
    some { scan with
      quoted := !(!scan.escaped && byte == 0x22)
      escaped := !scan.escaped && byte == 0x5c }
  else
    let scan :=
      if byte == 0x22 then { scan with quoted := true, tokens := scan.tokens + 1 }
      else if byte == 0x7b || byte == 0x5b then
        { scan with depth := scan.depth + 1, tokens := scan.tokens + 1 }
      else if byte == 0x7d || byte == 0x5d then { scan with depth := scan.depth - 1 }
      else if byte == 0x2c || byte == 0x3a then { scan with tokens := scan.tokens + 1 }
      else scan
    if scan.depth > 32 || scan.tokens > 500000 then none else some scan

section Documents

variable (library : Library)

def parse (bytes : List UInt8) : Except String Value :=
  if bytes.length > maxInputBytes then .error "VM document exceeds 16 MiB"
  else if (bytes.foldlM Scan.next {}).isNone then
    .error "VM document structure exceeds bounds"
  else
    match (library.fromSlice bytes).bind strictJson with
    | none => .error
        "Invalid VM JSON: duplicate keys, noninteger numbers and malformed text are refused"
    | some (.object members) => .ok (.object members)
    | some _ => .error "VM document must be an object"

/-- `serde_json::to_vec`. -/
def toVec (value : Value) : List UInt8 := (library.toString value).flatMap String.utf8EncodeChar

def hexDigits (unit : UInt16) : List Char :=
  [12, 8, 4, 0].map fun shift => Nat.digitChar (unit.toNat >>> shift % 16)

/-- `vm::canonical`: everything beyond ASCII is escaped. -/
def canonical (value : Value) : List Char :=
  (library.toString value).flatMap fun ch =>
    if ch.toNat < 128 then [ch]
    else (Utf16.encodeChar ch).flatMap fun unit => '\\' :: 'u' :: hexDigits unit

/-- `vm::digest`. -/
def digest (value : Value) : String :=
  .ofList ((library.sha256 ((canonical library value).flatMap String.utf8EncodeChar)).flatMap
    fun byte => [Nat.digitChar (byte.toNat / 16), Nat.digitChar (byte.toNat % 16)])

/-! ## Packs and documents -/

/-- The relevance rules of `vm::current_rule_definitions`. -/
def known : List String :=
  ["antibot.automation", "antibot.canvas-webgl", "antibot.encoding-crypto",
    "antibot.navigator-device", "antibot.request", "antibot.runtime-canvas-webgl",
    "antibot.runtime-navigator-device", "antibot.runtime-web-audio"]

def inertLabel (label : String) : Bool :=
  label.toList.all fun c => library.isAlphanumeric c || c ∈ [' ', '.', '_', ':', '/', '-']

/-- The loop over the rules of a pack. -/
def namesRules (seen : List String) : List Value → Bool
  | [] => true
  | rule :: rules =>
      let id := word (rule.get "rule_id")
      id ∈ known && id ∉ seen && inertLabel library (word (rule.get "label"))
        && namesRules (id :: seen) rules

/-- The loop over the families of a pack. -/
def bindsSources (sources : List String) : List Value → Bool
  | [] => true
  | binding :: bindings =>
      let source := word (binding.get "source_artifact_sha256")
      source ∉ sources && bindsSources (source :: sources) bindings

def validatePack (pack : Value) : Except String Unit := do
  let _ ← parse library (toVec library pack)
  if (canonical library pack).length > maxPackBytes || !library.packSchema pack then
    throw "Invalid declarative VM analysis pack"
  if !namesRules library [] (items (pack.get "rules")) then
    throw "Pack rules must uniquely name existing relevance evidence with inert labels"
  if !bindsSources [] (items (pack.get "families")) then
    throw "Pack source family bindings must be unique"

def verifyDocument (document : Value) : Except String Unit := do
  let _ ← parse library (toVec library document)
  if !library.workspaceSchema document then
    throw "VM document does not satisfy its versioned contract"
  if !(document.get "document_digest").isStr (digest library (without "document_digest" document)) then
    throw "VM document digest mismatch"

/-- The counts that one workspace declares of itself. -/
def consistentCounts (workspace : Value) : Bool :=
  let coverage := workspace.get "coverage"
  (coverage.get "handler_count").asU64 == some (.ofNat (items (workspace.get "handlers")).length)
    && (items (workspace.get "samples")).length ≤ count (workspace.get "sample_count")
    && count (coverage.get "retained_snapshot_bytes")
      == count (coverage.get "characterized_bytes") + count (coverage.get "uncharacterized_bytes")

/-- The totals of a document's workspaces: handlers, snapshots, samples and unknowns. -/
def addCounts (totals : List Nat) (workspace : Value) : Except String (List Nat) := do
  if !consistentCounts workspace then throw "Inconsistent VM workspace counts"
  let counts := [(items (workspace.get "handlers")).length,
    (items (workspace.get "snapshots")).length, count (workspace.get "sample_count"),
    (items (workspace.get "unknowns")).length]
  let totals := totals.zipWith (· + ·) counts
  if totals.any (2 ^ 64 ≤ ·) then throw "VM summary count overflow"
  return totals

def validateWorkspaceCounts (document : Value) : Except String Unit := do
  let workspaces := items (document.get "workspaces")
  let totals ← workspaces.foldlM addCounts [0, 0, 0, 0]
  let names := ["workspace_count", "handler_count", "snapshot_count", "sample_count",
    "unknown_count"]
  if !(names.zip (workspaces.length :: totals)).all fun total =>
      ((document.get "summary").get total.1).asU64 == some (.ofNat total.2) then
    throw "Inconsistent VM document summary"

def isWasm (workspace : Value) : Bool := (workspace.get "runtime").isStr "webassembly"

/-- Where a handler's opcode is local to: its dispatch site in WebAssembly. -/
def site (workspace handler : Value) : Option (Nat × Nat) :=
  if isWasm workspace then
    some (count ((handler.get "source").get "byte_offset"),
      count ((handler.get "source").get "byte_size"))
  else none

/-- The loop over the opcodes of a workspace. -/
def distinctOpcodes (workspace : Value) (opcodes : List (UInt64 × Option (Nat × Nat))) :
    List Value → Bool
  | [] => true
  | handler :: handlers =>
      match (handler.get "opcode").asU64 with
      | none => distinctOpcodes workspace opcodes handlers
      | some opcode =>
          (opcode, site workspace handler) ∉ opcodes
            && distinctOpcodes workspace ((opcode, site workspace handler) :: opcodes) handlers

def workspace (document : Value) (artifact : String) : Except String Value := do
  verifyDocument library document
  validateWorkspaceCounts document
  match (items (document.get "workspaces")).filter fun workspace =>
      (workspace.get "interpreter_artifact_id").isStr artifact with
  | [selected] =>
      if !distinctOpcodes selected [] (items (selected.get "handlers")) then
        throw "Duplicate opcode rows cannot be compared"
      return selected
  | _ => throw "Select one exact interpreter artifact in each workspace document"

def family (pack source : Value) : Except String String :=
  match ((items (pack.get "families")).find? fun binding =>
      (binding.get "source_artifact_sha256").eq source).bind fun binding =>
        (binding.get "program_family").asStr with
  | some family => .ok family
  | none => .error "Selected source digest has no declared program-family binding"

def identity (document workspace : Value) : Value :=
  .object [("interpreter_artifact_id", workspace.get "interpreter_artifact_id"),
    ("source_artifact_sha256", workspace.get "source_artifact_sha256"),
    ("workspace_digest", document.get "document_digest")]

end Documents

/-! ## Effects -/

/-- The kinds of the named operands; none where operands overlap, share a name or leave the
instruction. -/
def layout (size : Nat) (names : List (String × String)) (occupied : List Nat) :
    List Value → Option (List (String × String))
  | [] => some names
  | operand :: operands => do
      let start ← (operand.get "byte_offset").asU64
      let width ← (operand.get "byte_size").asU64
      let name := word (operand.get "name")
      let bytes := List.range' start.toNat width.toNat
      if start.toNat + width.toNat > size || (names.lookup name).isSome
          || bytes.any (· ∈ occupied) then none
      else layout size ((name, word (operand.get "kind")) :: names) (bytes ++ occupied) operands

/-- The flow an operation has. -/
def flowOf (operation : String) : Option String :=
  if operation ∈ ["constant", "add", "add_modulo_2_64", "load", "store"] then some "next"
  else if operation ∈ ["branch_zero", "branch_nonzero"] then some "branch"
  else if operation ∈ ["jump", "call", "return", "halt"] then some operation
  else none

def consistentFlow (names : List (String × String)) (expected : String) (flow : Value) : Bool :=
  let target := (flow.get "target_operand").asStr
  let offset := (flow.get "target_offset").asU64
  (flow.get "kind").isStr expected
    && if expected ∈ ["branch", "jump", "call"] then
      (target.isSome != offset.isSome)
        && target.all fun name => names.lookup name == some "target"
    else target.isNone && offset.isNone

/-- Whether `str::parse::<u64>` reads the text. -/
def parsesU64 (text : String) : Bool :=
  let digits := match text.toList with
    | '+' :: digits => digits
    | digits => digits
  !digits.isEmpty && digits.all Char.isDigit
    && digits.foldl (fun n digit => n * 10 + (digit.toNat - '0'.toNat)) 0 < 2 ^ 64

def consistentCell (names : List (String × String)) (cell : Value) : Bool :=
  (["index", "value"].all fun field => (cell.get field).asStr.all parsesU64)
    && (cell.get "operand").asStr.all fun operand =>
      (cell.get "index").isNull && (names.lookup operand).isSome

def consistentSpan (span : Value) : Bool :=
  span.isNull || count (span.get "byte_offset") + count (span.get "byte_size") ≤ 65536

/-- Rows of the right form can still contradict themselves. -/
def consistentEffect (effect : Value) : Bool :=
  match (effect.get "instruction_size").asU64 with
  | none => false
  | some size =>
      match layout size.toNat [] [] (items (effect.get "operand_layout")),
        flowOf (word (effect.get "operation")) with
      | some names, some expected =>
          consistentFlow names expected (effect.get "flow")
            && (items (effect.get "reads") ++ items (effect.get "writes")).all (consistentCell names)
            && consistentSpan (effect.get "atomic_group")
            && consistentSpan (effect.get "superoperator")
      | _, _ => false

/-- An effect without its name and its class. -/
def meaning (effect : Value) : Value := without "evidence_class" (without "effect_id" effect)

/-- The loop over the effects of a handler: one that is unknown, named twice or inconsistent. -/
def doubtful (ids : List String) : List Value → Bool
  | [] => false
  | effect :: effects =>
      let id := word (effect.get "effect_id")
      (effect.get "evidence_class").isStr "unknown" || id ∈ ids || !consistentEffect effect
        || doubtful (id :: ids) effects

def uncertainty (handler : Value) : Option String :=
  let effects := items (handler.get "effects")
  if effects.any fun effect => (effect.get "evidence_class").isStr "contradicted" then
    some "contradicted"
  else if (handler.get "opcode").isNull || (handler.get "state").isStr "unknown"
      || effects.isEmpty || doubtful [] effects then some "unknown"
  else
    let first := meaning (effects.headD .null)
    if effects.tail.any fun effect => !(meaning effect).eq first then some "ambiguous" else none

section Shapes

variable (library : Library)

def effectShape (handler : Value) : Option String :=
  if (uncertainty handler).isSome then none
  else some (digest library (meaning ((items (handler.get "effects")).headD .null)))

/-! ## Rows -/

/-- A row names its handlers by their places. -/
structure Row where
  status : String
  basis : String
  shape : Option String := none
  left : Option Nat := none
  right : Option Nat := none
  deriving DecidableEq, Repr

/-- The handlers of a selected workspace; those of WebAssembly are not comparable. -/
structure Build where
  handlers : List Value
  comparable : Bool

def Build.of (workspace : Value) : Build := ⟨items (workspace.get "handlers"), !isWasm workspace⟩

def Build.handler (build : Build) (index : Nat) : Value := build.handlers.getD index .null

def Build.uncertain (build : Build) (index : Nat) : Option String :=
  uncertainty (build.handler index)

def Build.opcode (build : Build) (index : Nat) : Value := (build.handler index).get "opcode"

/-- The shape that takes part in the grouping. -/
def Build.shape (build : Build) (index : Nat) : Option String :=
  if build.comparable then effectShape library (build.handler index) else none

def Build.places (build : Build) : List Nat := List.range build.handlers.length

/-- The used handlers and the rows so far. -/
structure Matching where
  usedLeft : List Nat := []
  usedRight : List Nat := []
  rows : List Row := []

/-- A row whose handlers are used. -/
def Matching.add (matching : Matching) (row : Row) : Matching where
  usedLeft := matching.usedLeft ++ row.left.toList
  usedRight := matching.usedRight ++ row.right.toList
  rows := matching.rows ++ [row]

/-- The handlers of each shape, the left ones and the right ones. -/
def shapes (left right : Build) : OrderedMap String (List Nat × List Nat) :=
  OrderedMap.gather ([], []) (
    (left.places.filterMap fun index => (left.shape library index).map fun shape =>
      (shape, fun entry : List Nat × List Nat => (entry.1 ++ [index], entry.2)))
    ++ right.places.filterMap fun index => (right.shape library index).map fun shape =>
      (shape, fun entry : List Nat × List Nat => (entry.1, entry.2 ++ [index])))

def uniqueRow (left right : Build) (shape : String) (a b : Nat) : Row where
  status := if (left.opcode a).eq (right.opcode b) then "unchanged" else "moved"
  basis := "unique-exact-effect-shape"
  shape := some shape
  left := some a
  right := some b

def ambiguousRow (shape : String) : Row where
  status := "ambiguous"
  basis := "non-unique-effect-shape"
  shape := some shape

def ambiguousLeft (shape : String) (index : Nat) : Row :=
  { ambiguousRow shape with left := some index }

def ambiguousRight (shape : String) (index : Nat) : Row :=
  { ambiguousRow shape with right := some index }

/-- The pass by shapes, at one shape with its handlers. -/
def addShape (left right : Build) (matching : Matching) (entry : String × List Nat × List Nat) :
    Matching :=
  let lefts := entry.2.1
  let rights := entry.2.2
  if lefts.length = 1 ∧ rights.length = 1 then
    matching.add (uniqueRow left right entry.1 (lefts.headD 0) (rights.headD 0))
  else if lefts.length > 1 ∨ rights.length > 1 then
    let matching := lefts.foldl (fun matching index =>
      matching.add (ambiguousLeft entry.1 index)) matching
    rights.foldl (fun matching index => matching.add (ambiguousRight entry.1 index)) matching
  else matching

def changedRow (a b : Nat) : Row where
  status := "changed"
  basis := "same-opcode-different-effects"
  left := some a
  right := some b

/-- The pass by opcodes, at one left handler. -/
def addChanged (left right : Build) (matching : Matching) (a : Nat) : Matching :=
  if a ∈ matching.usedLeft then matching
  else if left.comparable && right.comparable && (left.uncertain a).isNone then
    match right.places.find? fun b => b ∉ matching.usedRight && (right.uncertain b).isNone
        && (right.opcode b).eq (left.opcode a) with
    | some b => matching.add (changedRow a b)
    | none => matching
  else matching

/-- The status of a handler alone. -/
def aloneStatus (build : Build) (alone : String) (index : Nat) : String :=
  if build.comparable then (build.uncertain index).getD alone
  else ((build.uncertain index).filter (· = "contradicted")).getD "unknown"

def aloneBasis (build : Build) : String :=
  if build.comparable then "unmatched" else "wasm-guest-binding-unavailable"

def aloneLeft (left : Build) (index : Nat) : Row where
  status := aloneStatus left "left-only" index
  basis := aloneBasis left
  left := some index

def aloneRight (right : Build) (index : Nat) : Row where
  status := aloneStatus right "right-only" index
  basis := aloneBasis right
  right := some index

/-- The rows in the order they are made. -/
def rows (left right : Build) : List Row :=
  let matching := (shapes library left right).entries.foldl (addShape left right) {}
  let matching := left.places.foldl (addChanged left right) matching
  matching.rows ++ (left.places.filter (· ∉ matching.usedLeft)).map (aloneLeft left)
    ++ (right.places.filter (· ∉ matching.usedRight)).map (aloneRight right)

/-- The opcode a row is sorted by. -/
def Row.opcode (left right : Build) (row : Row) : Option UInt64 :=
  (row.left.bind fun index => (left.opcode index).asU64).or
    (row.right.bind fun index => (right.opcode index).asU64)

/-- The order of the rows: by opcode, none first, and then by status. -/
def Row.notAfter (left right : Build) (row other : Row) : Bool :=
  match row.opcode left right, other.opcode left right with
  | none, some _ => true
  | some _, none => false
  | some a, some b => a < b || (a == b && row.status ≤ other.status)
  | none, none => row.status ≤ other.status

def sortedRows (left right : Build) : List Row :=
  (rows library left right).mergeSort (Row.notAfter left right)

def Row.value (left right : Build) (row : Row) : Value :=
  .object [("effect_shape_digest", (row.shape.map .string).getD .null),
    ("left", (row.left.map left.handler).getD .null), ("match_basis", .string row.basis),
    ("right", (row.right.map right.handler).getD .null), ("status", .string row.status)]

/-! ## The report -/

def finish (report : Value) : Except String Value :=
  let report := (report.set "document_digest" (.string (digest library report))).getD report
  if (canonical library report).length > maxOutputBytes then
    .error "VM report exceeds 32 MiB; no partial report was produced"
  else .ok report

def limitations : List String :=
  ["Exact effect shape is a comparison hypothesis, not proven semantic equivalence.",
    "Source digest and family bindings are declarations; absent original artifact bytes are not reverified."]

def reportOf (pack left right leftWorkspace rightWorkspace : Value) (family : String) : Value :=
  .object [("behavioral_equivalence_proven", .bool false), ("contract_version", .nat 1),
    ("coverage", .object [("left", leftWorkspace.get "coverage"),
      ("right", rightWorkspace.get "coverage")]),
    ("document_kind", .string "vm-instruction-set-comparison"),
    ("family_binding", .string "pack-declaration-not-authentication"),
    ("left", identity left leftWorkspace), ("limitations", .array (limitations.map .string)),
    ("omissions", .array []), ("pack_digest", .string (digest library pack)),
    ("program_family", .string family),
    ("residual_unknowns", .object [("left", leftWorkspace.get "unknowns"),
      ("right", rightWorkspace.get "unknowns")]),
    ("right", identity right rightWorkspace),
    ("rows", .array ((sortedRows library (.of leftWorkspace) (.of rightWorkspace)).map
      (Row.value (.of leftWorkspace) (.of rightWorkspace))))]

def compare (pack left : Value) (leftArtifact : String) (right : Value) (rightArtifact : String) :
    Except String Value := do
  validatePack library pack
  let leftWorkspace ← workspace library left leftArtifact
  let rightWorkspace ← workspace library right rightArtifact
  let programFamily ← family pack (leftWorkspace.get "source_artifact_sha256")
  if programFamily != (← family pack (rightWorkspace.get "source_artifact_sha256")) then
    throw "Selected workspaces have different declared program families"
  finish library (reportOf library pack left right leftWorkspace rightWorkspace programFamily)

end Shapes

end Reb.Backend.VmPack
