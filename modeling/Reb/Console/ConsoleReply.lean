/-
# Console.ConsoleReply -- what a console action may say and what the browser may answer

Requests are JSON; a member that is missing reads as null.  The parsers of texts and
URLs are other crates and come as `Crates`; so does the check of the scripts of an
arm, which looks at nothing but the scripts.

A reply is a header of 32 bytes and a payload.  A listing answers operation 1 and
nothing else; a runtime result operation 3, a document-start result operation 4.  The
rest is a text with a status.  (`annotate_frames`, which only adds to a listing how its
frames relate, is left out.)
-/
import Mathlib.Data.List.Basic
import Reb.Theory.Json
import Reb.Theory.LittleEndian

namespace Reb.Console

set_option autoImplicit false

open Reb.Theory

inductive Code where
  | unspecified | invalidRequest | stateConflict | protocolError | targetUnavailable
  | dependencyUnavailable | resourceLimit | commandOutcomeUnknown | applicationFailed
  deriving DecidableEq, Repr

inductive Cause where
  | timeout | disconnected | transportFailure | invalidReply
  deriving DecidableEq, Repr

structure Reason where
  code : Code := .unspecified
  cause : Option Cause := none
  deriving DecidableEq, Repr

def Reason.uncertain (cause : Cause) : Reason := ⟨.commandOutcomeUnknown, some cause⟩

structure Error where
  status : Nat
  message : String
  reason : Reason := {}
  deriving DecidableEq, Repr

namespace Error

def bad (message : String) : Error := ⟨400, message, { code := .invalidRequest }⟩

def conflict (message : String) : Error := ⟨409, message, { code := .stateConflict }⟩

def protocol (message : String) : Error := ⟨422, message, { code := .protocolError }⟩

end Error

/-! ## Reading JSON -/

/-- `value[name]`. -/
def get (value : Json) (name : String) : Json :=
  match value with
  | .object members => (members.lookup name).getD .null
  | _ => .null

/-- `value.get(name)`. -/
def find (value : Json) (name : String) : Option Json :=
  match value with
  | .object members => members.lookup name
  | _ => none

def asStr : Json → Option String
  | .string text => some text
  | _ => none

def asArray : Json → Option (List Json)
  | .array values => some values
  | _ => none

def asU64 : Json → Option Nat
  | .number value => if value < 2 ^ 64 then some value else none
  | _ => none

def isNull : Json → Bool
  | .null => true
  | _ => false

def isTrue : Json → Bool
  | .bool value => value
  | _ => false

def isObject : Json → Bool
  | .object _ => true
  | _ => false

/-! ## `validation` -/

def fields (value : Json) (expected : List String) (label : String) : Except Error Unit :=
  match value with
  | .object members =>
      if (members.map Prod.fst).all (expected.contains ·) &&
          expected.all ((members.map Prod.fst).contains ·) then .ok ()
      else .error (.bad (label ++ " shape is invalid"))
  | _ => .error (.bad (label ++ " must be an object"))

/-- `canonical(value, 64, true, label)`. -/
def canonical (value : Json) (label : String) : Except Error Nat :=
  match asStr value with
  | none => .error (.bad (label ++ " must be a canonical unsigned integer"))
  | some text =>
      let digits := text.toList
      if digits.isEmpty || (digits.length > 1 && digits.head? == some '0') ||
          !digits.all Char.isDigit then
        .error (.bad (label ++ " must be a canonical unsigned integer"))
      else
        let number := Nat.ofDigitChars 10 digits 0
        if 2 ^ 64 ≤ number then .error (.bad (label ++ " exceeds its integer range"))
        else if number == 0 then .error (.bad (label ++ " is outside its range"))
        else .ok number

def isControl (c : Char) : Bool := c.toNat < 0x20 || (0x7f ≤ c.toNat && c.toNat < 0xa0)

def text (value : Json) (label : String) (max : Nat) (empty controls : Bool) :
    Except Error String :=
  match asStr value with
  | none => .error (.bad (label ++ " must be text"))
  | some text =>
      if (!empty && text.isEmpty) || text.utf8ByteSize > max ||
          (!controls && text.toList.any isControl) then
        .error (.bad (label ++ " is empty, oversized, or contains controls"))
      else .ok text

/-! ## What comes from elsewhere -/

structure Url where
  scheme : String
  username : String
  password : Option String

structure Crates where
  toString : Json → String
  fromSlice : List UInt8 → Option Json
  parseUrl : String → Option Url
  validateDocumentStart : Json → Except Error Json

def SOURCE_LIMIT : Nat := 8192

def RUNTIME_LIMIT : Nat := 65536

/-- The members of a runtime command. -/
def commandFields : String → Option (List String)
  | "evaluate" => some ["operation", "source"]
  | "inspect" => some ["operation", "handle", "offset"]
  | "complete" => some ["operation", "path", "prefix"]
  | "await" | "release" | "store" | "cancel" | "source" | "listeners" | "monitor" | "unmonitor" =>
      some ["operation", "handle"]
  | "poll" | "clear" | "last" | "traffic" => some ["operation"]
  | _ => none

def validateCommand (command : Json) : Except Error Unit := do
  let operation := (asStr (get command "operation")).getD ""
  match commandFields operation with
  | none => throw (.bad "Invalid runtime operation")
  | some expected =>
      fields command expected "Runtime command"
      if operation == "evaluate" then
        let source ← text (get command "source") "JavaScript" SOURCE_LIMIT false true
        if source.isEmpty || source.toList.contains '\x00' then
          throw (.bad "JavaScript must be nonempty without NUL")
      if expected.contains "handle" then
        let _ ← canonical (get command "handle") "Value handle"
      if operation == "inspect" && !(asU64 (get command "offset")).any (· ≤ 65536) then
        throw (.bad "Property offset must be 0 to 65536")
      if operation == "complete" then
        match asArray (get command "path") with
        | none => throw (.bad "Completion path must be an array")
        | some path =>
            if path.length > 8 then throw (.bad "Completion path has more than 8 components")
            path.forM fun key => do
              let _ ← text key "Completion component" 128 false false
            let _ ← text (get command "prefix") "Completion prefix" 128 true false

end Reb.Console

namespace Reb.Console

/-! # Replies -/

open Reb.Theory Reb.Theory.LittleEndian

def MAGIC : Nat := 0x43424552

def TEXT_LIMIT : Nat := 8192

def TARGET_LIMIT : Nat := 64

def TARGET_SIZE : Nat := 920

structure ResponseHeader where
  status : Nat
  kind : Nat
  truncated : Bool
  documentStart : Bool
  count : Nat
  bytes : Nat
  deriving DecidableEq, Repr

def u16At (bytes : List UInt8) (i : Nat) : Nat := ofBytes (window bytes i 2)

def u32At (bytes : List UInt8) (i : Nat) : Nat := ofBytes (window bytes i 4)

def u64At (bytes : List UInt8) (i : Nat) : Nat := ofBytes (window bytes i 8)

namespace ResponseHeader

/-- A header of no known shape. -/
def malformed (bytes : List UInt8) (request operation : Nat) (parsed : ResponseHeader) : Bool :=
  u32At bytes 0 != MAGIC || u16At bytes 4 != 2 || u64At bytes 8 != request ||
    u32At bytes 28 != 0 || parsed.status > 6 || parsed.kind > 12 ||
    (parsed.kind == 11 && operation != 3) || (parsed.kind == 12 && operation != 4) ||
    (operation == 3 && parsed.status == 0 && parsed.kind != 11) ||
    (operation == 4 && parsed.status == 0 && parsed.kind != 12) || u16At bytes 18 > 3 ||
    (parsed.documentStart && parsed.kind != 10) ||
    (parsed.kind == 10 &&
      (operation != 1 || parsed.status != 0 || parsed.count > TARGET_LIMIT ||
        parsed.bytes != parsed.count * TARGET_SIZE)) ||
    (parsed.kind != 10 &&
      (parsed.count != 0 ||
        parsed.bytes > (if parsed.kind == 11 || parsed.kind == 12 then RUNTIME_LIMIT else TEXT_LIMIT) ||
        (operation == 1 && parsed.status == 0)))

def parse (bytes : List UInt8) (request operation : Nat) : Except Error ResponseHeader :=
  let flags := u16At bytes 18
  let parsed : ResponseHeader :=
    { status := u16At bytes 6, kind := u16At bytes 16, truncated := flags &&& 1 != 0
      documentStart := flags &&& 2 != 0, count := u32At bytes 20, bytes := u32At bytes 24 }
  if malformed bytes request operation parsed then
    .error (.protocol "Native console returned a malformed record")
  else if operation == 1 && parsed.kind != 10 then
    .error (.conflict "Native document listing failed; restart the session")
  else if parsed.bytes == 0 && (parsed.status == 5 || parsed.status == 6) then
    .error { Error.conflict "Native session retired; restart it. Execution may have occurred" with
      reason := .uncertain (if parsed.status == 5 then .timeout else .disconnected) }
  else .ok parsed

end ResponseHeader

structure Target where
  id : Nat
  origin : String
  label : String
  url : String
  mainFrame : Bool
  truncated : Bool
  deriving DecidableEq, Repr

/-- What a reply says. -/
inductive Body where
  | listing (targets : List Target) (truncated documentStartSupported : Bool)
  | runtime (result : Json)
  | documentStart (result : Json)
  | text (status type text : String) (truncated : Bool)

structure Value where
  sessionId : String
  body : Body
  reason : Option Reason := none
  requestId : Option Nat := none

def fromUtf8 (bytes : List UInt8) : Option String := String.fromUTF8? ⟨bytes.toArray⟩

/-- One record of a listing; `ids` are those of the records before it. -/
def readTarget (record : List UInt8) (ids : List Nat) : Except Error Target :=
  let id := u64At record 0
  let size := u16At record 8
  let flags := u16At record 10
  if id == 0 || size > 256 || flags > 3 || window record 916 4 != [0, 0, 0, 0] ||
      window record 12 4 != [0, 0, 0, 0] || ids.contains id then
    .error (.protocol "Native target listing is malformed")
  else
    match fromUtf8 (window record 16 size) with
    | none => .error (.protocol "Native origin is not UTF-8")
    | some origin =>
        let labelSize := u16At record 272
        let urlSize := u16At record 274
        if labelSize > 128 || urlSize > 512 then
          .error (.protocol "Native context metadata is oversized")
        else
          match fromUtf8 (window record 276 labelSize) with
          | none => .error (.protocol "Native label is not UTF-8")
          | some label =>
              match fromUtf8 (window record 404 urlSize) with
              | none => .error (.protocol "Native URL is not UTF-8")
              | some url => .ok ⟨id, origin, label, url, flags &&& 2 != 0, flags &&& 1 != 0⟩

/-- The loop over the records. -/
def readTargets : List (List UInt8) → List Nat → Except Error (List Target)
  | [], _ => .ok []
  | record :: rest, ids =>
      match readTarget record ids with
      | .error error => .error error
      | .ok target =>
          match readTargets rest (target.id :: ids) with
          | .error error => .error error
          | .ok targets => .ok (target :: targets)

/-- `payload.as_chunks::<TARGET_SIZE>().0`. -/
def chunks (payload : List UInt8) : List (List UInt8) :=
  (List.range (payload.length / TARGET_SIZE)).map fun i => window payload (i * TARGET_SIZE) TARGET_SIZE

def types : List String :=
  ["undefined", "null", "boolean", "number", "string", "bigint", "symbol", "function", "object",
    "promise"]

def statuses : List String :=
  ["ok", "malformed", "stale_target", "forbidden", "exception", "timeout", "disconnected"]

def statusReason : Nat → Option Reason
  | 1 => some { code := .invalidRequest }
  | 2 => some { code := .targetUnavailable }
  | 3 => some { code := .stateConflict }
  | 4 => some { code := .applicationFailed }
  | 5 => some (.uncertain .timeout)
  | 6 => some (.uncertain .disconnected)
  | _ => none

def ResponseHeader.value (crates : Crates) (header : ResponseHeader) (payload : List UInt8)
    (session : String) : Except Error Value :=
  if header.kind == 10 then
    match readTargets (chunks payload) [] with
    | .error error => .error error
    | .ok targets => .ok ⟨session, .listing targets header.truncated header.documentStart, none, none⟩
  else if header.kind == 11 then
    match crates.fromSlice payload with
    | none => .error (.protocol "Native runtime result is not JSON")
    | some runtime =>
        if !isObject runtime || header.status != 0 then
          .error (.protocol "Invalid runtime envelope")
        else
          let failed := (asStr (get runtime "status")).any fun status =>
            status == "error" || status == "exception" || status == "rejected"
          .ok ⟨session, .runtime runtime,
            if failed then some { code := .applicationFailed } else none, none⟩
  else if header.kind == 12 then
    match crates.fromSlice payload with
    | none => .error (.protocol "Native document-start result is not JSON")
    | some documentStart =>
        if !isObject documentStart || header.status != 0 then
          .error (.protocol "Invalid document-start envelope")
        else
          let failed := asStr (get documentStart "status") != some "ok"
          .ok ⟨session, .documentStart documentStart,
            if failed then some { code := .applicationFailed } else none, none⟩
  else
    match fromUtf8 payload with
    | none => .error (.protocol "Native result is not UTF-8")
    | some text =>
        .ok ⟨session, .text (statuses.getD header.status "") (types.getD header.kind "") text
          header.truncated, statusReason header.status, none⟩

namespace Value

variable (value : Value)

/-- The ids of `value["targets"]`. -/
def listed : Option (List Nat) :=
  match value.body with
  | .listing targets _ _ => some (targets.map (·.id))
  | _ => none

def documentStartSupported : Bool :=
  match value.body with
  | .listing _ _ supported => supported
  | _ => false

/-- `value["status"]`. -/
def status : Option String :=
  match value.body with
  | .text status _ _ _ => some status
  | _ => none

/-- `value["runtime"]["status"]`. -/
def runtimeStatus : Option String :=
  match value.body with
  | .runtime result => asStr (get result "status")
  | _ => none

/-- `value["document_start"]["status"]`. -/
def documentStartStatus : Option String :=
  match value.body with
  | .documentStart result => asStr (get result "status")
  | _ => none

/-- `value["document_start"]["scripts"]`. -/
def scripts : Option (List Json) :=
  match value.body with
  | .documentStart result => asArray (get result "scripts")
  | _ => none

end Value

/-! ## Which operation a reply answers -/

theorem parse_kind {bytes : List UInt8} {request operation : Nat} {header : ResponseHeader}
    (parses : ResponseHeader.parse bytes request operation = .ok header) :
    (header.kind = 10 ↔ operation = 1) ∧ (header.kind = 12 → operation = 4) := by
  rw [ResponseHeader.parse] at parses
  split at parses
  · cases parses
  next formed =>
  split at parses
  · cases parses
  next listing =>
  split at parses
  · cases parses
  · obtain rfl := Except.ok.inj parses
    simp only [ResponseHeader.malformed, Bool.or_eq_true, Bool.and_eq_true, beq_iff_eq, bne_iff_ne,
      not_or, not_and, decide_eq_true_eq] at formed listing
    constructor
    · refine ⟨fun kind => ?_, fun first => ?_⟩
      · have only := formed.1.2 kind
        tauto
      · exact Decidable.not_not.1 (listing first)
    · intro kind
      have only := formed.1.1.1.1.1.1.2 kind
      tauto

section Valued

variable {crates : Crates} {bytes payload : List UInt8} {request operation : Nat}
  {header : ResponseHeader} {session : String} {value : Value}

/-- The kind of a header says which body its payload is read as. -/
inductive Reads (kind : Nat) (body : Body) : Prop where
  | listing (same : kind = 10) (targets : List Target) (truncated supported : Bool)
      (read : body = .listing targets truncated supported)
  | runtime (same : kind = 11) (result : Json) (read : body = .runtime result)
  | documentStart (same : kind = 12) (result : Json) (read : body = .documentStart result)
  | text (other : kind ≠ 10) (status type text : String) (truncated : Bool)
      (read : body = .text status type text truncated)

theorem value_reads (valued : header.value crates payload session = .ok value) :
    Reads header.kind value.body := by
  rw [ResponseHeader.value] at valued
  split at valued
  case isTrue kind =>
    split at valued
    · cases valued
    · obtain rfl := Except.ok.inj valued
      exact .listing (beq_iff_eq.1 kind) _ _ _ rfl
  case isFalse other =>
  split at valued
  case isTrue kind =>
    split at valued
    · cases valued
    split at valued
    · cases valued
    · obtain rfl := Except.ok.inj valued
      exact .runtime (beq_iff_eq.1 kind) _ rfl
  case isFalse =>
  split at valued
  case isTrue kind =>
    split at valued
    · cases valued
    split at valued
    · cases valued
    · obtain rfl := Except.ok.inj valued
      exact .documentStart (beq_iff_eq.1 kind) _ rfl
  case isFalse =>
  split at valued
  · cases valued
  · obtain rfl := Except.ok.inj valued
    exact .text (fun same => other (beq_iff_eq.2 same)) _ _ _ _ rfl

/-- A listing is what operation 1 is answered with, and nothing else is. -/
theorem value_listed (parses : ResponseHeader.parse bytes request operation = .ok header)
    (valued : header.value crates payload session = .ok value) :
    value.listed.isSome ↔ operation = 1 := by
  rw [← (parse_kind parses).1, Value.listed]
  cases value_reads valued with
  | listing same targets truncated supported read =>
      rw [read]
      exact iff_of_true rfl same
  | runtime same result read | documentStart same result read =>
      rw [read, same]
      exact iff_of_false Bool.false_ne_true (by decide)
  | text other status type text truncated read =>
      rw [read]
      exact iff_of_false Bool.false_ne_true other

end Valued

end Reb.Console
