/-
# Console.DocumentStartScripts -- document-start script sets on the wire

The browser builds a set in `Arm`, encodes it as fixed records and sends it to every renderer,
which decodes it: the records are the scripts' own bytes.  `native_console_document_start.h`
holds the checks that both sides make, the browser's `native_console_document_start.cc` the
registry that builds the sets.
-/
import Reb.Console.DocumentStartOrigin
import Reb.Theory.Layout

namespace Reb.Console.ScriptSet

open Theory Theory.Decimal
open Origin.Browser (isValidNativeConsoleDocumentStartOrigin)

set_option autoImplicit false

abbrev kNativeConsoleDocumentStartOriginLimit : Nat := 256
abbrev kNativeConsoleDocumentStartPathLimit : Nat := 256
abbrev kNativeConsoleDocumentStartScriptLimit : Nat := 4
abbrev kNativeConsoleDocumentStartSourceLimit : Nat := 4096
abbrev kNativeConsoleDocumentStartTotalSourceLimit : Nat := 8192
abbrev kNativeConsoleDocumentStartTopFrame : UInt16 := 1
abbrev kNativeConsoleDocumentStartChildFrame : UInt16 := 2

/-! ## Scripts and their bytes -/

structure NativeConsoleDocumentStartRule where
  originBytes : UInt16 := 0
  pathBytes : UInt16 := 0
  frameFlags : UInt16 := 0
  reserved : UInt16 := 0
  origin : Vector UInt8 kNativeConsoleDocumentStartOriginLimit := .replicate _ 0
  path : Vector UInt8 kNativeConsoleDocumentStartPathLimit := .replicate _ 0
  deriving DecidableEq

structure NativeConsoleDocumentStartScript where
  scriptId : UInt64 := 0
  sourceBytes : UInt32 := 0
  reserved : UInt32 := 0
  rule : NativeConsoleDocumentStartRule := {}
  source : Vector UInt8 kNativeConsoleDocumentStartSourceLimit := .replicate _ 0
  deriving DecidableEq

/-- The members in order, without padding. -/
def ruleLayout : Layout NativeConsoleDocumentStartRule :=
  (Layout.word16.prod (Layout.word16.prod (Layout.word16.prod (Layout.word16.prod
    ((Layout.array 256).prod (Layout.array 256)))))).map
    { toFun := fun members => ⟨members.1, members.2.1, members.2.2.1, members.2.2.2.1,
        members.2.2.2.2.1, members.2.2.2.2.2⟩
      invFun := fun rule => (rule.originBytes, rule.pathBytes, rule.frameFlags, rule.reserved,
        rule.origin, rule.path)
      left_inv := fun _ => rfl
      right_inv := fun _ => rfl }

def scriptLayout : Layout NativeConsoleDocumentStartScript :=
  (Layout.word64.prod (Layout.word32.prod (Layout.word32.prod
    (ruleLayout.prod (Layout.array 4096))))).map
    { toFun := fun members => ⟨members.1, members.2.1, members.2.2.1, members.2.2.2.1,
        members.2.2.2.2⟩
      invFun := fun script => (script.scriptId, script.sourceBytes, script.reserved, script.rule,
        script.source)
      left_inv := fun _ => rfl
      right_inv := fun _ => rfl }

theorem width_scriptLayout : scriptLayout.width = 4632 := rfl

/-! ## Validity -/

def utf8Lead (lead : UInt8) : Option (Nat × UInt32) :=
  if lead == 0 then none
  else if lead < 0x80 then some (1, lead.toUInt32)
  else if lead ≥ 0xc2 && lead ≤ 0xdf then some (2, (lead &&& 0x1f).toUInt32)
  else if lead ≥ 0xe0 && lead ≤ 0xef then some (3, (lead &&& 0x0f).toUInt32)
  else if lead ≥ 0xf0 && lead ≤ 0xf4 then some (4, (lead &&& 0x07).toUInt32)
  else none

/-- The loop of `Utf8`; every turn consumes a byte, so the text's length bounds it. -/
def utf8Loop : Nat → List UInt8 → Bool
  | _, [] => true
  | 0, _ :: _ => false
  | turns + 1, lead :: rest =>
      match utf8Lead lead with
      | none => false
      | some (length, first) =>
          let continuation := rest.take (length - 1)
          if rest.length < length - 1 then false
          else if continuation.any (fun byte => byte < 0x80 || byte > 0xbf) then false
          else
            let point := continuation.foldl
              (fun (point : UInt32) byte => (point <<< 6) ||| (byte &&& 0x3f).toUInt32) first
            if (length == 3 && point < 0x800) || (length == 4 && point < 0x10000)
                || point > 0x10ffff || (point ≥ 0xd800 && point ≤ 0xdfff) then false
            else utf8Loop turns (rest.drop (length - 1))

def utf8 (text : List UInt8) : Bool := utf8Loop text.length text

def isValidNativeConsoleDocumentStartPath (path : List UInt8) : Bool :=
  if path.isEmpty then true
  else if path.head? != some 0x2f || path.length > kNativeConsoleDocumentStartPathLimit then false
  else path.all fun byte => !(byte ≤ 0x20 || byte ≥ 0x7f || byte == 0x3f || byte == 0x23)

def NativeConsoleDocumentStartRule.originText (rule : NativeConsoleDocumentStartRule) :
    List UInt8 := rule.origin.toList.take rule.originBytes.toNat

def NativeConsoleDocumentStartRule.pathText (rule : NativeConsoleDocumentStartRule) :
    List UInt8 := rule.path.toList.take rule.pathBytes.toNat

def NativeConsoleDocumentStartScript.sourceText (script : NativeConsoleDocumentStartScript) :
    List UInt8 := script.source.toList.take script.sourceBytes.toNat

def isValidNativeConsoleDocumentStartRule (rule : NativeConsoleDocumentStartRule) : Bool :=
  if rule.reserved != 0 || rule.originBytes == 0
      || rule.originBytes.toNat > kNativeConsoleDocumentStartOriginLimit
      || rule.pathBytes.toNat > kNativeConsoleDocumentStartPathLimit then false
  else if rule.frameFlags != kNativeConsoleDocumentStartTopFrame
      && rule.frameFlags != kNativeConsoleDocumentStartChildFrame then false
  else if (rule.origin.toList.drop rule.originBytes.toNat).any (· != 0) then false
  else if (rule.path.toList.drop rule.pathBytes.toNat).any (· != 0) then false
  else isValidNativeConsoleDocumentStartOrigin rule.originText
    && isValidNativeConsoleDocumentStartPath rule.pathText

def isValidNativeConsoleDocumentStartScript (script : NativeConsoleDocumentStartScript) : Bool :=
  if script.scriptId == 0 || script.reserved != 0 || script.sourceBytes == 0
      || script.sourceBytes.toNat > kNativeConsoleDocumentStartSourceLimit then false
  else if (script.source.toList.drop script.sourceBytes.toNat).any (· != 0) then false
  else isValidNativeConsoleDocumentStartRule script.rule && utf8 script.sourceText

/-! ## The wire -/

/-- One turn of the encoder: the offset and the buffer. -/
def encodeScript (state : Nat × List UInt8) (script : NativeConsoleDocumentStartScript) :
    Except (List UInt8) (Nat × List UInt8) :=
  if !isValidNativeConsoleDocumentStartScript script then .error state.2
  else .ok (state.1 + scriptLayout.width,
    LittleEndian.write state.2 state.1 (scriptLayout.write script))

/-- The size and the buffer; a refusal returns 0 and leaves what it had written. -/
def encodeNativeConsoleDocumentStartScripts (scripts : List NativeConsoleDocumentStartScript)
    (out : List UInt8) : Nat × List UInt8 :=
  if scripts.length > kNativeConsoleDocumentStartScriptLimit
      || out.length < scripts.length * scriptLayout.width then (0, out)
  else
    match scripts.foldlM encodeScript (0, out) with
    | .error out => (0, out)
    | .ok state => state

/-- The locals of the decoder and the storage it fills. -/
structure Decoding where
  index : Nat := 0
  total : Nat := 0
  out : List NativeConsoleDocumentStartScript

def decodeScript (state : Decoding) (script : NativeConsoleDocumentStartScript) :
    Except (List NativeConsoleDocumentStartScript) Decoding :=
  if !isValidNativeConsoleDocumentStartScript script then .error state.out
  else if (state.out.take state.index).any (fun previous => previous.scriptId == script.scriptId)
    then .error state.out
  else
    let total := state.total + script.sourceBytes.toNat
    if total > kNativeConsoleDocumentStartTotalSourceLimit then .error state.out
    else .ok { index := state.index + 1, total, out := state.out.set state.index script }

/-- The count and the storage; a refusal returns 0 and leaves what it had written. -/
def decodeNativeConsoleDocumentStartScripts (bytes : List UInt8)
    (out : List NativeConsoleDocumentStartScript) : Nat × List NativeConsoleDocumentStartScript :=
  if bytes.isEmpty || bytes.length % scriptLayout.width != 0 then (0, out)
  else
    let count := bytes.length / scriptLayout.width
    if count > kNativeConsoleDocumentStartScriptLimit || count > out.length then (0, out)
    else
      match (scriptLayout.records bytes).foldlM decodeScript { out } with
      | .error out => (0, out)
      | .ok state => (count, state.out)

/-! ## The registry -/

/-- What `Arm` reads of an entry that is a dictionary. -/
structure ArmRecord where
  origin : Option (List UInt8)
  frame : Option (List UInt8)
  source : Option (List UInt8)
  pathPrefix : Option (List UInt8)
  /-- The number of its keys. -/
  size : Nat

structure NativeConsoleDocumentStartRegistry where
  scripts : List NativeConsoleDocumentStartScript := []
  generation : UInt64 := 0
  nextScriptId : UInt64 := 1

/-- Text copied into an array of zeros. -/
def padded (size : Nat) (text : List UInt8) : Vector UInt8 size :=
  .ofFn fun index => text.getD index.val 0

/-- The set built so far. -/
structure Arming where
  next : List NativeConsoleDocumentStartScript := []
  total : Nat := 0
  nextScriptId : UInt64

def frameFlag (frame : List UInt8) : Option UInt16 :=
  if frame = ascii "top" then some kNativeConsoleDocumentStartTopFrame
  else if frame = ascii "child" then some kNativeConsoleDocumentStartChildFrame
  else none

/-- The script of an entry's texts. -/
def armedScript (scriptId : UInt64) (flags : UInt16) (origin source : List UInt8)
    (pathPrefix : Option (List UInt8)) : NativeConsoleDocumentStartScript :=
  { scriptId
    sourceBytes := .ofNat source.length
    rule :=
      { originBytes := .ofNat origin.length
        pathBytes := .ofNat (pathPrefix.getD []).length
        frameFlags := flags
        origin := padded _ origin
        path := padded _ (pathPrefix.getD []) }
    source := padded _ source }

/-- The keys that an entry may have. -/
def ArmRecord.keys (record : ArmRecord) : Nat := if record.pathPrefix.isSome then 4 else 3

/-- The checks of an entry's texts, and of what the set becomes with them. -/
def armTexts (state : Arming) (flags : UInt16) (origin source : List UInt8)
    (pathPrefix : Option (List UInt8)) : Except (String × UInt64) Arming :=
  if origin.length > kNativeConsoleDocumentStartOriginLimit
      || pathPrefix.any (fun text => text.length > kNativeConsoleDocumentStartPathLimit)
      || source.length > kNativeConsoleDocumentStartSourceLimit then
    .error ("A document-start origin, path prefix or snippet exceeds its limit",
      state.nextScriptId)
  else
    let script := armedScript state.nextScriptId flags origin source pathPrefix
    let total := state.total + source.length
    if !isValidNativeConsoleDocumentStartScript script then
      .error ("A document-start rule needs one exact http or https origin, frame \"top\" or \"child\", an optional literal path prefix, and a valid UTF-8 snippet",
        state.nextScriptId)
    else if total > kNativeConsoleDocumentStartTotalSourceLimit then
      .error ("Document-start snippets exceed 8192 total source bytes", state.nextScriptId)
    else .ok
      { next := state.next ++ [script]
        total
        nextScriptId := state.nextScriptId + 1 }

/-- One entry; a refusal says why and keeps the ids already given. -/
def armEntry (state : Arming) (entry : Option ArmRecord) : Except (String × UInt64) Arming :=
  match entry with
  | none => .error ("Each document-start script needs origin, frame and source",
      state.nextScriptId)
  | some record =>
      match record.origin, record.frame, record.source with
      | some origin, some frame, some source =>
          if record.size ≠ record.keys then
            .error ("A document-start script takes only origin, frame, path_prefix and source",
              state.nextScriptId)
          else
            match frameFlag frame with
            | none => .error ("A document-start rule matches frame \"top\" or \"child\"",
                state.nextScriptId)
            | some flags => armTexts state flags origin source record.pathPrefix
      | _, _, _ => .error ("Each document-start script needs origin, frame and source",
          state.nextScriptId)

namespace NativeConsoleDocumentStartRegistry

/-- `Arm`: the registry afterwards and the error, if any. -/
def arm (registry : NativeConsoleDocumentStartRegistry) (permitted : Bool)
    (scripts : List (Option ArmRecord)) : NativeConsoleDocumentStartRegistry × Option String :=
  if !permitted then
    (registry, some "Document-start scripts are not permitted in this browser session. Rebuild the pinned browser and start the session with the document-start experiment enabled.")
  else if scripts.isEmpty || scripts.length > kNativeConsoleDocumentStartScriptLimit then
    (registry, some "Arm 1 to 4 document-start scripts")
  else
    match scripts.foldlM armEntry { nextScriptId := registry.nextScriptId } with
    | .error (message, nextScriptId) => ({ registry with nextScriptId }, some message)
    | .ok state =>
        ({ scripts := state.next, generation := registry.generation + 1,
           nextScriptId := state.nextScriptId }, none)

/-- `Clear`; `outputEmpty` is whether no output is held. -/
def clear (registry : NativeConsoleDocumentStartRegistry) (outputEmpty : Bool) :
    NativeConsoleDocumentStartRegistry :=
  if registry.scripts.isEmpty && outputEmpty && registry.generation == 0 then registry
  else { registry with scripts := [], generation := registry.generation + 1 }

/-- `Encode` into a new buffer of `kNativeConsoleDocumentStartSetBytes`. -/
def encoded (registry : NativeConsoleDocumentStartRegistry) : List UInt8 :=
  let written := encodeNativeConsoleDocumentStartScripts registry.scripts
    (List.replicate (kNativeConsoleDocumentStartScriptLimit * scriptLayout.width) 0)
  written.2.take written.1

end NativeConsoleDocumentStartRegistry

end Reb.Console.ScriptSet
