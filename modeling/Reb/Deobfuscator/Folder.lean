/-
# Deobfuscator.Folder -- rewriting what an expression is known to be

`Folder` goes through a program once.  What it can evaluate to a primitive it replaces where it
stands; a decided `if` becomes its chosen arm; `o["name"]` becomes `o.name`.  `analyze` copies the
source around the collected rewrites and lets the result be parsed again.

Evaluation is a parameter (`Evaluator`): whatever it answers, and whatever it leaves of its
bindings and its budget, the visitor is the one below.  The program is a `Tree`, a node for each
kind the visitor tells apart.  `none` stands for the panic of a string slice.
-/
import Mathlib
import Reb.Deobfuscator.RequestFraming
import Reb.Theory.Edits

namespace Reb.Deobfuscator

open Reb.Theory.Edits

set_option autoImplicit false

def maxValueBytes : Nat := 16 * 1024

def maxTransformations : Nat := 4096

def maxReplacementBytes : Nat := 512 * 1024

def maxDerivedBytes : Nat := maxSourceBytes + 512 * 1024

/-- `str::is_char_boundary`. -/
def isCharBoundary (source : List UInt8) (place : Nat) : Bool :=
  place == 0 || place == source.length ||
    match source[place]? with
    | some byte => byte < 128 || 192 ≤ byte
    | none => false

/-! ## The tree -/

structure Span where
  start : Nat
  stop : Nat
  deriving DecidableEq, Repr

inductive ExpressionKind where
  | numericLiteral
  | booleanLiteral
  | nullLiteral
  | stringLiteral (value : List UInt8) (loneSurrogates : Bool)
  | identifier (name : String)
  | call
  | computedMember
  | conditional
  | logical
  | array
  | delete
  | other
  deriving DecidableEq, Repr

inductive ScopeKind where
  | function (id : Option String)
  | arrow
  | classBody
  deriving DecidableEq, Repr

/-- A simple binding has its name in `id`. -/
structure Declarator (T : Type) where
  id : Option String
  pattern : T
  init : Option T

/-- The parts of a node in the order they are walked. -/
inductive Tree where
  | expression (kind : ExpressionKind) (span : Span) (parts : List Tree)
  | computedMember (span : Span) (object property : Tree) (optional : Bool)
  | objectProperty (span : Span) (shorthand : Bool) (parts : List Tree)
  | statements (span : Span) (list : List Tree)
  | variableDeclaration (span : Span) (isConst : Bool) (declarators : List (Declarator Tree))
  | scope (kind : ScopeKind) (span : Span) (parts : List Tree)
  | ifStatement (span : Span) (test consequent : Tree) (alternate : Option Tree)
  | expressionStatement (span : Span) (expression : Tree)
  | returnStatement (span : Span) (argument : Option Tree)
  | throwStatement (span : Span) (argument : Tree)
  | node (span : Span) (parts : List Tree)

def Tree.span : Tree → Span
  | .expression _ span _ | .computedMember span _ _ _ | .objectProperty span _ _
  | .statements span _ | .variableDeclaration span _ _ | .scope _ span _
  | .ifStatement span _ _ _ | .expressionStatement span _ | .returnStatement span _
  | .throwStatement span _ | .node span _ => span

def Declarator.parts {T : Type} (declarator : Declarator T) : List T :=
  declarator.pattern :: declarator.init.toList

def Tree.parts : Tree → List Tree
  | .expression _ _ parts | .objectProperty _ _ parts | .statements _ parts | .scope _ _ parts
  | .node _ parts => parts
  | .computedMember _ object property _ => [object, property]
  | .variableDeclaration _ _ declarators => declarators.flatMap Declarator.parts
  | .ifStatement _ test consequent alternate => test :: consequent :: alternate.toList
  | .expressionStatement _ part | .throwStatement _ part => [part]
  | .returnStatement _ argument => argument.toList

mutual

/-- `Declarations`: whether there is a declaration of a variable, a function or a class. -/
def Tree.declares : Tree → Bool
  | .variableDeclaration _ _ _ => true
  | .scope (.function _) _ _ | .scope .classBody _ _ => true
  | .scope .arrow _ parts | .expression _ _ parts | .objectProperty _ _ parts
  | .statements _ parts | .node _ parts => declaresAny parts
  | .computedMember _ object property _ => object.declares || property.declares
  | .ifStatement _ test consequent alternate =>
      test.declares || consequent.declares || declaresSome alternate
  | .expressionStatement _ part | .throwStatement _ part => part.declares
  | .returnStatement _ argument => declaresSome argument

def declaresAny : List Tree → Bool
  | [] => false
  | tree :: rest => tree.declares || declaresAny rest

def declaresSome : Option Tree → Bool
  | none => false
  | some tree => tree.declares

end

/-! ## Evaluation -/

structure Proxy where
  parameters : List String
  expression : List UInt8
  block : Bool
  controlFlow : Bool
  deriving DecidableEq, Repr

/-- What evaluation reads and changes; `state` holds its steps and its budget. -/
structure Context (Value σ : Type) where
  constants : AList fun _ : String => Value
  tables : AList fun _ : String => List Value
  proxies : AList fun _ : String => Proxy
  truncated : Bool
  state : σ

/-- What the visitor asks about the expressions of one source. -/
structure Evaluator (Value σ : Type) where
  begin : σ
  eval : Tree → Context Value σ → Option Value × Context Value σ
  isPrimitive : Value → Bool
  truthy : Value → Bool
  code : Value → σ → Option (List UInt8) × σ
  reserve : Nat → σ → Bool × σ
  exhausted : σ → Bool
  valueBytes : Nat
  assumeIntrinsics : Bool
  intrinsicCallShape : Tree → Bool
  proxyExpression : Tree → Option Proxy
  proxyFunction : Tree → Option Proxy
  safe : String → Nat → Bool
  proxySafe : String → Bool

structure Folder (Value σ : Type) where
  context : Context Value σ
  rewrites : List Transformation := []
  replacementBytes : Nat := 0
  listDepth : Nat := 0

section

variable {Value σ : Type} (evaluator : Evaluator Value σ) (source : List UInt8)

def Folder.new : Folder Value σ where
  context := ⟨∅, ∅, ∅, false, evaluator.begin⟩

def Folder.isTruncated (folder : Folder Value σ) : Bool :=
  folder.context.truncated || evaluator.exhausted folder.context.state

def Folder.eval (folder : Folder Value σ) (tree : Tree) : Option Value × Folder Value σ :=
  ((evaluator.eval tree folder.context).1,
    { folder with context := (evaluator.eval tree folder.context).2 })

def Folder.code (folder : Folder Value σ) (value : Value) :
    Option (List UInt8) × Folder Value σ :=
  ((evaluator.code value folder.context.state).1,
    { folder with context.state := (evaluator.code value folder.context.state).2 })

def Folder.rewrite (folder : Folder Value σ) (span : Span) (replacement : List UInt8)
    (kind : String) : Option (Folder Value σ × Bool) :=
  if maxTransformations ≤ folder.rewrites.length ∨
      maxReplacementBytes < folder.replacementBytes + replacement.length then
    some ({ folder with context.truncated := true }, false)
  else
    (slice (isCharBoundary source) source span.start span.stop).map fun original =>
      if original = replacement then (folder, false)
      else
        ({ folder with
            replacementBytes := folder.replacementBytes + replacement.length
            rewrites := folder.rewrites ++ [⟨kind, span.start, span.stop, replacement⟩] }, true)

/-! ## Bindings -/

/-- No binding is inherited into a scope or a nested statement. -/
def Folder.bare (folder : Folder Value σ) : Folder Value σ :=
  { folder with
    context.constants := ∅
    context.tables := ∅
    context.proxies := ∅ }

def Folder.restore (folder outer : Folder Value σ) : Folder Value σ :=
  { folder with
    context.constants := outer.context.constants
    context.tables := outer.context.tables
    context.proxies := outer.context.proxies }

def Folder.enter (folder : Folder Value σ) : Folder Value σ :=
  { folder.bare with listDepth := folder.listDepth + 1 }

def Folder.leave (folder outer : Folder Value σ) : Folder Value σ :=
  { folder.restore outer with listDepth := folder.listDepth - 1 }

def Folder.bindConstant (folder : Folder Value σ) (name : String) (init : Tree) :
    Folder Value σ :=
  let next := (folder.eval evaluator init).2
  match (folder.eval evaluator init).1 with
  | some value =>
      if evaluator.isPrimitive value ∧ next.context.constants.keys.length < 64 then
        { next with context.constants := next.context.constants.insert name value }
      else next
  | none => next

def Folder.bindProxy (folder : Folder Value σ) (name : String) (proxy : Option Proxy) :
    Folder Value σ :=
  match proxy with
  | some proxy =>
      if folder.context.proxies.keys.length < 64 then
        { folder with context.proxies := folder.context.proxies.insert name proxy }
      else folder
  | none => folder

/-- `as_expression`: neither a hole nor a spread. -/
def Tree.isExpression : Tree → Bool
  | .expression _ _ _ => true
  | _ => false

def Folder.elements : Folder Value σ → List Tree → Option (List Value) × Folder Value σ
  | folder, [] => (some [], folder)
  | folder, element :: rest =>
      if element.isExpression then
        match (folder.eval evaluator element).1 with
        | some value =>
            let others := Folder.elements (folder.eval evaluator element).2 rest
            (others.1.map (value :: ·), others.2)
        | none => (none, (folder.eval evaluator element).2)
      else (none, folder)

def Folder.codeBytes : Folder Value σ → Nat → List Value → Option Nat × Folder Value σ
  | folder, size, [] => (some size, folder)
  | folder, size, value :: rest =>
      match (folder.code evaluator value).1 with
      | some code => Folder.codeBytes (folder.code evaluator value).2 (size + code.length) rest
      | none => (none, (folder.code evaluator value).2)

def Folder.reserve (folder : Folder Value σ) (bytes : Nat) : Bool × Folder Value σ :=
  ((evaluator.reserve bytes folder.context.state).1,
    { folder with context.state := (evaluator.reserve bytes folder.context.state).2 })

/-- A table of primitives that fits its limit. -/
def Folder.fillTable (folder : Folder Value σ) (name : String) (elements : List Tree) :
    Folder Value σ :=
  let listed := folder.elements evaluator elements
  match listed.1 with
  | some values =>
      if values.all evaluator.isPrimitive then
        let sized := listed.2.codeBytes evaluator 0 values
        match sized.1 with
        | some size =>
            if size ≤ maxValueBytes then
              { sized.2 with context.tables := sized.2.context.tables.insert name values }
            else sized.2
        | none => sized.2
      else listed.2
  | none => listed.2

def Folder.bindTable (folder : Folder Value σ) (name : String) : Tree → Folder Value σ
  | .expression .array _ elements =>
      if 1 < folder.listDepth ∧ folder.context.tables.keys.length < 16 ∧ elements.length ≤ 256 ∧
          evaluator.safe name elements.length then
        let reserved := folder.reserve evaluator (elements.length * evaluator.valueBytes * 2)
        if reserved.1 then reserved.2.fillTable evaluator name elements else reserved.2
      else folder
  | _ => folder

/-- What a declarator with an initializer adds to the bindings of its list. -/
def Folder.bindInit (folder : Folder Value σ) (isConst : Bool) (id : Option String)
    (init : Tree) : Folder Value σ :=
  match isConst, id with
  | true, some name =>
      ((folder.bindConstant evaluator name init).bindProxy name
        (evaluator.proxyExpression init)).bindTable evaluator name init
  | _, _ => folder

/-- Destructuring can have effects: what is known of constants is dropped. -/
def Folder.bindPattern (folder : Folder Value σ) : Option String → Folder Value σ
  | some _ => folder
  | none => { folder with context.constants := ∅ }

/-- A function declared in a nested list is a proxy when every use of its name is a call. -/
def Folder.bindFunction (folder : Folder Value σ) : Tree → Folder Value σ
  | .scope (.function (some name)) span parts =>
      if 1 < folder.listDepth ∧ evaluator.proxySafe name then
        folder.bindProxy name (evaluator.proxyFunction (.scope (.function (some name)) span parts))
      else folder
  | _ => folder

/-- The statements of a list that neither take nor end its bindings. -/
def Tree.straight : Tree → Bool
  | .scope (.function _) _ _ | .expressionStatement _ _ | .returnStatement _ _
  | .throwStatement _ _ => true
  | _ => false

/-! ## What is rewritten -/

def ExpressionKind.eligible : ExpressionKind → Bool
  | .numericLiteral | .booleanLiteral | .nullLiteral => false
  | _ => true

def Folder.calleeKind (folder : Folder Value σ) : List Tree → String
  | .expression (.identifier name) _ _ :: _ =>
      match folder.context.proxies.lookup name with
      | some proxy =>
          if proxy.controlFlow then "control-flow"
          else if proxy.block then "custom-decoder"
          else "proxy-call"
      | none => "proxy-call"
  | _ => "proxy-call"

def Folder.foldKind (folder : Folder Value σ) (kind : ExpressionKind) (span : Span)
    (parts : List Tree) : String :=
  match kind with
  | .identifier _ => "constant-propagation"
  | .call =>
      if evaluator.assumeIntrinsics && evaluator.intrinsicCallShape (.expression kind span parts)
      then "intrinsic-call"
      else folder.calleeKind parts
  | .stringLiteral _ _ => "literal-normalization"
  | .computedMember => "literal-index"
  | .conditional | .logical => "dead-expression"
  | _ => "constant-fold"

/-- A string literal is only rewritten where it has an escape. -/
def plainString (kind : ExpressionKind) (span : Span) : Option Bool :=
  match kind with
  | .stringLiteral _ _ =>
      (slice (isCharBoundary source) source span.start span.stop).map fun text =>
        !text.contains 92
  | _ => some false

/-- The part of `visit_expression` before its walk; `true` where it returns first. -/
def Folder.foldExpression (folder : Folder Value σ) (kind : ExpressionKind) (span : Span)
    (parts : List Tree) : Option (Folder Value σ × Bool) :=
  if kind.eligible then
    let next := (folder.eval evaluator (.expression kind span parts)).2
    match (folder.eval evaluator (.expression kind span parts)).1.filter evaluator.isPrimitive with
    | none => some (next, kind == .delete)
    | some value =>
        match (next.code evaluator value).1 with
        | none => some ((next.code evaluator value).2, true)
        | some code =>
            (plainString source kind span).bind fun plain =>
              if plain then some ((next.code evaluator value).2, true)
              else
                ((next.code evaluator value).2.rewrite source span ([40] ++ code ++ [41])
                  (next.foldKind evaluator kind span parts)).map fun done =>
                    (done.1, done.2 || kind == .delete)
  else some (folder, false)

/-- `\x7bvoid 0; ` and a closing brace around the arm. -/
def deadBranch (body : List UInt8) : List UInt8 :=
  [123, 118, 111, 105, 100, 32, 48, 59, 32] ++ body ++ [125]

def armText : Option Tree → Option (List UInt8)
  | none => some []
  | some arm => slice (isCharBoundary source) source arm.span.start arm.span.stop

/-- The part of `visit_if_statement` before its walk. -/
def Folder.foldBranch (folder : Folder Value σ) (span : Span) (test consequent : Tree)
    (alternate : Option Tree) : Option (Folder Value σ × Bool) :=
  let next := (folder.eval evaluator test).2
  match (folder.eval evaluator test).1 with
  | none => some (next, false)
  | some value =>
      let chosen := if evaluator.truthy value then some consequent else alternate
      if consequent.declares || declaresSome alternate then some (next, false)
      else
        (armText source chosen).bind fun body =>
          next.rewrite source span (deadBranch body) "dead-branch"

def nameByte (byte : UInt8) : Bool :=
  (65 ≤ byte && byte ≤ 90) || (97 ≤ byte && byte ≤ 122) || byte == 95 || byte == 36

/-- A key that can stand behind a dot. -/
def isName : List UInt8 → Bool
  | [] => false
  | byte :: rest => nameByte byte && rest.all fun byte => nameByte byte || (48 ≤ byte && byte ≤ 57)

def Tree.isNumeric : Tree → Bool
  | .expression .numericLiteral _ _ => true
  | _ => false

/-- `.name` for `["name"]`, unless the receiver is a number. -/
def normalizedMember (object : Tree) (optional : Bool) : Tree → Option (List UInt8)
  | .expression (.stringLiteral value false) _ _ =>
      if isName value && !object.isNumeric then
        some ((if optional then [63, 46] else [46]) ++ value)
      else none
  | _ => none

/-! ## The walk -/

mutual

def visit : Tree → Folder Value σ → Option (Folder Value σ)
  | .expression kind span parts, folder =>
      (folder.foldExpression evaluator source kind span parts).bind fun next =>
        if next.2 then some next.1 else visitAll parts next.1
  | .computedMember span object property optional, folder =>
      (visit object folder).bind fun next =>
        match normalizedMember object optional property with
        | some replacement =>
            (next.rewrite source ⟨object.span.stop, span.stop⟩ replacement
              "member-normalization").map Prod.fst
        | none => visit property next
  | .objectProperty _ shorthand parts, folder =>
      if shorthand then some folder else visitAll parts folder
  | .statements _ list, folder =>
      (visitStatements list folder.enter).map fun next => next.leave folder
  | .variableDeclaration _ _ declarators, folder => visitDeclarators declarators folder
  | .scope _ _ parts, folder => (visitAll parts folder.bare).map fun next => next.restore folder
  | .ifStatement span test consequent alternate, folder =>
      (folder.foldBranch evaluator source span test consequent alternate).bind fun next =>
        if next.2 then some next.1
        else
          (visit test next.1).bind fun tested =>
            (visit consequent tested).bind fun taken => visitOption alternate taken
  | .expressionStatement _ part, folder => visit part folder
  | .returnStatement _ argument, folder => visitOption argument folder
  | .throwStatement _ argument, folder => visit argument folder
  | .node _ parts, folder => visitAll parts folder

def visitAll : List Tree → Folder Value σ → Option (Folder Value σ)
  | [], folder => some folder
  | tree :: rest, folder => (visit tree folder).bind fun next => visitAll rest next

def visitOption : Option Tree → Folder Value σ → Option (Folder Value σ)
  | none, folder => some folder
  | some tree, folder => visit tree folder

/-- Declarators outside a statement list, as in the head of a loop. -/
def visitDeclarators : List (Declarator Tree) → Folder Value σ → Option (Folder Value σ)
  | [], folder => some folder
  | ⟨_, pattern, init⟩ :: rest, folder =>
      (visit pattern folder).bind fun next =>
        (visitOption init next).bind fun last => visitDeclarators rest last

/-- Declarators of a statement list: only the initializers are visited. -/
def visitBindings (isConst : Bool) :
    List (Declarator Tree) → Folder Value σ → Option (Folder Value σ)
  | [], folder => some folder
  | ⟨id, _, init⟩ :: rest, folder =>
      (visitInit isConst id init folder).bind fun next =>
        visitBindings isConst rest (next.bindPattern id)

def visitInit (isConst : Bool) (id : Option String) :
    Option Tree → Folder Value σ → Option (Folder Value σ)
  | none, folder => some folder
  | some init, folder =>
      (visit init folder).map fun next => next.bindInit evaluator isConst id init

def visitStatements : List Tree → Folder Value σ → Option (Folder Value σ)
  | [], folder => some folder
  | .variableDeclaration _ isConst declarators :: rest, folder =>
      (visitBindings isConst declarators folder).bind fun next => visitStatements rest next
  | statement :: rest, folder =>
      if statement.straight then
        (visit statement (folder.bindFunction evaluator statement)).bind fun next =>
          visitStatements rest next
      else
        (visit statement folder.bare).bind fun next =>
          visitStatements rest (next.restore folder)

end

end

/-! ## `analyze` -/

def Transformation.edit (transformation : Transformation) : Edit UInt8 :=
  ⟨transformation.originalStart, transformation.originalEnd, transformation.replacement⟩

/-- `sort_by_key` on `original_start`, which keeps the order of equals. -/
def sortByStart (rewrites : List Transformation) : List Transformation :=
  rewrites.insertionSort fun a b => a.originalStart ≤ b.originalStart

structure Diagnostic where
  message : String
  labels : List (Nat × Nat)
  deriving DecidableEq, Repr

/-- The first label's place; the end saturates at 32 bits. -/
def Diagnostic.syntaxError (error : Diagnostic) : SyntaxError :=
  match error.labels with
  | [] => ⟨error.message, 0, 0⟩
  | (offset, length) :: _ => ⟨error.message, offset, min (offset + length) (2 ^ 32 - 1)⟩

inductive SourceType where
  | unambiguous
  | script
  | ecmaModule
  deriving DecidableEq, Repr

structure Parsed where
  diagnostics : List Diagnostic
  program : Tree
  statementCount : Nat
  commentCount : Nat
  sourceType : SourceType

/-- The two parsers, and what evaluation is on a parsed source. -/
structure Frontend (Value σ : Type) where
  preflight : List UInt8 → Except String Unit
  parse : SourceType → List UInt8 → Parsed
  evaluator : List UInt8 → Tree → Bool → Evaluator Value σ

structure Request where
  source : List UInt8
  assumeIntrinsics : Bool := false
  deriving DecidableEq, Repr

def malformed : String := "JavaScript preflight found malformed or unsupported syntax"

def preflightRefusal (message : String) (sourceBytes : Nat) : Response :=
  { errorResponse (if message = malformed then "syntax" else "preflight-limit") message with
    sourceBytes := sourceBytes }

section

variable {Value σ : Type} (frontend : Frontend Value σ)

def validateDerived (source : List UInt8) (sourceType : SourceType) : Except String Unit :=
  if maxDerivedBytes < source.length then
    .error "derived output exceeds its byte limit; original source is preserved"
  else
    match frontend.preflight source with
    | .error _ =>
        .error "derived output failed bounded syntax preflight; original source is preserved"
    | .ok _ =>
        if (frontend.parse sourceType source).diagnostics.isEmpty then .ok ()
        else .error "derived output failed syntax validation; original source is preserved"

def validateResponse (response : Response) (original : List UInt8) (sourceType : SourceType) :
    Response :=
  match validateDerived frontend response.derivedSource sourceType with
  | .ok _ => response
  | .error message =>
      { response with
        ok := false
        errorKind := some "derived-validation"
        syntaxErrors := [⟨message, 0, 0⟩]
        derivedSource := original
        transformations := [] }

/-- The collected rewrites of a program, and whether some were left out. -/
def fold (request : Request) (program : Tree) : Option (List Transformation × Bool) :=
  let evaluator := frontend.evaluator request.source program request.assumeIntrinsics
  (visit evaluator request.source program (Folder.new evaluator)).map fun folder =>
    (folder.rewrites, folder.isTruncated evaluator)

/-- The copy loop: what lies between the rewrites, in the order of their starts. -/
def derive (source : List UInt8) (rewrites : List Transformation) : Option (List UInt8) :=
  copy (isCharBoundary source) source (rewrites.map Transformation.edit) 0 []

def Request.respond (request : Request) (parsed : Parsed) (derived : List UInt8)
    (transformations : List Transformation) (truncated : Bool) : Response where
  schema := "reb-deobfuscator-worker-v1"
  ok := (parsed.diagnostics.take 64).isEmpty
  parsed := true
  sourceBytes := request.source.length
  syntaxErrors := (parsed.diagnostics.take 64).map Diagnostic.syntaxError
  evidence := ⟨parsed.statementCount, parsed.commentCount, "unambiguous"⟩
  derivedSource := derived
  transformations := transformations
  transformationsTruncated := truncated
  assumptions := if request.assumeIntrinsics then ["standard-intrinsics"] else []
  errorKind := if (parsed.diagnostics.take 64).isEmpty then none else some "syntax"

def analyze (request : Request) : Option Response :=
  if maxSourceBytes < request.source.length then
    some (errorResponse "source-limit" "source exceeds the deobfuscation byte limit")
  else
    match frontend.preflight request.source with
    | .error message =>
        some { preflightRefusal message request.source.length with
          derivedSource := request.source }
    | .ok _ =>
        let parsed := frontend.parse .unambiguous request.source
        if (parsed.diagnostics.take 64).isEmpty then
          (fold frontend request parsed.program).bind fun folded =>
            let rewrites := sortByStart folded.1
            (derive request.source rewrites).map fun derived =>
              let response := request.respond parsed derived rewrites folded.2
              if rewrites.isEmpty then response
              else validateResponse frontend response request.source parsed.sourceType
        else some (request.respond parsed request.source [] false)

end

end Reb.Deobfuscator
