/-
# Deobfuscator.FolderReceipts -- receipts that replay

In a tree whose parts lie in order inside their parent (`Fits`), a visit adds rewrites inside the
range of the visited node only, and where it descends after an attempt, the attempt added none
(`Attempts`).  So the rewrites of a program never overlap (`visit_inside`), the copy loop goes
forward (`derive_receipts`), and what is reported replays to what is derived.
-/
import Reb.Deobfuscator.Folder

namespace Reb.Deobfuscator

open Reb.Theory.Edits

set_option autoImplicit false

/-! ## Trees with ordered spans -/

/-- The spans of the parts follow one another between two places. -/
def InOrder : Nat → Nat → List Tree → Prop
  | low, high, [] => low ≤ high
  | low, high, part :: rest =>
      low ≤ part.span.start ∧ part.span.start ≤ part.span.stop ∧ InOrder part.span.stop high rest

/-- The nodes that hold a token of their own. -/
def Tree.solid : Tree → Bool
  | .expression _ _ _ | .computedMember _ _ _ _ | .ifStatement _ _ _ _ => true
  | _ => false

inductive Fits (source : List UInt8) : Tree → Prop
  | mk {tree : Tree} (first : isCharBoundary source tree.span.start = true)
      (last : isCharBoundary source tree.span.stop = true)
      (solid : tree.solid = true → tree.span.start < tree.span.stop)
      (order : InOrder tree.span.start tree.span.stop tree.parts)
      (parts : ∀ part ∈ tree.parts, Fits source part) : Fits source tree

theorem Fits.boundary {source : List UInt8} {tree : Tree} (fits : Fits source tree) :
    isCharBoundary source tree.span.start = true ∧ isCharBoundary source tree.span.stop = true := by
  obtain ⟨first, last, -, -, -⟩ := fits
  exact ⟨first, last⟩

/-- A range with something in it, between two characters. -/
structure Placed (source : List UInt8) (span : Span) : Prop where
  forward : span.start < span.stop
  first : isCharBoundary source span.start = true
  last : isCharBoundary source span.stop = true

theorem Fits.placed {source : List UInt8} {tree : Tree} (fits : Fits source tree)
    (solid : tree.solid = true) : Placed source tree.span := by
  obtain ⟨first, last, forward, -, -⟩ := fits
  exact ⟨forward solid, first, last⟩

/-- Parts that fit, one after the other between two places. -/
structure Row (source : List UInt8) (low high : Nat) (parts : List Tree) : Prop where
  order : InOrder low high parts
  fits : ∀ part ∈ parts, Fits source part

theorem Fits.row {source : List UInt8} {tree : Tree} (fits : Fits source tree) :
    Row source tree.span.start tree.span.stop tree.parts := by
  obtain ⟨-, -, -, order, parts⟩ := fits
  exact ⟨order, parts⟩

theorem InOrder.le {low high : Nat} {parts : List Tree} (order : InOrder low high parts) :
    low ≤ high := by
  induction parts generalizing low with
  | nil => exact order
  | cons part rest ih => exact order.1.trans (order.2.1.trans (ih order.2.2))

theorem Row.tail {source : List UInt8} {low high : Nat} {part : Tree} {rest : List Tree}
    (row : Row source low high (part :: rest)) : Row source part.span.stop high rest :=
  ⟨row.order.2.2, fun other member => row.fits other (List.mem_cons_of_mem _ member)⟩

theorem Row.split {source : List UInt8} {low high : Nat} {parts others : List Tree}
    (row : Row source low high (parts ++ others)) :
    ∃ middle, Row source low middle parts ∧ Row source middle high others := by
  induction parts generalizing low with
  | nil => exact ⟨low, ⟨le_rfl, by simp⟩, row⟩
  | cons part rest ih =>
      obtain ⟨middle, first, second⟩ := ih row.tail
      exact ⟨middle, ⟨⟨row.order.1, row.order.2.1, first.order⟩,
        List.forall_mem_cons.2 ⟨row.fits part List.mem_cons_self, first.fits⟩⟩, second⟩

theorem isCharBoundary_le {source : List UInt8} {place : Nat}
    (boundary : isCharBoundary source place = true) : place ≤ source.length := by
  by_contra outside
  have none : source[place]? = none := List.getElem?_eq_none (by omega)
  rw [isCharBoundary, none] at boundary
  simp only [Bool.or_eq_true, beq_iff_eq, Bool.false_eq_true, or_false] at boundary
  omega

/-! ## What a step adds -/

section

variable {Value σ : Type}

/-- The rewrites are those of before. -/
def Kept (folder next : Folder Value σ) : Prop :=
  next.rewrites = folder.rewrites ∧ next.replacementBytes = folder.replacementBytes

theorem Kept.refl (folder : Folder Value σ) : Kept folder folder := ⟨rfl, rfl⟩

theorem Kept.trans {folder next last : Folder Value σ} (first : Kept folder next)
    (second : Kept next last) : Kept folder last :=
  ⟨second.1.trans first.1, second.2.trans first.2⟩

def Bounded (folder : Folder Value σ) : Prop :=
  folder.rewrites.length ≤ maxTransformations ∧
    folder.replacementBytes = (folder.rewrites.map (·.replacement.length)).sum ∧
    folder.replacementBytes ≤ maxReplacementBytes

variable (source : List UInt8)

/-- What was added lies inside a range, and the limits still hold. -/
def Grew (low high : Nat) (folder next : Folder Value σ) : Prop :=
  (∃ added : List Transformation, next.rewrites = folder.rewrites ++ added ∧
    Inside (fun place => isCharBoundary source place = true) low high
      (added.map Transformation.edit)) ∧
  (Bounded folder → Bounded next)

/-- A step that may add, and did not where it answers `false`. -/
def Attempts (low high : Nat) (folder : Folder Value σ)
    (result : Option (Folder Value σ × Bool)) : Prop :=
  ∃ next, result = some next ∧ Grew source low high folder next.1 ∧
    (next.2 = false → Kept folder next.1)

def Visits (low high : Nat) (folder : Folder Value σ)
    (result : Option (Folder Value σ)) : Prop :=
  ∃ next, result = some next ∧ Grew source low high folder next

variable {source} {low high : Nat}

theorem Kept.grew {folder next : Folder Value σ} (kept : Kept folder next) :
    Grew source low high folder next := by
  refine ⟨⟨[], by rw [kept.1, List.append_nil], .nil⟩, fun bounded => ?_⟩
  rw [Bounded, kept.1, kept.2]
  exact bounded

theorem Grew.widen {low' high' : Nat} {folder next : Folder Value σ}
    (grew : Grew source low high folder next) (below : low' ≤ low) (above : high ≤ high') :
    Grew source low' high' folder next := by
  obtain ⟨⟨added, same, inside⟩, bounded⟩ := grew
  exact ⟨⟨added, same, inside.widen below above⟩, bounded⟩

theorem Grew.trans {middle : Nat} {folder next last : Folder Value σ}
    (first : Grew source low middle folder next) (second : Grew source middle high next last)
    (below : low ≤ middle) (above : middle ≤ high) : Grew source low high folder last := by
  obtain ⟨⟨added, same, inside⟩, bounded⟩ := first
  obtain ⟨⟨more, same', inside'⟩, bounded'⟩ := second
  refine ⟨⟨added ++ more, by rw [same', same, List.append_assoc], ?_⟩, bounded' ∘ bounded⟩
  rw [List.map_append]
  exact inside.append inside' le_rfl below above

theorem Grew.between {before folder next after : Folder Value σ}
    (grew : Grew source low high folder next) (first : Kept before folder)
    (last : Kept next after) : Grew source low high before after := by
  obtain ⟨⟨added, same, inside⟩, bounded⟩ := grew
  refine ⟨⟨added, by rw [last.1, same, first.1], inside⟩, fun held => ?_⟩
  rw [Bounded, last.1, last.2]
  rw [Bounded, ← first.1, ← first.2] at held
  exact bounded held

theorem Visits.here {folder next : Folder Value σ} (grew : Grew source low high folder next) :
    Visits source low high folder (some next) := ⟨next, rfl, grew⟩

theorem Visits.widen {low' high' : Nat} {folder : Folder Value σ}
    {result : Option (Folder Value σ)} (visits : Visits source low high folder result)
    (below : low' ≤ low) (above : high ≤ high') : Visits source low' high' folder result := by
  obtain ⟨next, same, grew⟩ := visits
  exact ⟨next, same, grew.widen below above⟩

/-- One range after the other. -/
theorem Visits.bind {middle : Nat} {folder : Folder Value σ} {result : Option (Folder Value σ)}
    {later : Folder Value σ → Option (Folder Value σ)}
    (first : Visits source low middle folder result)
    (second : ∀ next, Visits source middle high next (later next))
    (below : low ≤ middle) (above : middle ≤ high) :
    Visits source low high folder (result.bind later) := by
  obtain ⟨next, rfl, grew⟩ := first
  obtain ⟨last, same, more⟩ := second next
  exact ⟨last, same, grew.trans more below above⟩

theorem Visits.map {folder : Folder Value σ} {result : Option (Folder Value σ)}
    {finish : Folder Value σ → Folder Value σ} (visits : Visits source low high folder result)
    (kept : ∀ next, Kept next (finish next)) :
    Visits source low high folder (result.map finish) := by
  obtain ⟨next, rfl, grew⟩ := visits
  exact ⟨_, rfl, grew.between (.refl _) (kept next)⟩

theorem Kept.visits {folder next : Folder Value σ} {result : Option (Folder Value σ)}
    (kept : Kept folder next) (visits : Visits source low high next result) :
    Visits source low high folder result := by
  obtain ⟨last, same, grew⟩ := visits
  exact ⟨last, same, grew.between kept (.refl _)⟩

/-- Where the attempt did not succeed the walk begins with what was there before. -/
theorem Attempts.orElse {folder : Folder Value σ} {result : Option (Folder Value σ × Bool)}
    {later : Folder Value σ → Option (Folder Value σ)}
    (attempts : Attempts source low high folder result)
    (walk : ∀ next, Visits source low high next (later next)) :
    Visits source low high folder
      (result.bind fun next => if next.2 then some next.1 else later next.1) := by
  obtain ⟨⟨next, done⟩, rfl, grew, kept⟩ := attempts
  rw [Option.bind_some]
  cases done with
  | true => exact .here grew
  | false => exact (kept rfl).visits (walk next)

theorem Attempts.of_kept {folder next : Folder Value σ} {done : Bool} (kept : Kept folder next) :
    Attempts source low high folder (some (next, done)) :=
  ⟨_, rfl, kept.grew, fun _ => kept⟩

theorem Kept.attempts {folder next : Folder Value σ} {result : Option (Folder Value σ × Bool)}
    (kept : Kept folder next) (attempts : Attempts source low high next result) :
    Attempts source low high folder result := by
  obtain ⟨last, same, grew, none⟩ := attempts
  exact ⟨last, same, grew.between kept (.refl _), fun failed => kept.trans (none failed)⟩

end

/-! ## Evaluation and bindings add nothing -/

section

variable {Value σ : Type} (evaluator : Evaluator Value σ) (folder : Folder Value σ)

theorem eval_kept (tree : Tree) : Kept folder (folder.eval evaluator tree).2 := ⟨rfl, rfl⟩

theorem code_kept (value : Value) : Kept folder (folder.code evaluator value).2 := ⟨rfl, rfl⟩

theorem reserve_kept (bytes : Nat) : Kept folder (folder.reserve evaluator bytes).2 := ⟨rfl, rfl⟩

theorem bare_kept : Kept folder folder.bare := ⟨rfl, rfl⟩

theorem restore_kept (outer : Folder Value σ) : Kept folder (folder.restore outer) := ⟨rfl, rfl⟩

theorem enter_kept : Kept folder folder.enter := ⟨rfl, rfl⟩

theorem leave_kept (outer : Folder Value σ) : Kept folder (folder.leave outer) := ⟨rfl, rfl⟩

theorem bindPattern_kept (id : Option String) : Kept folder (folder.bindPattern id) := by
  cases id <;> exact ⟨rfl, rfl⟩

theorem bindProxy_kept (name : String) (proxy : Option Proxy) :
    Kept folder (folder.bindProxy name proxy) := by
  cases proxy with
  | none => exact .refl folder
  | some proxy =>
      rw [Folder.bindProxy]
      split <;> exact ⟨rfl, rfl⟩

theorem bindConstant_kept (name : String) (init : Tree) :
    Kept folder (folder.bindConstant evaluator name init) := by
  rw [Folder.bindConstant]
  split
  · split <;> exact ⟨rfl, rfl⟩
  · exact eval_kept evaluator folder init

theorem elements_kept (elements : List Tree) :
    Kept folder (folder.elements evaluator elements).2 := by
  induction elements generalizing folder with
  | nil => exact .refl folder
  | cons element rest ih =>
      rw [Folder.elements]
      split
      · split
        · exact (eval_kept evaluator folder element).trans (ih _)
        · exact eval_kept evaluator folder element
      · exact .refl folder

theorem codeBytes_kept (size : Nat) (values : List Value) :
    Kept folder (folder.codeBytes evaluator size values).2 := by
  induction values generalizing folder size with
  | nil => exact .refl folder
  | cons value rest ih =>
      rw [Folder.codeBytes]
      split
      · exact (code_kept evaluator folder value).trans (ih _ _)
      · exact code_kept evaluator folder value

theorem fillTable_kept (name : String) (elements : List Tree) :
    Kept folder (folder.fillTable evaluator name elements) := by
  have listed := elements_kept evaluator folder elements
  have sized (values : List Value) := listed.trans (codeBytes_kept evaluator _ 0 values)
  rw [Folder.fillTable]
  split
  case h_1 values _ =>
    split
    · dsimp only
      split
      · split <;> exact sized values
      · exact sized values
    · exact listed
  case h_2 => exact listed

theorem bindTable_kept (name : String) (init : Tree) :
    Kept folder (folder.bindTable evaluator name init) := by
  unfold Folder.bindTable
  split
  · split
    · dsimp only
      split
      · exact (reserve_kept evaluator folder _).trans (fillTable_kept evaluator _ name _)
      · exact reserve_kept evaluator folder _
    · exact .refl folder
  · exact .refl folder

theorem bindInit_kept (isConst : Bool) (id : Option String) (init : Tree) :
    Kept folder (folder.bindInit evaluator isConst id init) := by
  unfold Folder.bindInit
  split
  case h_1 name =>
    exact (bindConstant_kept evaluator folder name init).trans
      ((bindProxy_kept _ name _).trans (bindTable_kept evaluator _ name init))
  case h_2 => exact .refl folder

theorem bindFunction_kept (statement : Tree) :
    Kept folder (folder.bindFunction evaluator statement) := by
  unfold Folder.bindFunction
  split
  · split
    · exact bindProxy_kept folder _ _
    · exact .refl folder
  · exact .refl folder

end

/-! ## One rewrite -/

section

variable {Value σ : Type} (evaluator : Evaluator Value σ) {source : List UInt8}

theorem rewrite_attempts (folder : Folder Value σ) (span : Span) (replacement : List UInt8)
    (kind : String) (placed : Placed source span) :
    Attempts source span.start span.stop folder
      (folder.rewrite source span replacement kind) := by
  rw [Folder.rewrite]
  split
  case isTrue => exact .of_kept ⟨rfl, rfl⟩
  case isFalse room =>
    obtain ⟨some, first, last⟩ := placed
    rw [slice_eq_some some.le (isCharBoundary_le last) first last, Option.map_some]
    split
    · exact .of_kept (.refl folder)
    · refine ⟨_, rfl, ⟨⟨[_], rfl, ?_⟩, fun bounded => ?_⟩, fun failed => by cases failed⟩
      · exact .single le_rfl some le_rfl first last
      · obtain ⟨count, total, -⟩ := bounded
        refine ⟨?_, ?_, ?_⟩
        · simp only [List.length_append, List.length_singleton]
          omega
        · simp only [List.map_append, List.sum_append, total, List.map_cons, List.map_nil,
            List.sum_singleton]
        · dsimp only
          omega

/-- An attempt that is not followed by a walk in any case. -/
theorem Attempts.map_or {low high : Nat} {folder : Folder Value σ}
    {result : Option (Folder Value σ × Bool)} (attempts : Attempts source low high folder result)
    (stop : Bool) :
    Attempts source low high folder (result.map fun done => (done.1, done.2 || stop)) := by
  obtain ⟨next, rfl, grew, kept⟩ := attempts
  exact ⟨_, rfl, grew, fun failed => kept (Bool.or_eq_false_iff.1 failed).1⟩

theorem plainString_some {span : Span} (kind : ExpressionKind) (placed : Placed source span) :
    ∃ plain, plainString source kind span = Option.some plain := by
  unfold plainString
  split
  · exact ⟨_, by
      rw [slice_eq_some placed.forward.le (isCharBoundary_le placed.last) placed.first placed.last]
      rfl⟩
  · exact ⟨_, rfl⟩

theorem foldExpression_attempts (folder : Folder Value σ) {kind : ExpressionKind} {span : Span}
    {parts : List Tree} (placed : Placed source span) :
    Attempts source span.start span.stop folder
      (folder.foldExpression evaluator source kind span parts) := by
  rw [Folder.foldExpression]
  split
  case isFalse => exact .of_kept (.refl folder)
  case isTrue =>
    have next := eval_kept evaluator folder (.expression kind span parts)
    dsimp only
    split
    case h_1 => exact .of_kept next
    case h_2 value _ =>
      have coded := next.trans (code_kept evaluator _ value)
      split
      case h_1 => exact .of_kept coded
      case h_2 code _ =>
        obtain ⟨plain, same⟩ := plainString_some kind placed
        rw [same, Option.bind_some]
        split
        · exact .of_kept coded
        · exact coded.attempts ((rewrite_attempts _ _ _ _ placed).map_or _)

theorem armText_some {arm : Option Tree}
    (fits : ∀ node ∈ arm, Fits source node ∧ node.span.start ≤ node.span.stop) :
    ∃ body, armText source arm = some body := by
  cases arm with
  | none => exact ⟨[], rfl⟩
  | some node =>
      obtain ⟨⟨first, last, -, -, -⟩, forward⟩ := fits node rfl
      exact ⟨_, slice_eq_some forward (isCharBoundary_le last) first last⟩

theorem foldBranch_attempts (folder : Folder Value σ) {span : Span} (test : Tree)
    {consequent : Tree} {alternate : Option Tree} (placed : Placed source span)
    (taken : Fits source consequent ∧ consequent.span.start ≤ consequent.span.stop)
    (other : ∀ node ∈ alternate, Fits source node ∧ node.span.start ≤ node.span.stop) :
    Attempts source span.start span.stop folder
      (folder.foldBranch evaluator source span test consequent alternate) := by
  have next := eval_kept evaluator folder test
  rw [Folder.foldBranch]
  dsimp only
  split
  case h_1 => exact .of_kept next
  case h_2 value _ =>
    split
    case isTrue => exact .of_kept next
    case isFalse =>
      have chosen : ∃ body,
          armText source (if evaluator.truthy value then Option.some consequent else alternate)
            = Option.some body := by
        refine armText_some ?_
        split
        · rintro node ⟨⟩
          exact taken
        · exact other
      obtain ⟨body, same⟩ := chosen
      rw [same, Option.bind_some]
      exact next.attempts (rewrite_attempts _ _ _ _ placed)

/-- A key that normalizes is an expression. -/
theorem solid_of_normalized {object property : Tree} {optional : Bool}
    {replacement : List UInt8}
    (normalized : normalizedMember object optional property = some replacement) :
    property.solid = true := by
  unfold normalizedMember at normalized
  split at normalized
  · rfl
  · cases normalized

end

/-! ## The walk -/

section

variable {Value σ : Type} (evaluator : Evaluator Value σ) {source : List UInt8}

mutual

/-- A visit panics nowhere, and rewrites inside the visited range only. -/
theorem visit_inside : ∀ (tree : Tree) (folder : Folder Value σ), Fits source tree →
    Visits source tree.span.start tree.span.stop folder (visit evaluator source tree folder)
  | .expression kind span trees, folder, fits => by
      rw [visit]
      exact (foldExpression_attempts evaluator folder (fits.placed rfl)).orElse fun next =>
        visitAll_inside trees next fits.row
  | .computedMember span object property optional, folder, fits => by
      have objectFits : Fits source object := fits.row.fits object List.mem_cons_self
      have propertyFits : Fits source property := fits.row.tail.fits property List.mem_cons_self
      obtain ⟨below, forward, between, onward, above⟩ := fits.row.order
      rw [visit]
      refine ((visit_inside object folder objectFits).widen below le_rfl).bind (fun next => ?_)
        (below.trans forward) (between.trans (onward.trans above))
      split
      case h_1 replacement normalized =>
        have some := (propertyFits.placed (solid_of_normalized normalized)).forward
        obtain ⟨after, same, grew, -⟩ := rewrite_attempts next
          ⟨object.span.stop, span.stop⟩ replacement "member-normalization"
          ⟨between.trans_lt (some.trans_le above), objectFits.boundary.2, fits.boundary.2⟩
        rw [same]
        exact .here grew
      case h_2 => exact (visit_inside property next propertyFits).widen between above
  | .objectProperty span shorthand trees, folder, fits => by
      rw [visit]
      split
      · exact .here (Kept.refl folder).grew
      · exact visitAll_inside trees folder fits.row
  | .statements span list, folder, fits => by
      rw [visit]
      exact ((enter_kept folder).visits
        (visitStatements_inside list _ fits.row)).map
        fun next => leave_kept next folder
  | .variableDeclaration span isConst declarators, folder, fits => by
      rw [visit]
      exact visitDeclarators_inside declarators folder fits.row
  | .scope kind span trees, folder, fits => by
      rw [visit]
      exact ((bare_kept folder).visits (visitAll_inside trees _ fits.row)).map
        fun next => restore_kept next folder
  | .ifStatement span test consequent alternate, folder, fits => by
      have rest := fits.row.tail.tail
      have testFits : Fits source test := fits.row.fits test List.mem_cons_self
      have takenFits : Fits source consequent := fits.row.tail.fits consequent List.mem_cons_self
      obtain ⟨below, forward, between, onward, -⟩ := fits.row.order
      have attempt := foldBranch_attempts evaluator folder test (fits.placed rfl)
        ⟨takenFits, onward⟩ fun node member => ⟨rest.fits node (Option.mem_toList.2 member), by
          cases member
          exact rest.order.2.1⟩
      have walk (next : Folder Value σ) : Visits source span.start span.stop next
          ((visit evaluator source test next).bind fun tested =>
            (visit evaluator source consequent tested).bind fun taken =>
              visitOption evaluator source alternate taken) :=
        ((visit_inside test next testFits).widen below le_rfl).bind
          (fun tested => ((visit_inside consequent tested takenFits).widen between le_rfl).bind
            (fun taken => visitOption_inside alternate taken rest)
            (between.trans onward) rest.order.le)
          (below.trans forward) (between.trans (onward.trans rest.order.le))
      rw [visit]
      exact attempt.orElse walk
  | .expressionStatement span part, folder, fits => by
      rw [visit]
      exact (visit_inside part folder (fits.row.fits part List.mem_cons_self)).widen
        fits.row.order.1 fits.row.order.2.2
  | .returnStatement span argument, folder, fits => by
      rw [visit]
      exact visitOption_inside argument folder fits.row
  | .throwStatement span argument, folder, fits => by
      rw [visit]
      exact (visit_inside argument folder (fits.row.fits argument List.mem_cons_self)).widen
        fits.row.order.1 fits.row.order.2.2
  | .node span trees, folder, fits => by
      rw [visit]
      exact visitAll_inside trees folder fits.row

theorem visitAll_inside : ∀ (trees : List Tree) (folder : Folder Value σ) {low high : Nat},
    Row source low high trees →
    Visits source low high folder (visitAll evaluator source trees folder)
  | [], folder, _, _, _ => by
      rw [visitAll]
      exact .here (Kept.refl folder).grew
  | tree :: rest, folder, _, _, row => by
      rw [visitAll]
      exact ((visit_inside tree folder (row.fits tree List.mem_cons_self)).widen row.order.1
          le_rfl).bind (fun next => visitAll_inside rest next row.tail)
        (row.order.1.trans row.order.2.1) row.tail.order.le

theorem visitOption_inside : ∀ (tree : Option Tree) (folder : Folder Value σ) {low high : Nat},
    Row source low high tree.toList →
    Visits source low high folder (visitOption evaluator source tree folder)
  | none, folder, _, _, _ => by
      rw [visitOption]
      exact .here (Kept.refl folder).grew
  | some tree, folder, _, _, row => by
      rw [visitOption]
      exact (visit_inside tree folder (row.fits tree (by simp))).widen row.order.1 row.order.2.2

theorem visitDeclarators_inside : ∀ (declarators : List (Declarator Tree))
    (folder : Folder Value σ) {low high : Nat},
    Row source low high (declarators.flatMap Declarator.parts) →
    Visits source low high folder (visitDeclarators evaluator source declarators folder)
  | [], folder, _, _, _ => by
      rw [visitDeclarators]
      exact .here (Kept.refl folder).grew
  | ⟨_, pattern, init⟩ :: rest, folder, _, _, row => by
      rw [List.flatMap_cons] at row
      obtain ⟨middle, here, later⟩ := row.split
      obtain ⟨below, forward, inits⟩ := here.order
      rw [visitDeclarators]
      exact ((visit_inside pattern folder (here.fits pattern List.mem_cons_self)).widen below
          le_rfl).bind
        (fun next => (visitOption_inside init next here.tail).bind
          (fun last => visitDeclarators_inside rest last later) inits.le later.order.le)
        (below.trans forward) (inits.le.trans later.order.le)

theorem visitBindings_inside (isConst : Bool) : ∀ (declarators : List (Declarator Tree))
    (folder : Folder Value σ) {low high : Nat},
    Row source low high (declarators.flatMap Declarator.parts) →
    Visits source low high folder (visitBindings evaluator source isConst declarators folder)
  | [], folder, _, _, _ => by
      rw [visitBindings]
      exact .here (Kept.refl folder).grew
  | ⟨id, pattern, init⟩ :: rest, folder, _, _, row => by
      rw [List.flatMap_cons] at row
      obtain ⟨middle, here, later⟩ := row.split
      obtain ⟨below, forward, inits⟩ := here.order
      rw [visitBindings]
      exact ((visitInit_inside isConst id init folder here.tail).widen (below.trans forward)
          le_rfl).bind
        (fun next => (bindPattern_kept next id).visits
          (visitBindings_inside isConst rest _ later))
        ((below.trans forward).trans inits.le) later.order.le

theorem visitInit_inside (isConst : Bool) (id : Option String) : ∀ (init : Option Tree)
    (folder : Folder Value σ) {low high : Nat}, Row source low high init.toList →
    Visits source low high folder (visitInit evaluator source isConst id init folder)
  | none, folder, _, _, _ => by
      rw [visitInit]
      exact .here (Kept.refl folder).grew
  | some init, folder, _, _, row => by
      rw [visitInit]
      exact ((visit_inside init folder (row.fits init (by simp))).widen row.order.1
        row.order.2.2).map fun next => bindInit_kept evaluator next isConst id init

theorem visitStatements_inside : ∀ (list : List Tree) (folder : Folder Value σ)
    {low high : Nat}, Row source low high list →
    Visits source low high folder (visitStatements evaluator source list folder)
  | [], folder, _, _, _ => by
      rw [visitStatements]
      exact .here (Kept.refl folder).grew
  | statement :: rest, folder, low, high, row => by
      have fits := row.fits statement List.mem_cons_self
      have within : low ≤ statement.span.stop := row.order.1.trans row.order.2.1
      have here (next : Folder Value σ) : Visits source low statement.span.stop next
          (visit evaluator source statement next) :=
        (visit_inside statement next fits).widen row.order.1 le_rfl
      have later (next : Folder Value σ) : Visits source statement.span.stop high next
          (visitStatements evaluator source rest next) := visitStatements_inside rest next row.tail
      cases statement with
      | variableDeclaration span isConst declarators =>
          rw [visitStatements]
          exact ((visitBindings_inside isConst declarators folder fits.row).widen row.order.1
            le_rfl).bind later within row.tail.order.le
      | _ =>
          rw [visitStatements]
          · split
            · exact ((bindFunction_kept evaluator folder _).visits (here _)).bind later within
                row.tail.order.le
            · exact ((bare_kept folder).visits (here _)).bind
                (fun next => (restore_kept next folder).visits (later _)) within row.tail.order.le
          · rintro _ _ _ ⟨⟩

end

end

/-! ## Receipts -/

structure Receipts (source : List UInt8) (rewrites : List Transformation) : Prop where
  ranges : ∀ rewrite ∈ rewrites,
    rewrite.originalStart < rewrite.originalEnd ∧ rewrite.originalEnd ≤ source.length
  boundaries : ∀ rewrite ∈ rewrites, isCharBoundary source rewrite.originalStart = true ∧
    isCharBoundary source rewrite.originalEnd = true
  disjoint : rewrites.Pairwise fun a b =>
    a.originalEnd ≤ b.originalStart ∨ b.originalEnd ≤ a.originalStart
  count : rewrites.length ≤ maxTransformations
  bytes : (rewrites.map (·.replacement.length)).sum ≤ maxReplacementBytes

section

variable {source : List UInt8} {rewrites : List Transformation}

theorem Receipts.nil : Receipts source [] :=
  ⟨by simp, by simp, .nil, Nat.zero_le _, Nat.zero_le _⟩

theorem Receipts.of_inside
    (inside : Inside (fun place => isCharBoundary source place = true) 0 source.length
      (rewrites.map Transformation.edit))
    (count : rewrites.length ≤ maxTransformations)
    (bytes : (rewrites.map (·.replacement.length)).sum ≤ maxReplacementBytes) :
    Receipts source rewrites where
  ranges _ member := (inside.range _ (List.mem_map_of_mem member)).2
  boundaries _ member := inside.ends _ (List.mem_map_of_mem member)
  disjoint := List.pairwise_map.1 inside.apart
  count := count
  bytes := bytes

theorem Receipts.inside (receipts : Receipts source rewrites) :
    Inside (fun place => isCharBoundary source place = true) 0 source.length
      (rewrites.map Transformation.edit) where
  range := List.forall_mem_map.2 fun rewrite member =>
    ⟨Nat.zero_le _, receipts.ranges rewrite member⟩
  ends := List.forall_mem_map.2 receipts.boundaries
  apart := List.pairwise_map.2 receipts.disjoint

theorem sortByStart_perm (rewrites : List Transformation) :
    (sortByStart rewrites).Perm rewrites := List.perm_insertionSort _ _

theorem Receipts.sorted (receipts : Receipts source rewrites) :
    Receipts source (sortByStart rewrites) := by
  have same := sortByStart_perm rewrites
  refine .of_inside (receipts.inside.perm (same.map _)) ?_ ?_
  · rw [same.length_eq]
    exact receipts.count
  · rw [(same.map _).sum_eq]
    exact receipts.bytes

/-- Sorted by their starts, each ends before the next begins. -/
theorem Receipts.chain (receipts : Receipts source rewrites) :
    (sortByStart rewrites).Pairwise fun a b => a.originalEnd ≤ b.originalStart := by
  have ordered : (sortByStart rewrites).Pairwise fun a b => a.originalStart ≤ b.originalStart :=
    List.pairwise_insertionSort _ _
  exact List.pairwise_map.1 (receipts.sorted.inside.chain (List.pairwise_map.2 ordered))

theorem derive_receipts (receipts : Receipts source rewrites) :
    derive source (sortByStart rewrites) =
      some (replay source ((sortByStart rewrites).map Transformation.edit)) := by
  have whole : isCharBoundary source source.length = true := by simp [isCharBoundary]
  rw [derive, copy_eq_replay whole _ [] rfl (List.pairwise_map.2 receipts.chain)
    receipts.sorted.inside (Nat.zero_le _), List.nil_append, List.drop_zero]

end

section

variable {Value σ : Type} (frontend : Frontend Value σ)

theorem fold_receipts (request : Request) {program : Tree}
    (fits : Fits request.source program) :
    ∃ rewrites truncated, fold frontend request program = some (rewrites, truncated) ∧
      Receipts request.source rewrites := by
  obtain ⟨folder, same, ⟨added, grown, inside⟩, bounded⟩ :=
    visit_inside (frontend.evaluator request.source program request.assumeIntrinsics) program
      (Folder.new _) fits
  obtain ⟨count, total, bytes⟩ := bounded ⟨Nat.zero_le _, rfl, Nat.zero_le _⟩
  refine ⟨folder.rewrites, _, by rw [fold, same]; rfl, .of_inside ?_ count (total ▸ bytes)⟩
  rw [grown, show (Folder.new _ : Folder Value σ).rewrites = [] from rfl, List.nil_append]
  exact inside.widen (Nat.zero_le _) (isCharBoundary_le fits.boundary.2)

/-- Either the response is kept, or the original is given back without receipts. -/
theorem validateResponse_receipts {source : List UInt8} {response : Response}
    (sourceType : SourceType) (receipts : Receipts source response.transformations)
    (chain : response.transformations.Pairwise fun a b => a.originalEnd ≤ b.originalStart)
    (replays : replay source (response.transformations.map Transformation.edit)
      = response.derivedSource) :
    let validated := validateResponse frontend response source sourceType
    Receipts source validated.transformations ∧
      validated.transformations.Pairwise (fun a b => a.originalEnd ≤ b.originalStart) ∧
      replay source (validated.transformations.map Transformation.edit)
        = validated.derivedSource := by
  intro validated
  dsimp only [validated]
  rw [validateResponse]
  split
  · exact ⟨receipts, chain, replays⟩
  · exact ⟨.nil, .nil, rfl⟩

/-- The rewrites of a well formed program do not overlap and are copied without a panic; whatever
`analyze` reports replays to the text that it derives. -/
theorem analyze_receipts (request : Request) :
    (∀ program, Fits request.source program → ∃ rewrites truncated derived,
      fold frontend request program = some (rewrites, truncated) ∧
      Receipts request.source rewrites ∧
      derive request.source (sortByStart rewrites) = some derived ∧
      replay request.source ((sortByStart rewrites).map Transformation.edit) = derived) ∧
    (request.source.length ≤ maxSourceBytes →
      ((frontend.parse .unambiguous request.source).diagnostics = [] →
        Fits request.source (frontend.parse .unambiguous request.source).program) →
      ∃ response, analyze frontend request = some response ∧
        Receipts request.source response.transformations ∧
        response.transformations.Pairwise (fun a b => a.originalEnd ≤ b.originalStart) ∧
        replay request.source (response.transformations.map Transformation.edit)
          = response.derivedSource) := by
  refine ⟨fun program fits => ?_, fun accepted parsed => ?_⟩
  · obtain ⟨rewrites, truncated, same, receipts⟩ := fold_receipts frontend request fits
    exact ⟨rewrites, truncated, _, same, receipts, derive_receipts receipts, rfl⟩
  · rw [analyze, if_neg (not_lt.2 accepted)]
    cases frontend.preflight request.source with
    | error message => exact ⟨_, rfl, .nil, .nil, rfl⟩
    | ok =>
        dsimp only
        split
        case isFalse => exact ⟨_, rfl, .nil, .nil, rfl⟩
        case isTrue none =>
          have clean : (frontend.parse .unambiguous request.source).diagnostics = [] := by
            rw [List.isEmpty_iff, List.take_eq_nil_iff] at none
            exact none.resolve_left (by decide)
          obtain ⟨rewrites, truncated, same, receipts⟩ :=
            fold_receipts frontend request (parsed clean)
          rw [same, Option.bind_some, derive_receipts receipts, Option.map_some]
          refine ⟨_, rfl, ?_⟩
          split
          · exact ⟨receipts.sorted, receipts.chain, rfl⟩
          · exact validateResponse_receipts frontend _ receipts.sorted receipts.chain rfl

end

/-! `f(1+2)["k"];` becomes `f((3)).k;`. -/

def sampleSource : List UInt8 := [102, 40, 49, 43, 50, 41, 91, 34, 107, 34, 93, 59]

def sampleCall : Tree :=
  .expression .call ⟨0, 6⟩
    [.expression (.identifier "f") ⟨0, 1⟩ [],
      .expression .other ⟨2, 5⟩
        [.expression .numericLiteral ⟨2, 3⟩ [], .expression .numericLiteral ⟨4, 5⟩ []]]

def sampleKey : Tree := .expression (.stringLiteral [107] false) ⟨7, 10⟩ []

def sampleProgram : Tree :=
  .node ⟨0, 12⟩ [.statements ⟨0, 12⟩ [.expressionStatement ⟨0, 12⟩
    (.expression .computedMember ⟨0, 11⟩ [.computedMember ⟨0, 11⟩ sampleCall sampleKey false])]]

/-- The literals and their sum have the code of a value. -/
def sampleEvaluator : Evaluator (List UInt8) Unit where
  begin := ()
  eval tree context :=
    (if tree.span = ⟨2, 5⟩ then some [51]
      else if tree.span = ⟨2, 3⟩ then some [49]
      else if tree.span = ⟨4, 5⟩ then some [50]
      else if tree.span = ⟨7, 10⟩ then some [34, 107, 34]
      else none, context)
  isPrimitive _ := true
  truthy value := value != [48]
  code value state := (some value, state)
  reserve _ state := (true, state)
  exhausted _ := false
  valueBytes := 24
  assumeIntrinsics := false
  intrinsicCallShape _ := false
  proxyExpression _ := none
  proxyFunction _ := none
  safe _ _ := false
  proxySafe _ := false

def sampleFrontend : Frontend (List UInt8) Unit where
  preflight _ := .ok ()
  parse _ _ := ⟨[], sampleProgram, 1, 0, .script⟩
  evaluator _ _ _ := sampleEvaluator

theorem sampleProgram_fits : Fits sampleSource sampleProgram := by
  repeat' first
    | refine List.forall_mem_cons.2 ⟨?_, ?_⟩
    | exact List.forall_mem_nil _
    | refine .mk rfl rfl (by decide)
        (by simp [sampleProgram, sampleCall, sampleKey, InOrder, Tree.parts, Tree.span]) ?_

theorem analyze_receipts_sample :
    Receipts sampleSource [⟨"constant-fold", 2, 5, [40, 51, 41]⟩,
      ⟨"member-normalization", 6, 11, [46, 107]⟩] ∧
    replay sampleSource [⟨2, 5, [40, 51, 41]⟩, ⟨6, 11, [46, 107]⟩]
      = [102, 40, 40, 51, 41, 41, 46, 107, 59] := by
  obtain ⟨response, same, receipts, -, replays⟩ :=
    (analyze_receipts sampleFrontend ⟨sampleSource, false⟩).2 (by decide)
      fun _ => sampleProgram_fits
  have answer : (analyze sampleFrontend ⟨sampleSource, false⟩).map
      (fun response => (response.transformations, response.derivedSource)) =
      some ([⟨"constant-fold", 2, 5, [40, 51, 41]⟩,
        ⟨"member-normalization", 6, 11, [46, 107]⟩],
        [102, 40, 40, 51, 41, 41, 46, 107, 59]) := by decide
  rw [same, Option.map_some, Option.some_inj, Prod.mk.injEq] at answer
  rw [answer.1] at receipts replays
  exact ⟨receipts, replays.trans answer.2⟩

end Reb.Deobfuscator
