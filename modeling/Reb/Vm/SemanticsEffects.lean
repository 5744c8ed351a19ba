/-
# Vm.SemanticsEffects -- the differences of a step, listed twice

`effects` lists what a step changed; `selectedStep` lays both snapshots out as cells by
location and marks the changed ones.  A location is kept as a name space and an index;
`Location.text` is the key the source writes, and `locationOrder` reads keys back.
-/
import Reb.Theory.JsValue
import Reb.Vm.SemanticsTrace

namespace Reb.Vm.Semantics

open Reb.Theory
open Reb.Theory.Js

set_option autoImplicit false

/-! ## Locations -/

inductive Location where
  | pc
  | halted
  | registers (i : Nat)
  | stack (i : Nat)
  | memory (address : Nat)
  deriving DecidableEq, Repr

def digits (n : Nat) : Text := (Decimal.decimal n).map UInt8.toUInt16

def Location.text : Location → Text
  | .pc => units "pc"
  | .halted => units "halted"
  | .registers i => units "registers" ++ 58 :: digits i
  | .stack i => units "stack" ++ 58 :: digits i
  | .memory address => units "memory" ++ 58 :: digits address

def namespaces : List Text := ["pc", "halted", "registers", "stack", "memory"].map units

/-- The first two parts of a key split at its colons. -/
def split (key : Text) : Text × Option Text :=
  match key.dropWhile (· != 58) with
  | [] => (key, none)
  | _ :: rest => (key.takeWhile (· != 58), some (rest.takeWhile (· != 58)))

def indexOf (space : Text) : Int := (namespaces.idxOf? space).elim (-1) Int.ofNat

/-- `Number` of a text of digits. -/
def number (digits : Text) : Int := Decimal.positional 0 (digits.map UInt16.toUInt8)

def locationOrder (a b : Text) : Int :=
  let (as, ai) := split a
  let (bs, bi) := split b
  let spaces := indexOf as - indexOf bs
  if spaces ≠ 0 then spaces else ai.elim 0 number - bi.elim 0 number

/-! ## Listed changes -/

inductive Datum where
  | null
  | number (value : Int)
  | boolean (value : Bool)
  deriving DecidableEq, Repr

def Cell.datum : Cell → Datum
  | none => .null
  | some value => .number value

structure Change where
  location : Location
  before : Datum
  after : Datum
  before_present : Option Bool := none
  after_present : Option Bool := none
  deriving DecidableEq, Repr

/-- The loop over the indices of two arrays. -/
def arrayChanges (location : Nat → Location) (before after : List Cell) : List Change :=
  (List.range (max before.length after.length)).filterMap fun i =>
    if before[i]? ≠ after[i]? then
      some { location := location i
             before := (before[i]?.map Cell.datum).getD .null
             after := (after[i]?.map Cell.datum).getD .null
             before_present := some (i < before.length)
             after_present := some (i < after.length) }
    else none

/-- The loop over the addresses of two memories. -/
def memoryChanges (before after : List (Nat × Cell)) : List Change :=
  let a := JsMap.ofEntries before
  let b := JsMap.ofEntries after
  ((JsMap.unique (a.map Prod.fst ++ b.map Prod.fst)).insertionSort (· ≤ ·)).filterMap fun i =>
    if (JsMap.get a i).isSome ≠ (JsMap.get b i).isSome ∨ JsMap.get a i ≠ JsMap.get b i then
      some { location := .memory i
             before := ((JsMap.get a i).map Cell.datum).getD .null
             after := ((JsMap.get b i).map Cell.datum).getD .null
             before_present := some (JsMap.get a i).isSome
             after_present := some (JsMap.get b i).isSome }
    else none

def effects (step : Step) : List Change :=
  (if step.before.pc ≠ step.after.pc then
    [{ location := .pc, before := .number step.before.pc, after := .number step.after.pc }] else [])
  ++ (if step.before.halted ≠ step.after.halted then
    [{ location := .halted, before := .boolean step.before.halted
       after := .boolean step.after.halted }] else [])
  ++ arrayChanges .registers step.before.registers step.after.registers
  ++ arrayChanges .stack step.before.stack step.after.stack
  ++ memoryChanges step.before.memory step.after.memory

/-! ## Marked cells -/

structure Shown where
  present : Bool
  value : Datum
  deriving DecidableEq, Repr

/-- What a snapshot has at its locations, in the order it is written in. -/
def snapshotEntries (snapshot : State) : List (Location × Shown) :=
  [(.pc, ⟨true, .number snapshot.pc⟩), (.halted, ⟨true, .boolean snapshot.halted⟩)]
  ++ snapshot.registers.mapIdx (fun i value => (.registers i, ⟨true, Cell.datum value⟩))
  ++ snapshot.stack.mapIdx (fun i value => (.stack i, ⟨true, Cell.datum value⟩))
  ++ snapshot.memory.map fun row => (.memory row.1, ⟨true, Cell.datum row.2⟩)

def snapshotCells (snapshot : State) : List (Location × Shown) :=
  JsMap.ofEntries (snapshotEntries snapshot)

def cellAt (cells : List (Location × Shown)) (key : Location) : Shown :=
  (JsMap.get cells key).getD ⟨false, .null⟩

def changed (a b : Shown) : Bool := a.present != b.present || a.value != b.value

def observationStatus (a b : Shown) : String :=
  if a.present ≠ b.present then "different"
  else if !a.present ∨ a.value = .null ∨ b.value = .null then "unknown"
  else if a.value = b.value then "observed_equal" else "different"

structure StepCell where
  location : Location
  before : Shown
  after : Shown
  changed : Bool
  status : String
  deriving DecidableEq, Repr

/-- The cells of `selectedStep`. -/
def stepCells (retained : Step) : List StepCell :=
  let before := snapshotCells retained.before
  let after := snapshotCells retained.after
  ((JsMap.unique (before.map Prod.fst ++ after.map Prod.fst)).insertionSort
    fun a b => locationOrder a.text b.text ≤ 0).map fun location =>
      let a := cellAt before location
      let b := cellAt after location
      { location, before := a, after := b, changed := changed a b, status := observationStatus a b }

/-- Whether neighbouring steps leave a gap. -/
def gaps : List Step → Bool
  | a :: b :: rest => b.sequence != a.sequence + 1 || gaps (b :: rest)
  | _ => false

def reportWarnings (v : Trace) : List String :=
  ["Supplied identity and origin are not authenticated.",
    "Snapshots establish differences only, not reads, intermediate writes or causal dependence.",
    "A different status can mean supplied observation availability differs, not that runtime values are known to differ.",
    "Unknown or absent cells do not establish equal values; observed equality is not semantic equivalence."]
  ++ (if !v.coverage.complete then
    ["Trace coverage is incomplete; omitted execution is unknown."] else [])
  ++ (if v.coverage.dropped_steps ≠ 0 then
    ["Reported dropped steps: " ++ toString v.coverage.dropped_steps ++ "."] else [])
  ++ (if gaps v.steps then
    ["Retained sequence gaps exist; neighboring retained steps are not necessarily consecutive execution."]
    else [])
  ++ (if v.coverage.limitations ≠ [] then
    ["Supplied coverage limitations apply; see coverage.limitations."] else [])

structure StepReport where
  format : String := "reb-vm-step-v1"
  identity : Identity
  architecture : Text
  coverage : Coverage
  step : Step
  cells : List StepCell
  changes : List Change
  previous_sequence : Option Nat
  next_sequence : Option Nat
  evidence_refs : List Text
  reads : String := "unknown"
  warnings : List String
  equivalence_proven : Bool := false
  deriving Repr

def selectedStep (v : Trace) (sequence : Value) : Except String StepReport := do
  let asked ← demand ((count sequence).filter fun _ => sequence matches .number (.integer _))
    "Expected an exact nonnegative safe-integer sequence"
  let index := v.steps.findIdx fun step => step.sequence = asked
  let retained ← demand v.steps[index]? "Step not retained"
  return { identity := v.identity
           architecture := v.architecture
           coverage := v.coverage
           step := retained
           cells := stepCells retained
           changes := effects retained
           previous_sequence := if index = 0 then none else v.steps[index - 1]?.map Step.sequence
           next_sequence := v.steps[index + 1]?.map Step.sequence
           evidence_refs := retained.evidence_refs
           warnings := reportWarnings v }

end Reb.Vm.Semantics
