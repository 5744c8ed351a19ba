/-
# Probe.WasmBudgetPolicy -- the sample-budget policy and its parsers

`NativeWasmSampleBudgetPolicy` and the three texts it is configured from: the function
lists, the module allowlist and the reset generation.  A parser that returns false leaves
behind what it had written, so a refusal carries it (`Except.error`).
-/
import Reb.Capture.NativeWasmDispatch
import Reb.Theory.Decimal

namespace Reb.Probe

open Capture (kNativeWasmDispatchSampleBudget kNativeWasmIndirectSampleBudget)
open Theory.Decimal

set_option autoImplicit false

/-! ## The policy -/

abbrev kNativeWasmModuleAllowlistLimit : Nat := 8
abbrev kNativeWasmFunctionFilterLimit : Nat := 32
abbrev kNativeWasmFunctionIndexLimit : UInt32 := 16 * 1024 * 1024

/-- The bytes of a SHA-256. -/
abbrev ModuleDigest : Type := Fin 32 → UInt8

structure NativeWasmSampleBudgetPolicy where
  samplesPerFunction : UInt32 := 0
  samplesPerIndirectSite : UInt32 := 0
  moduleAllowCount : UInt8 := 0
  functionAllowCount : UInt8 := 0
  functionDenyCount : UInt8 := 0
  moduleAllow : Fin kNativeWasmModuleAllowlistLimit → ModuleDigest := fun _ _ => 0
  functionAllow : Fin kNativeWasmFunctionFilterLimit → UInt32 := fun _ => 0
  functionDeny : Fin kNativeWasmFunctionFilterLimit → UInt32 := fun _ => 0
  deriving DecidableEq

/-- `functions_valid`: distinct indexes below the limit, then zeros. -/
def functionsValid (values : Fin kNativeWasmFunctionFilterLimit → UInt32) (count : UInt8) : Bool :=
  decide (∀ index, if count.toNat ≤ index.val then values index = 0
    else values index < kNativeWasmFunctionIndexLimit
      ∧ ∀ earlier, earlier < index → values index ≠ values earlier)

def isValidNativeWasmSampleBudgetPolicy (policy : NativeWasmSampleBudgetPolicy) : Bool :=
  if policy.samplesPerFunction > kNativeWasmDispatchSampleBudget
      || policy.samplesPerIndirectSite > kNativeWasmIndirectSampleBudget
      || policy.moduleAllowCount.toNat > kNativeWasmModuleAllowlistLimit
      || policy.functionAllowCount.toNat > kNativeWasmFunctionFilterLimit
      || policy.functionDenyCount.toNat > kNativeWasmFunctionFilterLimit then false
  else if ∃ index, policy.moduleAllowCount.toNat ≤ index.val
      ∧ ∃ byte, policy.moduleAllow index byte ≠ 0 then false
  else if ∃ index, index.val < policy.moduleAllowCount.toNat
      ∧ ∃ earlier, earlier < index
        ∧ policy.moduleAllow index = policy.moduleAllow earlier then false
  else functionsValid policy.functionAllow policy.functionAllowCount
    && functionsValid policy.functionDeny policy.functionDenyCount

/-! ## Function lists -/

abbrev comma : UInt8 := 0x2c
abbrev newline : UInt8 := 0x0a
abbrev carriageReturn : UInt8 := 0x0d

/-- The locals of `ParseNativeWasmFunctionList` and the storage it writes. -/
structure FunctionList where
  out : List UInt32
  count : UInt8 := 0
  value : UInt32 := 0
  inNumber : Bool := false
  deriving DecidableEq, Repr

def FunctionList.push (list : FunctionList) : Except FunctionList FunctionList :=
  if !list.inNumber || list.count.toNat ≥ kNativeWasmFunctionFilterLimit
      || list.value ≥ kNativeWasmFunctionIndexLimit then .error list
  else if (list.out.take list.count.toNat).contains list.value then .error list
  else .ok
    { out := list.out.set list.count.toNat list.value
      count := list.count + 1
      value := 0
      inNumber := false }

/-- One digit more; `none` when the number would pass the limit. -/
def functionDigit (value : UInt32) (character : UInt8) : Option UInt32 :=
  let digit := (character - 0x30).toUInt32
  if value > (kNativeWasmFunctionIndexLimit - digit) / 10 then none else some (value * 10 + digit)

def FunctionList.read (list : FunctionList) (character : UInt8) :
    Except FunctionList FunctionList :=
  if character == comma then list.push
  else if character < 0x30 || character > 0x39 then .error list
  else
    match functionDigit list.value character with
    | none => .error list
    | some value => .ok { list with value, inNumber := true }

def FunctionList.finish (list : FunctionList) : Except FunctionList FunctionList := do
  let list ← list.push
  if list.count != 0 then .ok list else .error list

def parseNativeWasmFunctionList (text : List UInt8) (out : List UInt32) :
    Except FunctionList FunctionList :=
  if text.isEmpty || out.length < kNativeWasmFunctionFilterLimit then .error { out }
  else do
    let list ← text.foldlM FunctionList.read { out }
    list.finish

/-! ## The module allowlist -/

/-- `none` for the source's −1. -/
def nativeWasmHexValue (character : UInt8) : Option UInt8 :=
  if 0x30 ≤ character && character ≤ 0x39 then some (character - 0x30)
  else if 0x61 ≤ character && character ≤ 0x66 then some (character - 0x61 + 10)
  else if 0x41 ≤ character && character ≤ 0x46 then some (character - 0x41 + 10)
  else none

/-- Writes the bytes of a line in place; what was written stays when a digit is refused. -/
def writeDigest (line : List UInt8) : List (Fin 32) → ModuleDigest → Except ModuleDigest ModuleDigest
  | [], digest => .ok digest
  | index :: rest, digest =>
      match nativeWasmHexValue (line.getD (index.val * 2) 0),
          nativeWasmHexValue (line.getD (index.val * 2 + 1) 0) with
      | some high, some low =>
          writeDigest line rest (Function.update digest index ((high <<< 4) ||| low))
      | _, _ => .error digest

def trimLine (line : List UInt8) : List UInt8 :=
  (line.dropWhile fun byte => byte == 0x20 || byte == 0x09).rdropWhile
    fun byte => byte == 0x20 || byte == 0x09 || byte == carriageReturn

/-- A blank line or a comment. -/
def isIgnored (line : List UInt8) : Bool := line.isEmpty || line.head? == some 0x23

def NativeWasmSampleBudgetPolicy.writeModule (policy : NativeWasmSampleBudgetPolicy)
    (index : Fin kNativeWasmModuleAllowlistLimit) (digest : ModuleDigest) :
    NativeWasmSampleBudgetPolicy :=
  { policy with moduleAllow := Function.update policy.moduleAllow index digest }

/-- `consume` -/
def consumeLine (policy : NativeWasmSampleBudgetPolicy) (whole : List UInt8) :
    Except NativeWasmSampleBudgetPolicy NativeWasmSampleBudgetPolicy :=
  let line := trimLine whole
  if isIgnored line then .ok policy
  else if room : line.length ≠ 64
      ∨ policy.moduleAllowCount.toNat ≥ kNativeWasmModuleAllowlistLimit then .error policy
  else
    let index : Fin kNativeWasmModuleAllowlistLimit :=
      ⟨policy.moduleAllowCount.toNat, not_le.1 (not_or.1 room).2⟩
    match writeDigest line (List.finRange 32) (policy.moduleAllow index) with
    | .error digest => .error (policy.writeModule index digest)
    | .ok digest =>
        let written := policy.writeModule index digest
        if ∃ earlier, earlier < index ∧ written.moduleAllow earlier = digest then .error written
        else .ok { written with moduleAllowCount := policy.moduleAllowCount + 1 }

def NativeWasmSampleBudgetPolicy.clearModules (policy : NativeWasmSampleBudgetPolicy) :
    NativeWasmSampleBudgetPolicy :=
  { policy with moduleAllowCount := 0, moduleAllow := fun _ _ => 0 }

def parseNativeWasmModuleAllowlist (text : List UInt8) (policy : NativeWasmSampleBudgetPolicy) :
    Except NativeWasmSampleBudgetPolicy NativeWasmSampleBudgetPolicy :=
  match (text.splitOn newline).foldlM consumeLine policy.clearModules with
  | .error left => .error { left with moduleAllowCount := 0 }
  | .ok read => if read.moduleAllowCount == 0 then .error read else .ok read

/-! ## The reset generation -/

def dropLast (byte : UInt8) (text : List UInt8) : List UInt8 :=
  if text.getLast? == some byte then text.dropLast else text

def generationDigit (value : UInt64) (character : UInt8) : Option UInt64 :=
  if character < 0x30 || character > 0x39 then none
  else
    let digit := (character - 0x30).toUInt64
    if value > (0xffffffffffffffff - digit) / 10 then none else some (value * 10 + digit)

def parseNativeWasmBudgetResetGeneration (text : List UInt8) : Option UInt64 :=
  let text := dropLast carriageReturn (dropLast newline text)
  if text.isEmpty || text.length > 20 then none else text.foldlM generationDigit 0

end Reb.Probe
