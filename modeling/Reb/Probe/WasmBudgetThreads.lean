/-
# Probe.WasmBudgetThreads -- sample budgets of threads that race

`RetainWasmBudgetKey` and `ReleaseWasmBudgetKey` as programs that stand, between
two accesses to the slots, at a named point with their local variables.  Every
load, store and compare-exchange of a slot's four words is one access.

Recorded beside the slots: which thread is storing a key, every change of a
stamp with the slot before and after it, and what the retains returned.
-/
import Reb.Probe.WasmBudget
import Reb.Theory.Interleaving

namespace Reb.Probe

set_option autoImplicit false

open Theory.Interleaving

/-! ## The slots and what happened to them -/

/-- Which compare-exchange changed a stamp. -/
inductive BudgetEffect where
  | takeOver (key : BudgetKey)
  | publish (key : BudgetKey)
  | increment (key : BudgetKey)
  | release
  deriving DecidableEq, Repr

/-- A change of a stamp, for the epoch and incarnation its thread acts in. -/
structure BudgetChange (ι : Type) (n : Nat) where
  thread : ι
  slot : Fin n
  epoch : UInt64
  incarnation : UInt32
  effect : BudgetEffect
  before : NativeWasmBudgetKeySlot
  after : NativeWasmBudgetKeySlot
  deriving DecidableEq

/-- A retain that returned `kRetained`, and the change that counted it. -/
structure BudgetRetained (n : Nat) where
  slot : Fin n
  epoch : UInt64
  incarnation : UInt32
  key : BudgetKey
  change : Nat
  deriving DecidableEq

structure BudgetRun (ι : Type) (n : Nat) where
  slots : BudgetSlots n := fun _ => {}
  owner : Fin n → Option ι := fun _ => none
  changes : List (BudgetChange ι n) := []
  retained : List (BudgetRetained n) := []

namespace BudgetRun

variable {ι : Type} {n : Nat} (run : BudgetRun ι n)

def setSlot (slot : Fin n) (after : NativeWasmBudgetKeySlot) : BudgetRun ι n :=
  { run with slots := Function.update run.slots slot after }

def setOwner (slot : Fin n) (owner : Option ι) : BudgetRun ι n :=
  { run with owner := Function.update run.owner slot owner }

def change (thread : ι) (slot : Fin n) (epoch : UInt64) (incarnation : UInt32)
    (effect : BudgetEffect) (stamp : UInt64) : BudgetChange ι n :=
  { thread, slot, epoch, incarnation, effect
    before := run.slots slot
    after := { run.slots slot with stamp } }

/-- A successful exchange of a stamp. -/
def exchange (thread : ι) (slot : Fin n) (epoch : UInt64) (incarnation : UInt32)
    (effect : BudgetEffect) (stamp : UInt64) : BudgetRun ι n :=
  { run.setSlot slot { run.slots slot with stamp } with
    changes := run.changes ++ [run.change thread slot epoch incarnation effect stamp] }

/-- `return {kRetained, slot, incarnation}`. -/
def retain (slot : Fin n) (epoch : UInt64) (incarnation : UInt32) (key : BudgetKey)
    (change : Nat) : BudgetRun ι n :=
  { run with retained := run.retained ++ [{ slot, epoch, incarnation, key, change }] }

end BudgetRun

/-! ## Where a thread stands -/

/-- A retain past its argument check, at one position of its probe sequence. -/
structure RetainFrame (n : Nat) where
  epoch : UInt64
  key : BudgetKey
  limit : UInt32
  attempts : Nat
  probe : Nat
  nonempty : 0 < n
  valid : retainArgumentsValid epoch limit = true

def RetainFrame.index {n : Nat} (frame : RetainFrame n) : Fin n :=
  probeAt frame.nonempty frame.key frame.probe

/-- The next load of `NativeWasmBudgetKeyMatches`. -/
inductive MatchLoad where
  | stamp | kind | primary | secondary
  deriving DecidableEq, Repr

/-- What a retain compares a slot's key for. -/
inductive MatchUse where
  | probing
  | claiming (stamp : UInt64)
  | checkingEarlier (incarnation : UInt32) (change earlier : Nat)
  deriving DecidableEq

/-- What follows a release. -/
inductive ReleaseThen (n : Nat) where
  | done
  | retry (frame : RetainFrame n)
  | claim (frame : RetainFrame n) (prior : Fin n)

/-- The next access of a thread. -/
inductive BudgetPc (n : Nat) where
  | idle
  | matching (load : MatchLoad) (frame : RetainFrame n) (index : Fin n) (use : MatchUse)
  | loadClaimed (frame : RetainFrame n) (index : Fin n)
  | exchangeClaimed (frame : RetainFrame n) (index : Fin n) (stamp : UInt64)
  | loadProbed (frame : RetainFrame n)
  | takeOver (frame : RetainFrame n) (stamp : UInt64) (incarnation : UInt32)
  | storeKind (frame : RetainFrame n) (incarnation : UInt32)
  | storePrimary (frame : RetainFrame n) (incarnation : UInt32)
  | storeSecondary (frame : RetainFrame n) (incarnation : UInt32)
  | publish (frame : RetainFrame n) (incarnation : UInt32)
  | loadPrior (frame : RetainFrame n) (incarnation : UInt32) (change earlier : Nat)
  | loadReleased (index : Fin n) (epoch : UInt64) (incarnation : UInt32) (next : ReleaseThen n)
  | exchangeReleased (index : Fin n) (epoch : UInt64) (incarnation : UInt32) (stamp : UInt64)
      (next : ReleaseThen n)
  | retainReturned (result : NativeWasmBudgetRetain n)
  | releaseReturned

/-- A call with its arguments. -/
inductive BudgetRequest (n : Nat) where
  | retain (epoch : UInt64) (key : BudgetKey) (limit : UInt32)
  | release (slot : Fin n) (epoch : UInt64) (incarnation : UInt32)

namespace RetainFrame

variable {n : Nat} (frame : RetainFrame n)

/-- The head of the probe loop; a loop that ends without `retry` is capped. -/
def probeLoop : BudgetPc n :=
  if frame.probe < n then .matching .stamp frame frame.index .probing
  else .retainReturned .kCapped

def nextProbe : BudgetPc n := { frame with probe := frame.probe + 1 }.probeLoop

/-- The next attempt, from the first position of the probe sequence. -/
def retry : BudgetPc n :=
  match frame.attempts with
  | 0 => .retainReturned .kCapped
  | attempts + 1 => { frame with attempts, probe := 0 }.probeLoop

/-- What the probe loop does with a stamp whose slot does not hold the key. -/
def probed (stamp : UInt64) : BudgetPc n :=
  if publishBitSet stamp then frame.retry
  else if slotLive stamp frame.epoch then frame.nextProbe
  else if (previousIncarnation stamp frame.epoch).toUInt64 == kNativeWasmBudgetIncarnationMask then
    frame.nextProbe
  else .takeOver frame stamp (previousIncarnation stamp frame.epoch + 1)

variable {ι : Type}

/-- The head of the loop over the earlier positions, after a publication. -/
def checkEarlier (incarnation : UInt32) (change earlier : Nat) (run : BudgetRun ι n) :
    BudgetRun ι n × BudgetPc n :=
  if earlier < frame.probe then (run, .loadPrior frame incarnation change earlier)
  else (run.retain frame.index frame.epoch incarnation frame.key change,
    .retainReturned (.kRetained frame.index incarnation))

/-- What a retain does with the result of `NativeWasmBudgetKeyMatches`. -/
def matched (index : Fin n) (use : MatchUse) (result : Bool) (run : BudgetRun ι n) :
    BudgetRun ι n × BudgetPc n :=
  match use with
  | .probing => (run, if result then .loadClaimed frame index else .loadProbed frame)
  | .claiming stamp =>
      (run,
        if result then
          if nativeWasmBudgetCountOf stamp ≥ frame.limit then .retainReturned .kCapped
          else .exchangeClaimed frame index stamp
        else frame.retry)
  | .checkingEarlier incarnation change earlier =>
      if result then
        (run, .loadReleased frame.index frame.epoch incarnation (.claim frame index))
      else frame.checkEarlier incarnation change (earlier + 1) run

end RetainFrame

def ReleaseThen.next {n : Nat} : ReleaseThen n → BudgetPc n
  | .done => .releaseReturned
  | .retry frame => frame.retry
  | .claim frame prior => .loadClaimed frame prior

/-- The head of the loop of `ReleaseWasmBudgetKey`. -/
def releaseLoop {n : Nat} (index : Fin n) (epoch : UInt64) (incarnation : UInt32) (stamp : UInt64)
    (next : ReleaseThen n) : BudgetPc n :=
  if nativeWasmBudgetStampVisible stamp epoch &&
      nativeWasmBudgetIncarnationOf stamp == incarnation &&
      nativeWasmBudgetCountOf stamp != 0 then
    .exchangeReleased index epoch incarnation stamp next
  else next.next

/-- The first access of a call. -/
def BudgetRequest.start {n : Nat} : BudgetRequest n → BudgetPc n
  | .retain epoch key limit =>
      if nonempty : 0 < n then
        if valid : retainArgumentsValid epoch limit = true then
          RetainFrame.probeLoop
            { epoch, key, limit, attempts := 63, probe := 0, nonempty, valid }
        else .retainReturned .kCapped
      else .retainReturned .kCapped
  | .release slot epoch incarnation => .loadReleased slot epoch incarnation .done

/-! ## One access -/

section Access

variable {ι : Type} {n : Nat}

end Access

end Reb.Probe
