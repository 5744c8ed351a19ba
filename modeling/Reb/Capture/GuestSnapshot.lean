/-
# Capture.GuestSnapshot -- the guest's program at one dispatch

`ResolveNativeGuestSnapshot` reads the guest's counter and the place of its program from the
engine's locals and memory, copies the program and reads the opcode at the counter.  The
renderer writes the result into a dispatch payload, and the browser host checks the relation
between counter, length, width and opcode again.

The accessor is a function of the engine state at one synchronous dispatch.
-/
import Reb.Capture.PayloadBytes
import Reb.Capture.WasmDispatch

namespace Reb.Capture

set_option autoImplicit false

abbrev kNativeGuestSnapshotLimit : UInt64 := 65536

structure NativeGuestValueSource where
  isLocal : Bool := false
  chainCount : UInt8 := 0
  memoryIndex : UInt32 := 0
  offsets : Vector UInt32 3 := #v[0, 0, 0]
  valueType : UInt8 := 32
  localIndex : UInt32 := 0
  constant : UInt64 := 0

/-- The fields of `NativeWasmGuestSite` that a snapshot and its admission read. -/
structure NativeWasmGuestSite where
  functionIndex : UInt32 := 0
  dispatchModuleOffset : UInt32 := 0
  pcLocalIndex : UInt32 := 0
  pcValueType : UInt8 := 32
  opcodeWidth : UInt8 := 1
  subtractMemoryBase : Bool := false
  opcodeBigEndian : Bool := false
  pcAdjustment : Int64 := 0
  memoryIndex : UInt32 := 0
  memoryBase : NativeGuestValueSource := {}
  memoryLength : NativeGuestValueSource := {}

/-- `copy_memory`: memory, address and length; the bytes or a refusal. -/
abbrev CopyMemory : Type := UInt32 → UInt64 → UInt32 → Option (List UInt8)

structure NativeWasmGuestStateView where
  instanceId : UInt64
  invocationId : UInt64
  functionIndex : UInt32
  moduleByteOffset : UInt32
  /-- A local's bits and value type. -/
  readNumericLocal : Option (UInt32 → Option (UInt64 × UInt8))
  copyMemory : Option CopyMemory

/-- The loop over a pointer chain. -/
def readChain (view : NativeWasmGuestStateView) (type : UInt8) (memoryIndex : UInt32) :
    List UInt32 → UInt64 → Option UInt64
  | [], out => some out
  | offset :: rest, out =>
      match view.copyMemory with
      | none => none
      | some copyMemory =>
          if type != 32 || out > (0xffffffff - offset).toUInt64 then none
          else
            match copyMemory memoryIndex (out + offset.toUInt64) 4 with
            | none => none
            | some bytes => readChain view type memoryIndex rest
                ((bytes.getD 0 0).toUInt64 ||| ((bytes.getD 1 0).toUInt64 <<< 8)
                  ||| ((bytes.getD 2 0).toUInt64 <<< 16) ||| ((bytes.getD 3 0).toUInt64 <<< 24))

def nativeGuestReadValue (view : NativeWasmGuestStateView) (source : NativeGuestValueSource) :
    Option UInt64 :=
  if !source.isLocal then some source.constant
  else
    match view.readNumericLocal.bind fun read => read source.localIndex with
    | none => none
    | some (out, type) =>
        if type != source.valueType || (type != 64 && (type != 32 || out > 0xffffffff))
            || source.chainCount > 3 then none
        else readChain view type source.memoryIndex
          (source.offsets.toList.take source.chainCount.toNat) out

structure NativeGuestSnapshot where
  rawPc : UInt64 := 0
  pc : UInt64 := 0
  memoryBase : UInt64 := 0
  memoryLength : UInt32 := 0
  opcode : UInt32 := 0
  bytes : List UInt8
  deriving DecidableEq

/-- The counter's source. -/
def pcSource (site : NativeWasmGuestSite) : NativeGuestValueSource :=
  { isLocal := true, valueType := site.pcValueType, localIndex := site.pcLocalIndex }

def adjustPc (pc : UInt64) (adjustment : Int64) : Option UInt64 :=
  if adjustment ≥ 0 then
    let delta := adjustment.toUInt64
    if pc > 0xffffffffffffffff - delta then none else some (pc + delta)
  else
    let delta := (-(adjustment + 1)).toUInt64 + 1
    if pc < delta then none else some (pc - delta)

def relativePc (site : NativeWasmGuestSite) (pc memoryBase : UInt64) : Option UInt64 :=
  if site.subtractMemoryBase then if pc < memoryBase then none else some (pc - memoryBase)
  else some pc

/-- The loop that assembles the opcode, in the renderer and in the browser host. -/
def readOpcode (site : NativeWasmGuestSite) (bytes : List UInt8) (pc : UInt64) : UInt32 :=
  (List.range site.opcodeWidth.toNat).foldl (fun opcode i =>
    let shift := if site.opcodeBigEndian then 8 * (site.opcodeWidth.toNat - i - 1) else 8 * i
    opcode ||| ((bytes.getD (pc.toNat + i) 0).toUInt32 <<< shift.toUInt32)) 0

/-- `out` is the snapshot buffer as an earlier call left it. -/
def resolveNativeGuestSnapshot (site : NativeWasmGuestSite) (view : NativeWasmGuestStateView)
    (out : NativeGuestSnapshot) : Option NativeGuestSnapshot :=
  if view.instanceId == 0 || view.invocationId == 0 || view.functionIndex != site.functionIndex
      || view.moduleByteOffset != site.dispatchModuleOffset || view.copyMemory.isNone
      || (site.opcodeWidth != 1 && site.opcodeWidth != 2 && site.opcodeWidth != 4) then none
  else do
    let rawPc ← nativeGuestReadValue view (pcSource site)
    let memoryBase ← nativeGuestReadValue view site.memoryBase
    let length ← nativeGuestReadValue view site.memoryLength
    if length == 0 || length > kNativeGuestSnapshotLimit
        || memoryBase > 0xffffffffffffffff - length then none
    else
      let adjusted ← adjustPc rawPc site.pcAdjustment
      let pc ← relativePc site adjusted memoryBase
      if length < site.opcodeWidth.toUInt64 || pc > length - site.opcodeWidth.toUInt64 then none
      else
        let memoryLength := length.toUInt32
        let copyMemory ← view.copyMemory
        let copied ← copyMemory site.memoryIndex memoryBase memoryLength
        let bytes := copied ++ out.bytes.drop copied.length
        some { rawPc, pc, memoryBase, memoryLength, bytes, opcode := readOpcode site bytes pc }

/-! ## The payload and its admission -/

def encodeNativeWasmGuestDispatchPayload (value : WasmGuestDispatchPayload) : List UInt8 :=
  let out := emptyPayload
  let out := put out 0 value.protocolVersion.toUInt64 2
  let out := put out 2 value.payloadSize.toUInt64 2
  let out := put out 4 value.functionIndex.toUInt64 4
  let out := put out 8 value.moduleByteOffset.toUInt64 4
  let out := put out 12 value.selector.toUInt64 4
  let out := put out 16 value.tableCount.toUInt64 4
  let out := put out 20 value.sampleIndex.toUInt64 4
  let out := put out 24 value.instanceId 8
  let out := put out 32 value.invocationId 8
  let out := put out 40 value.guestPc 8
  let out := put out 48 value.rawPcBits 8
  let out := put out 56 value.bytecodeArtifactId 8
  let out := put out 64 value.memoryBase 8
  let out := put out 72 value.memoryLength.toUInt64 4
  let out := put out 76 value.pcLocalIndex.toUInt64 4
  let out := put out 80 value.pcAdjustment.toUInt64 8
  let out := put out 88 value.memoryIndex.toUInt64 4
  let out := put out 92 value.opcode.toUInt64 4
  copyTo out 96 value.recipeSha256

/-- The payload that the renderer fills from a snapshot. -/
def guestDispatchPayload (site : NativeWasmGuestSite) (view : NativeWasmGuestStateView)
    (snapshot : NativeGuestSnapshot) (selector tableCount sampleIndex : UInt32)
    (recipeSha256 : Vector UInt8 32) : WasmGuestDispatchPayload :=
  { protocolVersion := 1
    payloadSize := 128
    functionIndex := view.functionIndex
    moduleByteOffset := view.moduleByteOffset
    selector
    tableCount
    sampleIndex
    instanceId := view.instanceId
    invocationId := view.invocationId
    guestPc := snapshot.pc
    rawPcBits := snapshot.rawPc
    bytecodeArtifactId := 0
    memoryBase := snapshot.memoryBase
    memoryLength := snapshot.memoryLength
    pcLocalIndex := site.pcLocalIndex
    pcAdjustment := site.pcAdjustment
    memoryIndex := site.memoryIndex
    opcode := snapshot.opcode
    recipeSha256 := recipeSha256.toList }

/-- `capture.bytecode_bytes` -/
def NativeGuestSnapshot.bytecode (snapshot : NativeGuestSnapshot) : List UInt8 :=
  snapshot.bytes.take snapshot.memoryLength.toNat

/-- The host's checks of a payload's snapshot fields against its own site and the bytes. -/
def admitsGuestSnapshot (site : NativeWasmGuestSite) (payload bytecode : List UInt8) : Bool :=
  let field := get payload
  if field 76 4 != site.pcLocalIndex.toUInt64 || field 88 4 != site.memoryIndex.toUInt64
      || field 80 8 != site.pcAdjustment.toUInt64
      || bytecode.length < site.opcodeWidth.toNat
      || (field 40 8).toNat > bytecode.length - site.opcodeWidth.toNat then false
  else field 92 4 == (readOpcode site bytecode (field 40 8)).toUInt64

end Reb.Capture
