/-
# Capture.WasmAdmission -- from a renderer message to a broker record

The path of one WebAssembly observation: `NativeProbeHost::CaptureWasm*` admits
the renderer's message, the capture sink encodes it, and the broker decodes and
validates the record.  The bounds are spread over the host, the overlay's input
predicate and the core validator, each with constants of its own; what the first
two let through, the third accepts (`admitted_wasm_accepted`).

The document lookup and the sample budgets that follow the host's checks either
refuse the message or pass the observation on, so they are not repeated here.
-/
import Reb.Capture.EventValidity
import Reb.Capture.NativeWasmDispatch

namespace Reb.Capture

set_option autoImplicit false

/-! ## The host -/

/-- What the three handlers read of the host, its session and the clock. -/
structure NativeProbeHostContext where
  /-- `queue_ && wasm_epoch_lifetime_`. -/
  configured : Bool
  wasmCaptureEpoch : UInt64
  sessionActive : Bool
  sessionId : UInt64
  categoryMask : UInt64
  expiresAtMonotonicNs : UInt64
  /-- The renderer's process id, when its `RenderProcessHost` is still there. -/
  rendererPid : Option UInt32
  now : UInt64
  deriving DecidableEq, Repr

/-- `NativeProbeCategoryMask(kVm) | NativeProbeCategoryMask(kArtifact)`. -/
def kWasmCaptureMask : UInt64 := (1 : UInt64) <<< (9 : UInt64) ||| (1 : UInt64) <<< (10 : UInt64)

/-- The parameters the three messages open with. -/
structure WasmMessageEnvelope where
  captureEpoch : UInt64
  sessionId : UInt64
  sequenceNumber : UInt64
  monotonicTimeNs : UInt64
  processId : UInt32
  threadId : UInt32
  frameId : UInt64
  executionContextId : UInt64
  documentTokenHigh : UInt64
  documentTokenLow : UInt64
  sourceUrl : List UInt8
  content : List UInt8
  deriving DecidableEq, Repr

inductive HostVerdict (α : Type) where
  /-- A retired configuration, another session or process: nothing is recorded. -/
  | ignored
  /-- The record's sequence slot is filled with a gap of this reason. -/
  | refused (reason : String)
  | admitted (observation : α)
  deriving DecidableEq, Repr

/-- The two early returns. -/
def hostListens (host : NativeProbeHostContext) (message : WasmMessageEnvelope) : Bool :=
  !(!host.configured || message.captureEpoch != host.wasmCaptureEpoch || !host.sessionActive ||
      message.sessionId != host.sessionId ||
      (host.categoryMask &&& kWasmCaptureMask) != kWasmCaptureMask ||
      host.expiresAtMonotonicNs ≤ host.now) &&
    !(host.rendererPid != some message.processId || message.sequenceNumber == 0)

def wasmObservationHeader (message : WasmMessageEnvelope) (type : EventType) : EventHeader :=
  { category := .vm
    type
    sessionId := message.sessionId
    sequenceNumber := message.sequenceNumber
    monotonicTimeNs := message.monotonicTimeNs
    processId := message.processId
    threadId := message.threadId
    frameId := message.frameId }

/-- The checks on time, thread, frame and context the handlers share. -/
def wasmIdentityRefused (host : NativeProbeHostContext) (message : WasmMessageEnvelope) : Bool :=
  message.monotonicTimeNs == 0 || host.now < message.monotonicTimeNs || message.threadId == 0 ||
    message.frameId == 0 || message.executionContextId == 0

structure WasmDispatchMessage extends WasmMessageEnvelope where
  functionIndex : UInt32
  moduleByteOffset : UInt32
  selector : UInt32
  tableCount : UInt32
  callerObserved : Bool
  callerKind : UInt8
  callerFunctionIndex : UInt32
  sampleIndex : UInt32
  jsInvocationState : UInt8
  jsInvocationId : UInt32
  deriving DecidableEq, Repr

def WasmDispatchMessage.observation (message : WasmDispatchMessage) :
    NativeWasmDispatchObservation :=
  { header := wasmObservationHeader message.toWasmMessageEnvelope .wasmDispatchObservation
    executionContextId := message.executionContextId
    documentTokenHigh := message.documentTokenHigh
    documentTokenLow := message.documentTokenLow
    functionIndex := message.functionIndex
    moduleByteOffset := message.moduleByteOffset
    selector := message.selector
    tableCount := message.tableCount
    sampleIndex := message.sampleIndex
    jsInvocationState := message.jsInvocationState
    jsInvocationId := message.jsInvocationId
    callerObserved := message.callerObserved
    callerKind := message.callerKind
    callerFunctionIndex := message.callerFunctionIndex
    sourceUrl := message.sourceUrl
    moduleBytes := message.content }

def captureWasmDispatch (host : NativeProbeHostContext) (message : WasmDispatchMessage) :
    HostVerdict NativeWasmDispatchObservation :=
  if !hostListens host message.toWasmMessageEnvelope then .ignored
  else
    let callerClear := message.callerKind == kWasmDirectCallerUnknown &&
      message.callerFunctionIndex == 0
    let callerNamed := message.callerKind == kWasmDirectCallerSameInstance &&
      message.callerFunctionIndex < 16777216
    let callerOk := if message.callerObserved then callerClear || callerNamed else callerClear
    if wasmIdentityRefused host message.toWasmMessageEnvelope || 16 ≤ message.sampleIndex ||
        !callerOk || 16 * 1024 * 1024 < message.content.length ||
        kNativeWasmFunctionIndexLimit ≤ message.functionIndex ||
        kNativeWasmFunctionIndexLimit ≤ message.tableCount then
      .refused "native_wasm_dispatch_limit_or_invalid"
    else if !isValidNativeWasmDispatchInput message.observation then
      .refused "native_wasm_dispatch_module_invalid"
    else .admitted message.observation

structure WasmIndirectMessage extends WasmMessageEnvelope where
  functionIndex : UInt32
  moduleByteOffset : UInt32
  tableIndex : UInt32
  slot : UInt32
  calleeFunctionIndex : UInt32
  resolution : UInt32
  sampleIndex : UInt32
  jsInvocationState : UInt8
  jsInvocationId : UInt32
  deriving DecidableEq, Repr

def WasmIndirectMessage.observation (message : WasmIndirectMessage) :
    NativeWasmIndirectObservation :=
  { header := wasmObservationHeader message.toWasmMessageEnvelope .wasmIndirectObservation
    executionContextId := message.executionContextId
    documentTokenHigh := message.documentTokenHigh
    documentTokenLow := message.documentTokenLow
    functionIndex := message.functionIndex
    moduleByteOffset := message.moduleByteOffset
    tableIndex := message.tableIndex
    slot := message.slot
    calleeFunctionIndex := message.calleeFunctionIndex
    resolution := message.resolution
    sampleIndex := message.sampleIndex
    jsInvocationState := message.jsInvocationState
    jsInvocationId := message.jsInvocationId
    sourceUrl := message.sourceUrl
    moduleBytes := message.content }

def captureWasmIndirect (host : NativeProbeHostContext) (message : WasmIndirectMessage) :
    HostVerdict NativeWasmIndirectObservation :=
  if !hostListens host message.toWasmMessageEnvelope then .ignored
  else if wasmIdentityRefused host message.toWasmMessageEnvelope ||
      kNativeWasmIndirectSampleBudget ≤ message.sampleIndex ||
      kNativeWasmIndirectResolutionCount ≤ message.resolution ||
      kNativeArtifactMaxContentBytes < message.content.length ||
      kNativeWasmFunctionIndexLimit ≤ message.functionIndex ||
      kNativeWasmFunctionIndexLimit ≤ message.tableIndex ||
      kNativeWasmFunctionIndexLimit ≤ message.slot ||
      kNativeWasmFunctionIndexLimit ≤ message.calleeFunctionIndex then
    .refused "native_wasm_indirect_limit_or_invalid"
  else if !isValidNativeWasmIndirectInput message.observation then
    .refused "native_wasm_indirect_module_invalid"
  else .admitted message.observation

structure WasmExecutionMessage extends WasmMessageEnvelope where
  invocationId : UInt32
  functionIndex : UInt32
  moduleByteOffset : UInt32
  relatedSampleIndex : UInt32
  kind : UInt8
  reason : UInt8
  bounds : UInt8
  known : UInt8
  relatedStream : UInt8
  jsInvocationState : UInt8
  jsInvocationId : UInt32
  deriving DecidableEq, Repr

/-- The module bytes travel beside the observation; the sink attaches them. -/
def WasmExecutionMessage.observation (message : WasmExecutionMessage) :
    NativeWasmExecutionObservation :=
  { header := wasmObservationHeader message.toWasmMessageEnvelope .wasmExecutionOutcome
    executionContextId := message.executionContextId
    documentTokenHigh := message.documentTokenHigh
    documentTokenLow := message.documentTokenLow
    invocationId := message.invocationId
    functionIndex := message.functionIndex
    moduleByteOffset := message.moduleByteOffset
    relatedSampleIndex := message.relatedSampleIndex
    kind := message.kind
    reason := message.reason
    bounds := message.bounds
    known := message.known
    relatedStream := message.relatedStream
    jsInvocationState := message.jsInvocationState
    jsInvocationId := message.jsInvocationId
    sourceUrl := message.sourceUrl }

def captureWasmExecution (host : NativeProbeHostContext) (message : WasmExecutionMessage) :
    HostVerdict NativeWasmExecutionObservation :=
  if !hostListens host message.toWasmMessageEnvelope then .ignored
  else if wasmIdentityRefused host message.toWasmMessageEnvelope || message.invocationId == 0 ||
      1 < message.kind || kNativeWasmExecutionReasonCount ≤ message.reason ||
      kNativeArtifactMaxContentBytes < message.content.length then
    .refused "native_wasm_execution_limit_or_invalid"
  else .admitted message.observation

/-! ## The sink -/

/-- Version 3 is the walked caller; version 2 means the walk did not run. -/
def wasmDispatchSample (observation : NativeWasmDispatchObservation) :
    NativeWasmDispatchObservationPayload :=
  { protocolVersion := if observation.callerObserved then 3 else 2
    functionIndex := observation.functionIndex
    moduleByteOffset := observation.moduleByteOffset
    selector := observation.selector
    tableCount := observation.tableCount
    sampleIndex := observation.sampleIndex
    jsInvocationState := observation.jsInvocationState
    jsInvocationId := observation.jsInvocationId
    callerKind := observation.callerKind
    callerFunctionIndex := observation.callerFunctionIndex }

def wasmIndirectSample (observation : NativeWasmIndirectObservation) :
    NativeWasmIndirectObservationPayload :=
  { functionIndex := observation.functionIndex
    moduleByteOffset := observation.moduleByteOffset
    tableIndex := observation.tableIndex
    slot := observation.slot
    calleeFunctionIndex := observation.calleeFunctionIndex
    resolution := observation.resolution
    sampleIndex := observation.sampleIndex
    jsInvocationState := observation.jsInvocationState
    jsInvocationId := observation.jsInvocationId }

def wasmExecutionSample (observation : NativeWasmExecutionObservation) :
    NativeWasmExecutionOutcomePayload :=
  { kind := observation.kind
    reason := observation.reason
    bounds := observation.bounds
    known := observation.known
    functionIndex := observation.functionIndex
    moduleByteOffset := observation.moduleByteOffset
    invocationId := observation.invocationId
    relatedSampleIndex := observation.relatedSampleIndex
    relatedStream := observation.relatedStream
    jsInvocationState := observation.jsInvocationState
    jsInvocationId := observation.jsInvocationId }

/-- The header the sink publishes under, once the module's artifact is known. -/
def publishedHeader (header : EventHeader) (type : EventType) (artifactId : UInt64) :
    EventHeader :=
  { header with category := .vm, type, parentEventId := 0, payloadSize := 128, artifactId }

/-- The record the sink publishes. -/
def publishedEvent (header : EventHeader) (payload : List UInt8) (size : payload.length = 128) :
    EventRecord :=
  { header, inlinePayload := ⟨payload.toArray, by rw [List.size_toArray, size, kInlinePayloadSize]⟩ }

theorem validModuleOffset_of_module {bytes : List UInt8} {offset : UInt32}
    (wellFormed : validNativeWasmModule bytes = true) (low : 8 ≤ offset)
    (inside : offset.toNat < bytes.length) : validModuleOffset offset = true := by
  have size : bytes.length ≤ 16777216 := by
    simp only [validNativeWasmModule, Bool.and_eq_true, decide_eq_true_eq] at wellFormed
    exact wellFormed.1.2
  have high : offset < kWasmFieldLimit :=
    UInt32.lt_iff_toNat_lt.2 (Nat.lt_of_lt_of_le inside size)
  rw [validModuleOffset, decide_eq_true low, decide_eq_true high]
  rfl

theorem dispatch_input_bounds {value : NativeWasmDispatchObservation}
    (valid : isValidNativeWasmDispatchInput value = true) :
    validModuleOffset value.moduleByteOffset = true ∧ value.sampleIndex < 16 ∧
      isValidJsInvocationContext value.jsInvocationState value.jsInvocationId = true ∧
      ((value.callerKind = kWasmDirectCallerUnknown ∧ value.callerFunctionIndex = 0) ∨
        (value.callerObserved = true ∧ value.callerKind = kWasmDirectCallerSameInstance ∧
          value.callerFunctionIndex < kWasmFieldLimit)) := by
  simp [isValidNativeWasmDispatchInput] at valid
  obtain ⟨⟨⟨⟨⟨⟨⟨_, wellFormed⟩, low⟩, inside⟩, _⟩, sample⟩, context⟩, caller, _⟩ := valid
  refine ⟨validModuleOffset_of_module wellFormed low inside, sample, context, ?_⟩
  rcases caller with clear | ⟨⟨walked, same⟩, named⟩
  · exact .inl clear
  · exact .inr ⟨walked, same, named⟩

theorem indirect_input_bounds {value : NativeWasmIndirectObservation}
    (valid : isValidNativeWasmIndirectInput value = true) :
    validModuleOffset value.moduleByteOffset = true ∧ value.functionIndex < kWasmFieldLimit ∧
      value.tableIndex < kWasmFieldLimit ∧ value.resolution < kWasmIndirectResolutionCount ∧
      value.calleeFunctionIndex < kWasmFieldLimit ∧
      (value.resolution = 0 ∨ value.calleeFunctionIndex = 0) ∧ value.sampleIndex < 16 ∧
      isValidJsInvocationContext value.jsInvocationState value.jsInvocationId = true := by
  simp [isValidNativeWasmIndirectInput] at valid
  obtain ⟨⟨⟨⟨⟨⟨⟨⟨⟨⟨⟨⟨_, wellFormed⟩, low⟩, inside⟩, _⟩, function⟩, table⟩, resolution⟩, callee⟩,
    resolved⟩, sample⟩, context⟩, _⟩ := valid
  exact ⟨validModuleOffset_of_module wellFormed low inside, function, table, resolution, callee,
    resolved, sample, context⟩

/-! ## The broker accepts what was admitted -/

theorem allZero_replicate (n : Nat) : allZero (List.replicate n (0 : UInt8)) = true := by
  simp [allZero]

theorem native_dispatch_accepted {observation : NativeWasmDispatchObservation} {event : EventRecord}
    (function : observation.functionIndex < kNativeWasmFunctionIndexLimit)
    (table : observation.tableCount < kNativeWasmFunctionIndexLimit)
    (valid : isValidNativeWasmDispatchInput observation = true)
    (envelope : wasmEnvelope event .wasmDispatchObservation 128 true = true)
    (payload : event.inlinePayload.toList =
      encodeNativeWasmDispatchObservationPayload (wasmDispatchSample observation)) :
    isValidWasmDispatchObservation event = true := by
  obtain ⟨offset, sample, context, caller⟩ := dispatch_input_bounds valid
  rw [isValidWasmDispatchObservation, envelope, payload, decode_encodeNativeWasmDispatch]
  have function' : observation.functionIndex < kWasmFieldLimit := function
  have table' : observation.tableCount < kWasmFieldLimit := table
  simp only [NativeWasmDispatchObservationPayload.toCore, wasmDispatchSample, Vector.toList_replicate, allZero_replicate,
    offset, context, sample, function', table', Bool.true_and, Bool.and_true]
  by_cases walked : observation.callerObserved = true
  · rcases caller with ⟨unknown, zero⟩ | ⟨_, same, named⟩
    · simp [validDirectCaller, walked, unknown, zero]
    · simp [validDirectCaller, walked, same, named]
  · have clear : observation.callerKind = kWasmDirectCallerUnknown ∧
        observation.callerFunctionIndex = 0 := by
      rcases caller with clear | ⟨named, _⟩
      · exact clear
      · exact absurd named walked
    simp [validDirectCaller, walked, clear.1, clear.2, kWasmDirectCallerUnknown]

theorem native_indirect_accepted {observation : NativeWasmIndirectObservation} {event : EventRecord}
    (valid : isValidNativeWasmIndirectInput observation = true)
    (envelope : wasmEnvelope event .wasmIndirectObservation 128 true = true)
    (payload : event.inlinePayload.toList =
      encodeNativeWasmIndirectObservationPayload (wasmIndirectSample observation)) :
    isValidWasmIndirectObservation event = true := by
  obtain ⟨offset, function, table, resolution, callee, resolved, sample, context⟩ :=
    indirect_input_bounds valid
  rw [isValidWasmIndirectObservation, envelope, payload, decode_encodeNativeWasmIndirect]
  simp only [NativeWasmIndirectObservationPayload.toCore, wasmIndirectSample, Vector.toList_replicate, allZero_replicate,
    offset, context, function, table, callee, sample, resolution]
  simpa using resolved

/-- The core's rules, read as propositions. -/
theorem validExecutionOutcome_iff {value : WasmExecutionOutcomePayload} :
    validExecutionOutcome value = true ↔
      (if value.known &&& kWasmExecutionFunctionKnown = 0 then value.functionIndex = 0
        else value.functionIndex < kWasmFieldLimit) ∧
      (if value.known &&& kWasmExecutionOffsetKnown = 0 then value.moduleByteOffset = 0
        else 8 ≤ value.moduleByteOffset ∧ value.moduleByteOffset < kWasmFieldLimit) ∧
      (if value.kind = 1 then value.reason = 0 ∧ value.bounds = 0
        else value.reason < kWasmExecutionReasonCount) ∧
      (if value.reason = 3 then value.bounds < kWasmExecutionBoundsCount else value.bounds = 0) ∧
      (if value.relatedStream = 0 then value.relatedSampleIndex = kWasmExecutionNoSample
        else value.relatedSampleIndex < 16) := by
  simp [validExecutionOutcome, validModuleOffset, and_assoc]

theorem native_execution_accepted {observation : NativeWasmExecutionObservation} {event : EventRecord}
    (valid : isValidNativeWasmExecutionInput observation = true)
    (envelope : wasmEnvelope event .wasmExecutionOutcome 128 true = true)
    (payload : event.inlinePayload.toList =
      encodeNativeWasmExecutionOutcomePayload (wasmExecutionSample observation)) :
    isValidWasmExecutionOutcome event = true := by
  rw [isValidWasmExecutionOutcome, envelope, payload, decode_encodeNativeWasmExecution]
  simp [isValidNativeWasmExecutionInput] at valid
  obtain ⟨⟨⟨⟨⟨⟨_, nonzero⟩, known⟩, kind⟩, stream⟩, context⟩, function, offset, _, reason, bounds,
    related⟩ := valid
  have outcome : validExecutionOutcome (wasmExecutionSample observation).toCore = true :=
    validExecutionOutcome_iff.2 ⟨function, offset, reason, bounds, related⟩
  have context' : isValidJsInvocationContext observation.jsInvocationState
      observation.jsInvocationId = true := context
  show (true && (_ && validExecutionOutcome (wasmExecutionSample observation).toCore)) = true
  rw [outcome]
  simp only [NativeWasmExecutionOutcomePayload.toCore, wasmExecutionSample, allZero_replicate,
    context', kind, stream, known]
  simpa using nonzero

theorem captureWasmDispatch_admitted {host : NativeProbeHostContext}
    {message : WasmDispatchMessage} {observation : NativeWasmDispatchObservation}
    (admitted : captureWasmDispatch host message = .admitted observation) :
    observation.functionIndex < kNativeWasmFunctionIndexLimit ∧
      observation.tableCount < kNativeWasmFunctionIndexLimit ∧
      isValidNativeWasmDispatchInput observation = true := by
  simp only [captureWasmDispatch] at admitted
  generalize (if message.callerObserved then _ else _ : Bool) = callerOk at admitted
  split at admitted
  · cases admitted
  split at admitted
  · cases admitted
  split at admitted
  · cases admitted
  · next limits input =>
    cases admitted
    simp at limits input
    exact ⟨limits.1.2, limits.2, input⟩

theorem captureWasmIndirect_admitted {host : NativeProbeHostContext}
    {message : WasmIndirectMessage} {observation : NativeWasmIndirectObservation}
    (admitted : captureWasmIndirect host message = .admitted observation) :
    isValidNativeWasmIndirectInput observation = true := by
  simp only [captureWasmIndirect] at admitted
  split at admitted
  · cases admitted
  split at admitted
  · cases admitted
  split at admitted
  · cases admitted
  · next input =>
    cases admitted
    simpa using input

def sampleHost : NativeProbeHostContext :=
  { configured := true, wasmCaptureEpoch := 1, sessionActive := true, sessionId := 7
    categoryMask := kWasmCaptureMask, expiresAtMonotonicNs := 1000, rendererPid := some 42, now := 500 }

def sampleEnvelope : WasmMessageEnvelope :=
  { captureEpoch := 1, sessionId := 7, sequenceNumber := 3, monotonicTimeNs := 400, processId := 42
    threadId := 9, frameId := 5, executionContextId := 6, documentTokenHigh := 1
    documentTokenLow := 0, sourceUrl := [104]
    content := wasmMagic ++ [0x0e, 2, 0x11, 0, 1] }

def sampleIndirect : WasmIndirectMessage :=
  { sampleEnvelope with
    functionIndex := 4, moduleByteOffset := 10, tableIndex := 1, slot := 6, calleeFunctionIndex := 8
    resolution := 0, sampleIndex := 2, jsInvocationState := 1, jsInvocationId := 0 }

def sampleEvent (type : EventType) (payload : List UInt8) (size : payload.length = 128) :
    EventRecord :=
  publishedEvent (publishedHeader (wasmObservationHeader sampleEnvelope type) type 21) payload size

/-- `RendererGap` and `EmitRendererGap`, which differ in the time and the tab. -/
def rendererGap (source : EventHeader) (tabId : UInt32) (monotonicTimeNs : UInt64)
    (reason : List UInt8) : EventRecord where
  header :=
    { category := .vm, type := .gap, sessionId := source.sessionId
      processId := source.processId, threadId := source.threadId, frameId := source.frameId, tabId
      sequenceNumber := source.sequenceNumber, monotonicTimeNs
      payloadSize := (min reason.length kInlinePayloadSize).toUInt32 }
  inlinePayload := Vector.ofFn fun index => reason.getD index 0

section

variable (host : NativeProbeHostContext)

/-- The header and the payload that a handler and the sink let through. -/
inductive Admitted : WasmMessageEnvelope → EventHeader → List UInt8 → Prop
  | dispatch {message observation}
      (admitted : captureWasmDispatch host message = .admitted observation) :
      Admitted message.toWasmMessageEnvelope observation.header
        (encodeNativeWasmDispatchObservationPayload (wasmDispatchSample observation))
  | indirect {message observation}
      (admitted : captureWasmIndirect host message = .admitted observation) :
      Admitted message.toWasmMessageEnvelope observation.header
        (encodeNativeWasmIndirectObservationPayload (wasmIndirectSample observation))
  | execution {message observation}
      (admitted : captureWasmExecution host message = .admitted observation)
      (checked : isValidNativeWasmExecutionInput
        { observation with moduleBytes := message.content } = true) :
      Admitted message.toWasmMessageEnvelope observation.header
        (encodeNativeWasmExecutionOutcomePayload (wasmExecutionSample observation))

/-- What leaves the browser for a message: a gap of the host or of the sink, or the record with
the tab of its document and the artifact of its module. -/
inductive Emits (message : WasmMessageEnvelope) (event : EventRecord) : Prop
  | refused {type tabId monotonicTimeNs reason} (listens : hostListens host message = true)
      (gap : event = rendererGap (wasmObservationHeader message type) tabId monotonicTimeNs reason)
  | published {header tabId artifactId} (artifact : artifactId ≠ 0)
      (admitted : Admitted host message header event.inlinePayload.toList)
      (headed : event.header = { publishedHeader header header.type artifactId with tabId })
      (clear : event.reserved = Vector.replicate _ 0)

variable {host} {message : WasmMessageEnvelope}

theorem Admitted.accepted {header : EventHeader} {payload : List UInt8}
    (admitted : Admitted host message header payload) :
    hostListens host message = true ∧ wasmIdentityRefused host message = false ∧
      header = wasmObservationHeader message header.type ∧ isKnownType header.type = true ∧
      ∀ event : EventRecord, wasmEnvelope event header.type 128 true = true →
        event.header.type = header.type → event.inlinePayload.toList = payload →
        isValidTypedPayload event = true := by
  cases admitted with
  | dispatch admitted =>
      obtain ⟨function, table, input⟩ := captureWasmDispatch_admitted admitted
      have accepted (event) := @native_dispatch_accepted _ event function table input
      unfold captureWasmDispatch at admitted
      grind [wasmObservationHeader, WasmDispatchMessage.observation, isKnownType, isValidTypedPayload]
  | indirect admitted =>
      have input := captureWasmIndirect_admitted admitted
      have accepted (event) := @native_indirect_accepted _ event input
      unfold captureWasmIndirect at admitted
      grind [WasmIndirectMessage.observation, wasmObservationHeader, isKnownType, isValidTypedPayload]
  | @execution message observation admitted checked =>
      have accepted (event : EventRecord) (envelope) (payload : event.inlinePayload.toList =
          encodeNativeWasmExecutionOutcomePayload (wasmExecutionSample observation)) :=
        native_execution_accepted checked envelope payload
      unfold captureWasmExecution at admitted
      grind [WasmExecutionMessage.observation, wasmObservationHeader, isKnownType, isValidTypedPayload]

/-- Whatever becomes of a message, the record takes its slot and is valid to the broker.  No
session and no live process has the number zero. -/
theorem emits_fills_slot {event : EventRecord} (emits : Emits host message event)
    (session : host.sessionId ≠ 0) (process : host.rendererPid ≠ some 0) :
    isValidEvent event = true ∧ event.header.sequenceNumber = message.sequenceNumber ∧
      event.header.sessionId = host.sessionId ∧ host.rendererPid = some event.header.processId := by
  have listened (listens : hostListens host message = true) :
      message.sequenceNumber ≠ 0 ∧ message.sessionId = host.sessionId ∧
        host.rendererPid = some message.processId := by
    simp [hostListens] at listens
    exact ⟨listens.2.2, listens.1.1.1.2, listens.2.1⟩
  cases emits with
  | @refused _ _ _ reason listens gap =>
      have short : (min reason.length kInlinePayloadSize).toUInt32.toNat ≤ kInlinePayloadSize :=
        (Nat.mod_le _ _).trans (Nat.min_le_right _ _)
      subst gap
      refine ⟨?_, rfl, (listened listens).2⟩
      simp [isValidEvent, rendererGap, isValidTypedPayload]
      exact ⟨⟨⟨short, rfl⟩, rfl⟩, rfl⟩
  | published artifact admitted headed clear =>
      obtain ⟨listens, identified, same, known, typed⟩ := admitted.accepted
      obtain ⟨sequence, ours, its⟩ := listened listens
      rw [same] at headed
      refine ⟨?_, by rw [headed]; rfl, by rw [headed]; exact ⟨ours, its⟩⟩
      have session' : message.sessionId ≠ 0 := ours ▸ session
      have process' : message.processId ≠ 0 := fun zero => process (by rw [its, zero])
      simp [wasmIdentityRefused] at identified
      obtain ⟨⟨⟨⟨time, _⟩, thread⟩, frame⟩, _⟩ := identified
      have valid := typed event (by simp [wasmEnvelope, headed, publishedHeader,
        wasmObservationHeader, session', process', time, thread, frame, sequence, artifact])
        (by rw [headed]; rfl) rfl
      simp [isValidEvent, valid, headed, publishedHeader, wasmObservationHeader, known, clear]
      decide

end

theorem emits_fills_slot_sample :
    isValidEvent (sampleEvent .wasmIndirectObservation (encodeNativeWasmIndirectObservationPayload
      (wasmIndirectSample sampleIndirect.observation)) (by simp)) = true :=
  (emits_fills_slot (@Emits.published sampleHost _ _ sampleIndirect.observation.header 0 21
    (by decide) (@Admitted.indirect _ sampleIndirect _ (by decide +kernel)) rfl rfl) (by decide)
    (by decide)).1

end Reb.Capture
