/-
# Evidence.ArtifactRoundTrip -- the reader admits what the writer writes

Each part of a record reads back as what was written, whatever the texts contain;
what is left is the rules on the fields (`recordAdmitted_written`).  They agree
with the header's but for one pair: a canvas data URL without an execution context
has a valid header and a record that is refused.
-/
import Reb.Evidence.Artifact
import Reb.Analysis.Utf8

namespace Reb.Evidence

set_option autoImplicit false

open Theory.Decimal

/-! ## Fields -/

theorem consumePrefix_append (text : String) (rest : List UInt8) :
    consumePrefix text (ascii text ++ rest) = some rest :=
  dropPrefix?_append _ _

theorem fieldUpTo_append {mark : String} {first : UInt8} {front rest : List UInt8}
    (opens : (ascii mark).head? = some first) (absent : first ∉ front) :
    fieldUpTo mark (front ++ (ascii mark ++ rest)) = some (front, rest) := by
  obtain ⟨tail, split⟩ := List.head?_eq_some_iff.1 opens
  rw [fieldUpTo, split]
  exact dropInfix?_of_notMem absent

theorem parseUnsignedField_append {mark : String} {first : UInt8} (n : UInt64)
    (rest : List UInt8) (opens : (ascii mark).head? = some first) (notDigit : isDigit first = false) :
    parseUnsignedField mark (decimal n.toNat ++ (ascii mark ++ rest)) = some (n, rest) := by
  have small : n.toNat < UInt64.size := n.toNat_lt
  rw [parseUnsignedField, fieldUpTo_append opens (notMem_decimal notDigit _)]
  simp [fromDecimal_decimal, small]

/-! ## Texts -/

theorem isLowercaseHex_hexDigit {value : UInt8} (small : value.toNat < 16) :
    isLowercaseHex (hexDigit value) = true := by
  have table : ∀ n < 16, isLowercaseHex ((ascii "0123456789abcdef").getD n 0) = true := by decide
  exact table _ small

theorem high_nibble_lt (byte : UInt8) : (byte >>> 4).toNat < 16 := by
  have := byte.toNat_lt
  rw [UInt8.toNat_shiftRight, Nat.shiftRight_eq_div_pow]
  show byte.toNat / 2 ^ 4 < 16
  omega

theorem low_nibble_lt (byte : UInt8) : (byte &&& 0x0f).toNat < 16 := by
  rw [UInt8.toNat_and]
  exact Nat.lt_succ_of_le Nat.and_le_right

theorem digestHex_all (digest : List UInt8) : ∀ byte ∈ digestHex digest, isLowercaseHex byte := by
  intro byte member
  obtain ⟨b, -, inPair⟩ := List.mem_flatMap.1 member
  rcases List.mem_pair.1 inPair with rfl | rfl
  · exact isLowercaseHex_hexDigit (high_nibble_lt b)
  · exact isLowercaseHex_hexDigit (low_nibble_lt b)

theorem digestHex_length (digest : List UInt8) : (digestHex digest).length = 2 * digest.length := by
  rw [digestHex, List.length_flatMap]
  simp [Nat.mul_comm]

theorem skipJsonString_quote (rest : List UInt8) : skipJsonString (0x22 :: rest) = some rest := by
  rw [skipJsonString.eq_def]
  simp

theorem skipJsonString_plain {character : UInt8} (rest : List UInt8) (quote : character ≠ 0x22)
    (backslash : character ≠ 0x5c) (printable : ¬ character < 0x20) :
    skipJsonString (character :: rest) = skipJsonString rest := by
  rw [skipJsonString.eq_def]
  simp [quote, backslash, printable]

theorem skipJsonString_escaped {escape : UInt8} (rest : List UInt8)
    (short : escape ∈ ascii "\"\\/bfnrt") :
    skipJsonString (0x5c :: escape :: rest) = skipJsonString rest := by
  have notUnicode : escape ≠ 0x75 := by
    rintro rfl
    exact absurd short (by decide)
  rw [skipJsonString.eq_def]
  simp [notUnicode, short]

theorem skipJsonString_unicode {a b c d : UInt8} (rest : List UInt8)
    (hex : [a, b, c, d].all isLowercaseHex = true) :
    skipJsonString (0x5c :: 0x75 :: a :: b :: c :: d :: rest) = skipJsonString rest := by
  rw [skipJsonString.eq_def]
  simp only [hex]
  rfl

theorem skipJsonString_escapeByte (character : UInt8) (rest : List UInt8) :
    skipJsonString (jsonEscapeByte character ++ rest) = skipJsonString rest := by
  rw [jsonEscapeByte]
  split_ifs with quote backslash b f n r t control
  · exact skipJsonString_escaped rest (by decide)
  · exact skipJsonString_escaped rest (by decide)
  · exact skipJsonString_escaped rest (by decide)
  · exact skipJsonString_escaped rest (by decide)
  · exact skipJsonString_escaped rest (by decide)
  · exact skipJsonString_escaped rest (by decide)
  · exact skipJsonString_escaped rest (by decide)
  · have high := isLowercaseHex_hexDigit (high_nibble_lt character)
    have low := isLowercaseHex_hexDigit (low_nibble_lt character)
    refine skipJsonString_unicode rest ?_
    simp only [List.all_cons, List.all_nil, high, low]
    rfl
  · exact skipJsonString_plain rest quote backslash control

/-- A string reads back up to its closing quote. -/
theorem skipJsonString_escape (text rest : List UInt8) :
    skipJsonString (jsonEscape text ++ (ascii "\"" ++ rest)) = some rest := by
  induction text with
  | nil => exact skipJsonString_quote rest
  | cons character text ih =>
      rw [jsonEscape, List.flatMap_cons, List.append_assoc, skipJsonString_escapeByte]
      exact ih

/-! ## Names -/

theorem originName_mem {origin : ArtifactCaptureOrigin} (valid : validOrigin origin = true) :
    ascii (artifactCaptureOriginName origin) ∈ recordedOrigins.map ascii := by
  refine List.mem_map_of_mem ?_
  cases origin with
  | unnamed value => simp [validOrigin] at valid
  | _ => simp [recordedOrigins, artifactCaptureOriginName]

theorem kindName_mem {kind : ArtifactKind} (valid : validKind kind = true) :
    ascii (artifactKindName kind) ∈ recordedKinds.map ascii := by
  refine List.mem_map_of_mem ?_
  cases kind with
  | kUnknown => simp [validKind] at valid
  | unnamed value => simp [validKind] at valid
  | _ => simp [recordedKinds, artifactKindName]

theorem originName_notMem (origin : ArtifactCaptureOrigin) :
    (0x22 : UInt8) ∉ ascii (artifactCaptureOriginName origin) := by
  cases origin with
  | unnamed value => exact show (0x22 : UInt8) ∉ ascii "unknown" by decide
  | _ => decide

theorem kindName_notMem (kind : ArtifactKind) : (0x22 : UInt8) ∉ ascii (artifactKindName kind) := by
  cases kind with
  | unnamed value => exact show (0x22 : UInt8) ∉ ascii "unknown" by decide
  | _ => decide

/-- Named origins have different names. -/
theorem originName_beq {origin named : ArtifactCaptureOrigin} (valid : validOrigin origin = true)
    (isNamed : validOrigin named = true) :
    (ascii (artifactCaptureOriginName origin) == ascii (artifactCaptureOriginName named)) =
      (origin == named) := by
  have unnamed : ∀ value, validOrigin (.unnamed value) = false := by simp [validOrigin]
  cases origin with
  | unnamed value => simp [unnamed] at valid
  | _ =>
      cases named with
      | unnamed value => simp [unnamed] at isNamed
      | _ => decide

theorem kindName_beq {kind named : ArtifactKind} (valid : validKind kind = true)
    (isNamed : validKind named = true) :
    (ascii (artifactKindName kind) == ascii (artifactKindName named)) = (kind == named) := by
  have unnamed : ∀ value, validKind (.unnamed value) = false := by simp [validKind]
  cases kind with
  | unnamed value => simp [unnamed] at valid
  | kUnknown => simp [validKind] at valid
  | _ =>
      cases named with
      | unnamed value => simp [unnamed] at isNamed
      | _ => decide

theorem originName_webassembly {origin : ArtifactCaptureOrigin}
    (valid : validOrigin origin = true) :
    (ascii "webassembly_").isPrefixOf (ascii (artifactCaptureOriginName origin)) =
      (origin == .kWebAssemblyCompile || origin == .kWebAssemblyModule ||
        origin == .kWebAssemblyInstantiate) := by
  cases origin with
  | unnamed value => simp [validOrigin] at valid
  | _ => decide

theorem originName_beq_nil (origin : ArtifactCaptureOrigin) :
    (ascii (artifactCaptureOriginName origin) == []) = false := by
  cases origin with
  | unnamed value => exact show (ascii "unknown" == []) = false by decide
  | _ => decide

/-! ## The rules, twice -/

/-- What a valid header says of the fields a record repeats. -/
structure HeaderRules (header : ArtifactHeader) : Prop where
  artifactId : header.artifactId ≠ 0
  sessionId : header.sessionId ≠ 0
  kind : validKind header.kind = true
  origin : validOrigin header.captureOrigin = true
  compatible : compatibleOrigin header.kind header.captureOrigin = true
  context : runtimeHasContext header.captureOrigin header.executionContextId = true
  request : (header.kind == .kRequestBody) = (header.captureOrigin == .kNetworkRequest)
  requestCreator : header.captureOrigin = .kNetworkRequest →
    header.executionContextId = 0 ∧ header.creatorEventId ≠ 0
  adapter : header.kind = .kWasmGuestAdapter → header.captureOrigin = .kNativeWasmGuest
  guest : header.captureOrigin = .kNativeWasmGuest →
    header.frameId ≠ 0 ∧ header.parentArtifactId ≠ 0 ∧ header.creatorEventId ≠ 0
  sensitive : (header.kind == .kResponseBody || header.kind == .kCanvasDataUrl ||
    header.kind == .kRequestBody) = header.sensitive

theorem header_rules {header : ArtifactHeader} (valid : isValidArtifactHeader header = true) :
    HeaderRules header := by
  simp only [isValidArtifactHeader] at valid
  split at valid
  · exact absurd valid Bool.false_ne_true
  next fields =>
  split at valid
  · exact absurd valid Bool.false_ne_true
  next guest =>
  split at valid
  · exact absurd valid Bool.false_ne_true
  next sensitive =>
  split at valid
  · exact absurd valid Bool.false_ne_true
  next request =>
  simp only [Bool.and_eq_true] at valid
  obtain ⟨⟨⟨kind, origin⟩, compatible⟩, context⟩ := valid
  simp only [Bool.or_eq_true, Bool.and_eq_true, beq_iff_eq, bne_iff_ne, not_or, not_and,
    ne_eq, not_not] at fields guest sensitive request
  exact
    { artifactId := fields.1.1.1.1.1.1.1.1.2
      sessionId := fields.1.1.1.1.1.1.1.1.1.2
      kind, origin, compatible, context
      request := request.1
      requestCreator := request.2
      adapter := guest.1
      guest := fun isGuest => and_assoc.1 (guest.2 isGuest)
      sensitive }

/-- A record of a valid header is admitted but for a canvas data URL without a context. -/
theorem recordAdmitted_written {header : ArtifactHeader} (rules : HeaderRules header) :
    recordAdmitted
        { artifactId := header.artifactId, sessionId := header.sessionId, frameId := header.frameId
          parentArtifactId := header.parentArtifactId, creatorEventId := header.creatorEventId }
        header.executionContextId (ascii (artifactCaptureOriginName header.captureOrigin))
        (ascii (artifactKindName header.kind)) =
      !(header.captureOrigin == .kCanvasToDataUrl && header.executionContextId == 0) := by
  obtain ⟨-, -, kind, origin, compatible, context, request, requestCreator, adapter, guest, -⟩ :=
    rules
  have kindIs : ∀ named, validKind named = true → (ascii (artifactKindName header.kind) ==
      ascii (artifactKindName named)) = (header.kind == named) := fun _ => kindName_beq kind
  have originIs : ∀ named, validOrigin named = true →
      (ascii (artifactCaptureOriginName header.captureOrigin) ==
        ascii (artifactCaptureOriginName named)) = (header.captureOrigin == named) :=
    fun _ => originName_beq origin
  simp only [recordAdmitted, bne, originName_webassembly origin, originName_beq_nil,
    show ascii "request_body" = ascii (artifactKindName .kRequestBody) from rfl,
    show ascii "javascript" = ascii (artifactKindName .kJavaScript) from rfl,
    show ascii "wasm" = ascii (artifactKindName .kWasm) from rfl,
    show ascii "canvas_data_url" = ascii (artifactKindName .kCanvasDataUrl) from rfl,
    show ascii "bytecode_buffer" = ascii (artifactKindName .kBytecodeBuffer) from rfl,
    show ascii "wasm_guest_adapter" = ascii (artifactKindName .kWasmGuestAdapter) from rfl,
    show ascii "unknown" = ascii (artifactCaptureOriginName .kUnknown) from rfl,
    show ascii "network_response" = ascii (artifactCaptureOriginName .kNetworkResponse) from rfl,
    show ascii "network_request" = ascii (artifactCaptureOriginName .kNetworkRequest) from rfl,
    show ascii "dynamic_javascript" =
      ascii (artifactCaptureOriginName .kDynamicJavaScript) from rfl,
    show ascii "runtime_allocating_script" =
      ascii (artifactCaptureOriginName .kRuntimeAllocatingScript) from rfl,
    show ascii "canvas_to_data_url" = ascii (artifactCaptureOriginName .kCanvasToDataUrl) from rfl,
    show ascii "runtime_typed_array" =
      ascii (artifactCaptureOriginName .kRuntimeTypedArray) from rfl,
    show ascii "native_wasm_guest" = ascii (artifactCaptureOriginName .kNativeWasmGuest) from rfl]
  simp (disch := decide) only [kindIs, originIs]
  clear kindIs originIs
  generalize header.kind = k at *
  generalize header.captureOrigin = o at *
  cases o <;> cases k <;> simp_all [validKind, validOrigin, compatibleOrigin, runtimeHasContext, beq_eq_decide]

/-! ## The parts of a record -/

theorem parseIdentity_written {artifactId sessionId : UInt64} (navigationId frameId
    parentArtifactId creatorEventId : UInt64) (rest : List UInt8) (artifact : artifactId ≠ 0)
    (session : sessionId ≠ 0) :
    parseIdentity (ascii "\x7b\"protocol_version\":1,\"artifact_id\":\"" ++
      (decimal artifactId.toNat ++ (ascii "\",\"session_id\":\"" ++
      (decimal sessionId.toNat ++ (ascii "\",\"navigation_id\":\"" ++
      (decimal navigationId.toNat ++ (ascii "\",\"frame_id\":\"" ++
      (decimal frameId.toNat ++ (ascii "\",\"parent_artifact_id\":\"" ++
      (decimal parentArtifactId.toNat ++ (ascii "\",\"creator_event_id\":\"" ++
      (decimal creatorEventId.toNat ++ (ascii "\"" ++ rest))))))))))))) =
    some ({ artifactId, sessionId, frameId, parentArtifactId, creatorEventId }, rest) := by
  have field : ∀ (mark : String) (n : UInt64) (rest : List UInt8),
      (ascii mark).head? = some 0x22 →
      parseUnsignedField mark (decimal n.toNat ++ (ascii mark ++ rest)) = some (n, rest) :=
    fun _ n rest opens => parseUnsignedField_append n rest opens rfl
  simp only [parseIdentity, consumePrefix_append, Option.bind_eq_bind, Option.bind_some]
  rw [field _ _ _ rfl, Option.bind_some]
  simp only [artifact, ne_eq, not_false_eq_true, guard_true, Option.pure_def, Option.bind_some]
  rw [field _ _ _ rfl, Option.bind_some]
  simp only [session, not_false_eq_true, guard_true, Option.pure_def, Option.bind_some]
  rw [field _ _ _ rfl, Option.bind_some, field _ _ _ rfl, Option.bind_some, field _ _ _ rfl,
    Option.bind_some, field _ _ _ rfl, Option.bind_some]

theorem parseOrigin_written {origin : ArtifactCaptureOrigin} (executionContextId : UInt64)
    (rest : List UInt8) (valid : validOrigin origin = true) :
    parseOrigin (ascii ",\"execution_context_id\":\"" ++ (decimal executionContextId.toNat ++
      (ascii "\",\"capture_origin\":\"" ++ (ascii (artifactCaptureOriginName origin) ++
      (ascii "\",\"kind\":\"" ++ rest))))) =
    some (executionContextId, ascii (artifactCaptureOriginName origin), rest) := by
  have opens : (ascii "\",\"kind\":\"").head? = some 0x22 := rfl
  simp only [parseOrigin, consumePrefix_append, Option.bind_eq_bind]
  rw [parseUnsignedField_append _ _ rfl rfl, Option.bind_some,
    fieldUpTo_append opens (originName_notMem origin), Option.bind_some]
  simp only [originName_mem valid, guard_true, Option.pure_def, Option.bind_some]

theorem parseKind_written {kind : ArtifactKind} (rest : List UInt8) (valid : validKind kind = true) :
    parseKind (ascii (artifactKindName kind) ++ (ascii "\",\"url\":\"" ++ rest)) =
      some (ascii (artifactKindName kind), rest) := by
  have opens : (ascii "\",\"url\":\"").head? = some 0x22 := rfl
  simp only [parseKind, Option.bind_eq_bind]
  rw [fieldUpTo_append opens (kindName_notMem kind), Option.bind_some]
  simp only [kindName_mem valid, guard_true, Option.pure_def, Option.bind_some]

theorem parseSensitive_written (sensitive : Bool) (rest : List UInt8) :
    parseSensitive (ascii (if sensitive then "true" else "false") ++ rest) =
      some (sensitive, rest) := by
  cases sensitive with
  | true =>
      show parseSensitive (ascii "true" ++ rest) = some (true, rest)
      rw [parseSensitive, consumePrefix_append]
  | false =>
      have notTrue : consumePrefix "true" (ascii "false" ++ rest) = none := rfl
      show parseSensitive (ascii "false" ++ rest) = some (false, rest)
      rw [parseSensitive, notTrue, consumePrefix_append]
      rfl

theorem parseContent_written {kind digest : List UInt8} {sensitive : Bool}
    (url mimeType : List UInt8) (contentSize : UInt64) (size : digest.length = 32)
    (ofKind : (kind == ascii "response_body" || kind == ascii "canvas_data_url" ||
      kind == ascii "request_body") = sensitive) :
    parseContent kind (jsonEscape url ++ (ascii "\"" ++ (ascii ",\"mime_type\":\"" ++
      (jsonEscape mimeType ++ (ascii "\"" ++ (ascii ",\"byte_size\":" ++
      (decimal contentSize.toNat ++ (ascii ",\"sha256\":\"" ++
      (digestHex digest ++ (ascii "\"" ++ (ascii ",\"sensitive\":" ++
      (ascii (if sensitive then "true" else "false") ++
      (ascii ",\"content_path\":\"blobs/" ++ (digestHex digest ++
      ascii ".bin\"\x7d")))))))))))))) = some () := by
  have length : (digestHex digest).length = 64 := by rw [digestHex_length, size]
  have hex : (digestHex digest).all isLowercaseHex = true := List.all_eq_true.2 (digestHex_all digest)
  have unquoted : (0x22 : UInt8) ∉ digestHex digest :=
    fun member => absurd (digestHex_all digest _ member) (by decide)
  have opens : (ascii "\"").head? = some 0x22 := rfl
  simp only [parseContent, skipJsonString_escape, consumePrefix_append, Option.bind_eq_bind,
    Option.bind_some]
  rw [parseUnsignedField_append _ _ rfl rfl, Option.bind_some, fieldUpTo_append opens unquoted,
    Option.bind_some]
  have taken : (digestHex digest ++ ascii ".bin\"\x7d").take 64 = digestHex digest := by
    rw [List.take_append_of_le_length (by rw [length]), List.take_of_length_le (by rw [length])]
  have dropped : (digestHex digest ++ ascii ".bin\"\x7d").drop 64 = ascii ".bin\"\x7d" := by
    rw [List.drop_append, length, List.drop_of_length_le (by rw [length])]
    rfl
  simp only [length, hex, and_self, guard_true, consumePrefix_append, parseSensitive_written,
    ofKind, taken, dropped, Option.pure_def, Option.bind_some]

/-- A record read back: its rules decide, whatever its texts and digest are. -/
theorem parseManifestRecord_written {header : ArtifactHeader} {digest : List UInt8}
    (rules : HeaderRules header) (url mimeType : List UInt8) (size : digest.length = 32) :
    parseManifestRecord (manifestRecord header url mimeType digest) =
      if header.captureOrigin = .kCanvasToDataUrl ∧ header.executionContextId = 0 then none
      else some (header.artifactId, header.sessionId) := by
  have context : ascii "\",\"execution_context_id\":\"" =
      ascii "\"" ++ ascii ",\"execution_context_id\":\"" := rfl
  have mime : ascii "\",\"mime_type\":\"" = ascii "\"" ++ ascii ",\"mime_type\":\"" := rfl
  have byteSize : ascii "\",\"byte_size\":" = ascii "\"" ++ ascii ",\"byte_size\":" := rfl
  have sensitive : ascii "\",\"sensitive\":" = ascii "\"" ++ ascii ",\"sensitive\":" := rfl
  have kindIs : ∀ named, validKind named = true → (ascii (artifactKindName header.kind) ==
      ascii (artifactKindName named)) = (header.kind == named) := fun _ => kindName_beq rules.kind
  have ofKind : (ascii (artifactKindName header.kind) == ascii "response_body" ||
      ascii (artifactKindName header.kind) == ascii "canvas_data_url" ||
      ascii (artifactKindName header.kind) == ascii "request_body") = header.sensitive := by
    rw [← rules.sensitive, ← kindIs .kResponseBody rfl, ← kindIs .kCanvasDataUrl rfl,
      ← kindIs .kRequestBody rfl]
    rfl
  delta manifestRecord
  simp only [context, mime, byteSize, sensitive, List.append_assoc]
  simp only [parseManifestRecord, Option.bind_eq_bind]
  rw [parseIdentity_written _ _ _ _ _ rules.artifactId rules.sessionId, Option.bind_some]
  simp only [parseOrigin_written _ _ rules.origin, parseKind_written _ rules.kind,
    recordAdmitted_written rules, parseContent_written url mimeType _ size ofKind, Option.bind_some]
  by_cases refused : header.captureOrigin = .kCanvasToDataUrl ∧ header.executionContextId = 0
  · simp [refused]
  · simp [refused, guard_true, not_and_or.1 refused]

/-! ## The round trip -/

/-- A record of a valid header reads back as its identifiers, but for a canvas data URL
without an execution context. -/
theorem manifest_round_trip {header : ArtifactHeader} {digest : List UInt8}
    (url mimeType : List UInt8) (valid : isValidArtifactHeader header = true)
    (size : digest.length = 32) :
    parseManifestRecord (manifestRecord header url mimeType digest) =
        some (header.artifactId, header.sessionId) ↔
      ¬ (header.captureOrigin = .kCanvasToDataUrl ∧ header.executionContextId = 0) := by
  rw [parseManifestRecord_written (header_rules valid) url mimeType size]
  by_cases refused : header.captureOrigin = .kCanvasToDataUrl ∧ header.executionContextId = 0
  · simp [refused]
  · simp [refused]

/-- A canvas data URL captured in a known execution context. -/
def canvasHeader : ArtifactHeader :=
  { kind := .kCanvasDataUrl, captureOrigin := .kCanvasToDataUrl, flags := 1, sessionId := 7
    artifactId := 9, urlSize := 1, mimeTypeSize := 1, executionContextId := 3 }

theorem manifest_round_trip_canvas :
    parseManifestRecord (manifestRecord canvasHeader [0x61] [0x62] (List.replicate 32 0xab)) =
        some (canvasHeader.artifactId, canvasHeader.sessionId) :=
  (manifest_round_trip [0x61] [0x62] (by decide) (by decide)).2 (by decide)

/-- The same header without a context is valid, and its record is refused. -/
theorem canvas_without_context_refused :
    isValidArtifactHeader { canvasHeader with executionContextId := 0 } = true ∧
      isValidUtf8 [0x61] = true ∧ isValidUtf8 [0x62] = true ∧
      parseManifestRecord (manifestRecord { canvasHeader with executionContextId := 0 } [0x61]
        [0x62] (List.replicate 32 0xab)) = none := by
  decide +kernel

end Reb.Evidence
