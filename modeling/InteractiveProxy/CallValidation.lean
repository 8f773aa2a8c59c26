import InteractiveProxy.CallRecord
import InteractiveProxy.GuardedRun

/-! Validation of a call: its size limits, the shape of its parts, items and tools, and which
authorities exclude each other. -/
namespace InteractiveProxy.Lipapi

open GoText GuardedRun JsonPieces

/-- What the standard library computes and this development does not model: JSON decoding and full
case mapping. `decodeType` reads the member `type` of an object, and `keys` the member names of all
objects of a value, at any depth. -/
structure Library extends JsonLibrary where
  valid : GoStr → Bool
  decodeString : GoStr → Option GoStr
  decodeType : GoStr → Option GoStr
  keys : GoStr → Option (List GoStr)
  toLower : GoStr → GoStr

def maxCallIDBytes : ℕ := 512
def maxRouteSelectorBytes : ℕ := 64 * 1024
def maxClientSessionIDBytes : ℕ := 4 * 1024
def maxContinuityKeyBytes : ℕ := 4 * 1024
def maxALegIDBytes : ℕ := 4 * 1024
def maxAuthoritativeSessionIDBytes : ℕ := 4 * 1024
def maxResumeTokenBytes : ℕ := 8 * 1024
def maxMessages : ℕ := 4096
def maxInstructionMessages : ℕ := 1024
def maxPartsPerMessage : ℕ := 2048
def maxTools : ℕ := 2048
def maxToolNameBytes : ℕ := 256
def maxToolDescriptionBytes : ℕ := 32 * 1024
def maxToolParametersBytes : ℕ := 256 * 1024
def maxExtensionKeys : ℕ := 256
def maxExtensionKeyBytes : ℕ := 256
def maxExtensionValueBytes : ℕ := 4 * 1024 * 1024
def maxPartTextBytes : ℕ := 8 * 1024 * 1024
def maxPartJSONBytes : ℕ := 8 * 1024 * 1024
def maxRefStringBytes : ℕ := 8 * 1024
def maxFileDataBytes : ℕ := maxPartTextBytes
def maxReasoningDialectBytes : ℕ := maxRefStringBytes
def maxReasoningTextBytes : ℕ := maxPartTextBytes
def maxReasoningSignatureBytes : ℕ := maxRefStringBytes
def maxReasoningOpaqueBytes : ℕ := maxPartJSONBytes
def maxReasoningBytesPerCall : ℕ := maxPartTextBytes
def maxItems : ℕ := 4096
def maxItemReferenceIDBytes : ℕ := 512
def maxCompactionDialectBytes : ℕ := 8192
def maxCompactionEncryptedContentBytes : ℕ := maxPartJSONBytes
def maxExtensionNamespaceBytes : ℕ := 256
def maxExtensionTypeBytes : ℕ := 256
def maxExtensionImplementorBytes : ℕ := 256
def maxExtensionDirectionBytes : ℕ := 64
def maxExtensionDataBytes : ℕ := 4 * 1024 * 1024
def maxSemanticExtensions : ℕ := 64
def maxSemanticExtensionDataBytes : ℕ := maxExtensionDataBytes
def maxContentPartsPerItem : ℕ := 2048
def maxJSONDepth : ℕ := 64
def maxOptionStringBytes : ℕ := 4 * 1024
def maxInt32 : ℤ := 2147483647

variable (field : GoStr)

def fieldIndex (i : ℕ) : GoStr := field ++ lit "[" ++ formatNat i ++ lit "]"

def bytesLimit (text : String) (maxLen : ℕ) : GoStr :=
  lit text ++ lit " exceeds " ++ formatNat maxLen ++ lit " bytes"

def RawMessage.len (value : RawMessage) : ℕ := (value.getD []).length

structure DepthState where
  depth : ℤ
  inString : Bool
  escaped : Bool

def depthStep (maxDepth : ℕ) (s : DepthState) (b : UInt8) : Except GoStr DepthState :=
  if s.inString then
    if s.escaped then .ok { s with escaped := false }
    else if b = 0x5C then .ok { s with escaped := true }
    else if b = 0x22 then .ok { s with inString := false }
    else .ok s
  else if b = 0x22 then .ok { s with inString := true }
  else if b = 0x7B ∨ b = 0x5B then
    if s.depth + 1 > maxDepth then
      .error (lit "exceeds maximum JSON depth of " ++ formatNat maxDepth)
    else .ok { s with depth := s.depth + 1 }
  else if b = 0x7D ∨ b = 0x5D then
    if s.depth - 1 < 0 then .error (lit "malformed JSON structure")
    else .ok { s with depth := s.depth - 1 }
  else .ok s

def validateJSONDepth (data : GoStr) (maxDepth : ℕ) : Except GoStr Unit :=
  (data.foldlM (depthStep maxDepth) ⟨0, false, false⟩).map fun _ => ()

def validateStringField (name s : GoStr) (maxLen : ℕ) : Except ValidationError Unit :=
  if maxLen = 0 then .ok ()
  else reject (s.length > maxLen) ⟨name, lit "exceeds " ++ formatNat maxLen ++ lit " bytes"⟩

def validateExactStringField (name s : GoStr) (maxLen : ℕ) : Except ValidationError Unit := do
  validateStringField name s maxLen
  reject (s ≠ [] ∧ s ≠ trimSpace s) ⟨name, lit "must not contain leading or trailing whitespace"⟩

variable (lib : Library)

def validateRawField (field : GoStr) (invalid : String) (value : RawMessage) :
    Except ValidationError Unit :=
  if value.len = 0 then .ok ()
  else do
    reject (lib.valid (value.getD []) = false) ⟨field, lit invalid⟩
    (validateJSONDepth (value.getD []) maxJSONDepth).mapError fun text => ⟨field, text⟩

def normalizeReasoningDialect (d : GoStr) : GoStr := lib.toLower (trimSpace d)

-- The source checks summary and content in the order of a map, which is not fixed.
def validateReasoningPart : Option ReasoningPart → Except GoStr Unit
  | none => .error (lit "reasoning part requires Reasoning")
  | some rp => do
    let normalized := normalizeReasoningDialect lib rp.dialect
    reject (normalized = []) (lit "reasoning dialect is required")
    reject (normalized.length > maxReasoningDialectBytes)
      (bytesLimit "reasoning dialect" maxReasoningDialectBytes)
    reject (rp.dialect ≠ normalized) (lit "reasoning dialect must be normalized")
    reject (rp.text = [] ∧ rp.signature = [] ∧ RawMessage.len rp.opaqueValue = 0 ∧ RawMessage.len rp.summary = 0 ∧
        RawMessage.len rp.content = 0 ∧ rp.encryptedContentPresent = false)
      (lit "reasoning payload requires at least one reasoning field")
    reject (RawMessage.len rp.summary ≠ 0 ∧ lib.valid (rp.summary.getD []) = false)
      (lit "reasoning summary must be valid JSON")
    reject (RawMessage.len rp.content ≠ 0 ∧ lib.valid (rp.content.getD []) = false)
      (lit "reasoning content must be valid JSON")
    reject (rp.encryptedContentPresent ∧ RawMessage.len rp.encryptedContent ≠ 0 ∧
        lib.valid (rp.encryptedContent.getD []) = false)
      (lit "reasoning encrypted_content must be valid JSON")
    reject (rp.text.length > maxReasoningTextBytes)
      (bytesLimit "reasoning text" maxReasoningTextBytes)
    reject (rp.signature.length > maxReasoningSignatureBytes)
      (bytesLimit "reasoning signature" maxReasoningSignatureBytes)
    reject (RawMessage.len rp.opaqueValue > maxReasoningOpaqueBytes)
      (bytesLimit "reasoning opaque" maxReasoningOpaqueBytes)
    reject (RawMessage.len rp.summary > maxPartJSONBytes ∨ RawMessage.len rp.content > maxPartJSONBytes ∨
        RawMessage.len rp.encryptedContent > maxPartJSONBytes)
      (bytesLimit "reasoning exact metadata" maxPartJSONBytes)
    reject (RawMessage.len rp.opaqueValue ≠ 0 ∧ lib.valid (rp.opaqueValue.getD []) = false)
      (lit "reasoning opaque must be valid JSON")

def reasoningPayloadBytes : Option ReasoningPart → ℕ
  | none => 0
  | some rp => rp.text.length + rp.signature.length + RawMessage.len rp.opaqueValue +
      RawMessage.len rp.summary +
      RawMessage.len rp.content + RawMessage.len rp.encryptedContent

def Part.validate (p : Part) : Except GoStr Unit := do
  reject (p.reasoning.isSome ∧ p.kind ≠ .reasoning)
    (lit "reasoning is only allowed when Kind is reasoning")
  match p.kind with
  | .text => reject (p.text = []) (lit "text part requires non-empty Text")
  | .imageRef => reject (p.imageRef = []) (lit "image_ref part requires ImageRef")
  | .fileRef => reject (p.fileRef = []) (lit "file_ref part requires FileRef")
  | .toolResult => reject (p.toolCallID = []) (lit "tool_result part requires ToolCallID")
  | .json => do
    reject (RawMessage.len p.content = 0) (lit "json part requires Content")
    reject (lib.valid (p.content.getD []) = false) (lit "json part Content must be valid JSON")
  | .reasoning => do
    reject (p.text ≠ [] ∨ p.imageRef ≠ [] ∨ p.imageMIME ≠ [] ∨ p.fileRef ≠ [] ∨ p.fileMIME ≠ [] ∨
        p.fileName ≠ [] ∨ p.toolCallID ≠ [] ∨ p.toolName ≠ [] ∨ RawMessage.len p.content ≠ 0)
      (lit "reasoning part must not set unrelated part fields")
    validateReasoningPart lib p.reasoning
  | .other name =>
    if name = [] then .error (lit "part kind is required")
    else .error (lit "unknown part kind " ++ name)

def validatePartKindSizes (p : Part) : Except ValidationError Unit :=
  match p.kind with
  | .text => reject (p.text.length > maxPartTextBytes)
    ⟨field ++ lit ".Text", bytesLimit "text" maxPartTextBytes⟩
  | .imageRef => do
    validateStringField (field ++ lit ".ImageRef") p.imageRef maxRefStringBytes
    validateStringField (field ++ lit ".ImageMIME") p.imageMIME maxRefStringBytes
  | .fileRef => do
    validateStringField (field ++ lit ".FileRef") p.fileRef maxRefStringBytes
    validateStringField (field ++ lit ".FileMIME") p.fileMIME maxRefStringBytes
    validateStringField (field ++ lit ".FileName") p.fileName maxRefStringBytes
  | .toolResult => do
    validateStringField (field ++ lit ".ToolCallID") p.toolCallID maxRefStringBytes
    validateExactStringField (field ++ lit ".ToolName") p.toolName maxToolNameBytes
    reject (RawMessage.len p.content > maxPartJSONBytes)
      ⟨field ++ lit ".Content", bytesLimit "content" maxPartJSONBytes⟩
  | .json => reject (RawMessage.len p.content > maxPartJSONBytes)
      ⟨field ++ lit ".Content", bytesLimit "content" maxPartJSONBytes⟩
  | .reasoning =>
    match p.reasoning with
    | none => .ok ()
    | some rp => do
      reject (rp.dialect.length > maxReasoningDialectBytes)
        ⟨field ++ lit ".Reasoning.Dialect", bytesLimit "dialect" maxReasoningDialectBytes⟩
      reject (rp.text.length > maxReasoningTextBytes)
        ⟨field ++ lit ".Reasoning.Text", bytesLimit "text" maxReasoningTextBytes⟩
      reject (rp.signature.length > maxReasoningSignatureBytes)
        ⟨field ++ lit ".Reasoning.Signature", bytesLimit "signature" maxReasoningSignatureBytes⟩
      reject (RawMessage.len rp.opaqueValue > maxReasoningOpaqueBytes)
        ⟨field ++ lit ".Reasoning.Opaque", bytesLimit "opaque" maxReasoningOpaqueBytes⟩
  | .other _ => .ok ()

def validatePartSizes (p : Part) : Except ValidationError Unit := do
  validatePartKindSizes field p
  reject (p.toolCallID ≠ [] ∧ p.toolCallID.length > maxRefStringBytes)
    ⟨field ++ lit ".ToolCallID", lit "exceeds " ++ formatNat maxRefStringBytes ++ lit " bytes"⟩
  reject (p.toolName ≠ [] ∧ p.toolName.length > maxRefStringBytes)
    ⟨field ++ lit ".ToolName", lit "exceeds " ++ formatNat maxRefStringBytes ++ lit " bytes"⟩

def containsSpace (s : GoStr) : Bool :=
  s.any fun b => b == 0x20 || b == 0x09 || b == 0x0D || b == 0x0A

def ExtensionContentPart.validate (field : GoStr) :
    Option ExtensionContentPart → Except ValidationError Unit
  | none => .error ⟨field, lit "extension content part is nil"⟩
  | some e => do
    reject (trimSpace e.nameSpace ≠ [] ∧ containsSpace (trimSpace e.nameSpace))
      ⟨field ++ lit ".Namespace", lit "extension namespace must not contain whitespace"⟩
    reject (trimSpace e.nameSpace ≠ [] ∧ e.nameSpace.length > maxExtensionNamespaceBytes)
      ⟨field ++ lit ".Namespace", lit "exceeds " ++ formatNat maxExtensionNamespaceBytes ++ lit " bytes"⟩
    validateStringField (field ++ lit ".Implementor") e.implementor maxExtensionImplementorBytes
    reject (trimSpace e.type = []) ⟨field ++ lit ".Type", lit "extension type is required"⟩
    reject (0x3A ∉ e.type ∧ 0x2F ∉ e.type)
      ⟨field ++ lit ".Type", lit "extension type must be vendor-prefixed (contains ':' or '/')"⟩
    reject (e.type ≠ trimSpace e.type)
      ⟨field ++ lit ".Type", lit "extension type must not contain leading or trailing whitespace"⟩
    validateStringField (field ++ lit ".Type") e.type maxExtensionTypeBytes
    reject (RawMessage.len e.data > maxExtensionDataBytes)
      ⟨field ++ lit ".Data", bytesLimit "extension data" maxExtensionDataBytes⟩
    reject (RawMessage.len e.data = 0)
      ⟨field ++ lit ".Data", lit "extension content part requires Data"⟩
    validateRawField lib (field ++ lit ".Data") "extension data must be valid JSON" e.data
    reject ((lib.decodeType (e.data.getD [])).isNone)
      ⟨field ++ lit ".Data", lit "extension data must be a JSON object"⟩
    reject (lib.decodeType (e.data.getD []) ≠ some e.type)
      ⟨field ++ lit ".Data", lit "extension data type field must match Type"⟩

def validateRequiredText (field missing name : String) (base s : GoStr) (maxLen : ℕ) :
    Except ValidationError Unit := do
  reject (s = []) ⟨base ++ lit field, lit missing⟩
  reject (s.length > maxLen) ⟨base ++ lit field, bytesLimit name maxLen⟩

def ContentPart.validate (lib : Library) (field : GoStr) (cp : ContentPart) :
    Except ValidationError Unit :=
  match cp.kind with
  | .text => validateRequiredText ".Text" "text part requires non-empty Text" "text" field cp.text maxPartTextBytes
  | .imageRef => do
    reject (cp.imageRef = []) ⟨field ++ lit ".ImageRef", lit "image_ref part requires ImageRef"⟩
    validateStringField (field ++ lit ".ImageRef") cp.imageRef maxRefStringBytes
    validateStringField (field ++ lit ".ImageMIME") cp.imageMIME maxRefStringBytes
  | .fileRef => do
    reject (cp.fileRef = [] ∧ cp.fileData = [])
      ⟨field ++ lit ".FileRef", lit "file_ref part requires FileRef or FileData"⟩
    validateStringField (field ++ lit ".FileRef") cp.fileRef maxRefStringBytes
    reject (cp.fileData.length > maxFileDataBytes)
      ⟨field ++ lit ".FileData", bytesLimit "file_data" maxFileDataBytes⟩
    validateStringField (field ++ lit ".FileMIME") cp.fileMIME maxRefStringBytes
    validateStringField (field ++ lit ".FileName") cp.fileName maxRefStringBytes
  | .videoRef => do
    reject (cp.videoRef = []) ⟨field ++ lit ".VideoRef", lit "video_ref part requires VideoRef"⟩
    validateStringField (field ++ lit ".VideoRef") cp.videoRef maxRefStringBytes
    validateStringField (field ++ lit ".VideoMIME") cp.videoMIME maxRefStringBytes
  | .refusal => validateRequiredText ".Refusal" "refusal part requires non-empty Refusal" "refusal" field cp.refusal
      maxPartTextBytes
  | .reasoning => do
    reject (cp.reasoning.isNone)
      ⟨field ++ lit ".Reasoning", lit "reasoning part requires Reasoning"⟩
    (validateReasoningPart lib cp.reasoning).mapError fun text => ⟨field ++ lit ".Reasoning", text⟩
  | .summary => validateRequiredText ".Summary" "summary part requires non-empty Summary" "summary" field cp.summary
      maxPartTextBytes
  | .annotationPart =>
    match cp.annotationPart with
    | none => .error ⟨field ++ lit ".Annotation", lit "annotation part requires Annotation"⟩
    | some a => do
      validateStringField (field ++ lit ".Annotation.Type") a.type maxRefStringBytes
      reject (RawMessage.len a.data > maxPartJSONBytes)
        ⟨field ++ lit ".Annotation.Data", bytesLimit "annotation data" maxPartJSONBytes⟩
      validateRawField lib (field ++ lit ".Annotation.Data") "annotation data must be valid JSON" a.data
  | .assistantRef => do
    reject (cp.assistantRef = [])
      ⟨field ++ lit ".AssistantRef", lit "assistant_ref part requires AssistantRef"⟩
    validateStringField (field ++ lit ".AssistantRef") cp.assistantRef maxRefStringBytes
  | .json => do
    validateRequiredText ".Text" "json part requires non-empty Text" "json" field cp.text maxPartJSONBytes
    reject (lib.valid cp.text = false)
      ⟨field ++ lit ".Text", lit "json part must contain valid JSON text"⟩
  | .toolResult => validateRequiredText ".Text" "tool_result part requires non-empty Text" "tool_result" field cp.text
      maxPartTextBytes
  | .extension => do
    reject (cp.extension.isNone)
      ⟨field ++ lit ".Extension", lit "extension part requires Extension"⟩
    ExtensionContentPart.validate lib (field ++ lit ".Extension") cp.extension
  | .other name =>
    if name = [] then .error ⟨field ++ lit ".Kind", lit "content part kind is required"⟩
    else .error ⟨field ++ lit ".Kind", lit "unknown content part kind " ++ name⟩

def validateContentParts (field : GoStr) (parts : List ContentPart) : Except ValidationError Unit :=
  parts.zipIdx.forM fun (cp, j) => cp.validate lib (fieldIndex field j)

def OpaqueExtension.validate (field : GoStr) (e : OpaqueExtension) :
    Except ValidationError Unit := do
  reject (trimSpace e.nameSpace = [])
    ⟨field ++ lit ".Namespace", lit "extension namespace is required"⟩
  reject (containsSpace (trimSpace e.nameSpace))
    ⟨field ++ lit ".Namespace", lit "extension namespace must not contain whitespace"⟩
  validateStringField (field ++ lit ".Namespace") e.nameSpace maxExtensionNamespaceBytes
  reject (trimSpace e.type = []) ⟨field ++ lit ".Type", lit "extension type is required"⟩
  validateStringField (field ++ lit ".Type") e.type maxExtensionTypeBytes
  validateStringField (field ++ lit ".Implementor") e.implementor maxExtensionImplementorBytes
  validateStringField (field ++ lit ".Direction") e.direction maxExtensionDirectionBytes
  reject (RawMessage.len e.data > maxExtensionDataBytes)
    ⟨field ++ lit ".Data", bytesLimit "extension data" maxExtensionDataBytes⟩
  validateRawField lib (field ++ lit ".Data") "extension data must be valid JSON" e.data

def itemStatuses : List GoStr := [lit "in_progress", lit "completed", lit "incomplete"]
def assistantPhases : List GoStr := [lit "commentary", lit "final_answer"]
def itemRoles : List Role := [roleSystem, roleDeveloper, roleUser, roleAssistant, roleTool]

def Item.hasOther (item : Item) (kind : ItemKind) : Bool :=
  (kind != .itemReference && item.reference.isSome) ||
    (kind != .toolCall && item.toolCall.isSome) ||
    (kind != .toolResult && item.toolResult.isSome) ||
    (kind != .reasoning && item.reasoning.isSome) ||
    (kind != .compaction && item.compaction.isSome) || (kind != .extension && item.extension.isSome) ||
    (kind != .message && (!item.content.isEmpty || item.role != []))

def Item.validateMessage (field : GoStr) (item : Item) : Except ValidationError Unit := do
  reject (item.hasOther .message)
    ⟨field, lit "message item must not contain non-message variant fields"⟩
  reject (item.role = []) ⟨field ++ lit ".Role", lit "role is required for message item"⟩
  reject (item.role ∉ itemRoles) ⟨field ++ lit ".Role", lit "invalid role " ++ item.role⟩
  reject (item.content.length = 0)
    ⟨field ++ lit ".Content", lit "at least one content part is required for message item"⟩
  reject (item.content.length > maxContentPartsPerItem)
    ⟨field ++ lit ".Content", lit "at most " ++ formatNat maxContentPartsPerItem ++ lit " content parts per item"⟩
  validateContentParts lib (field ++ lit ".Content") item.content

def Item.validateReference (item : Item) : Except ValidationError Unit := do
  reject (item.hasOther .itemReference)
    ⟨field, lit "item_reference must not contain non-reference variant fields"⟩
  let id := (item.reference.map ItemReference.id).getD []
  reject (trimSpace id = [])
    ⟨field ++ lit ".Reference.ID", lit "reference ID is required for item_reference"⟩
  validateStringField (field ++ lit ".Reference.ID") id maxItemReferenceIDBytes

def Item.validateToolCall (field : GoStr) (item : Item) : Except ValidationError Unit := do
  reject (item.hasOther .toolCall)
    ⟨field, lit "tool_call item must not contain non-tool_call variant fields"⟩
  match item.toolCall with
  | none => .error ⟨field ++ lit ".ToolCall", lit "tool call data is required for tool_call item"⟩
  | some t => do
    reject (trimSpace t.callID = []) ⟨field ++ lit ".ToolCall.CallID", lit "call ID is required"⟩
    reject (trimSpace t.name = []) ⟨field ++ lit ".ToolCall.Name", lit "tool name is required"⟩
    validateStringField (field ++ lit ".ToolCall.CallID") t.callID maxRefStringBytes
    validateExactStringField (field ++ lit ".ToolCall.Name") t.name maxToolNameBytes
    reject (RawMessage.len t.arguments > maxToolParametersBytes)
      ⟨field ++ lit ".ToolCall.Arguments", lit "exceeds " ++ formatNat maxToolParametersBytes ++ lit " bytes"⟩
    validateRawField lib (field ++ lit ".ToolCall.Arguments") "arguments must be valid JSON" t.arguments

def Item.validateToolResult (field : GoStr) (item : Item) : Except ValidationError Unit := do
  reject (item.hasOther .toolResult)
    ⟨field, lit "tool_result item must not contain non-tool_result variant fields"⟩
  match item.toolResult with
  | none => .error ⟨field ++ lit ".ToolResult", lit "tool result data is required for tool_result item"⟩
  | some t => do
    reject (trimSpace t.callID = []) ⟨field ++ lit ".ToolResult.CallID", lit "call ID is required"⟩
    validateStringField (field ++ lit ".ToolResult.CallID") t.callID maxRefStringBytes
    validateExactStringField (field ++ lit ".ToolResult.Name") t.name maxToolNameBytes
    reject (t.output ≠ [] ∧ t.parts.length > 0)
      ⟨field ++ lit ".ToolResult", lit "tool result must specify output or parts, not both"⟩
    reject (t.output = [] ∧ ¬ t.parts.length > 0)
      ⟨field ++ lit ".ToolResult", lit "tool result must specify output or parts"⟩
    reject (t.output.length > maxPartTextBytes)
      ⟨field ++ lit ".ToolResult.Output", bytesLimit "output" maxPartTextBytes⟩
    reject (t.parts.length > maxContentPartsPerItem)
      ⟨field ++ lit ".ToolResult.Parts", lit "at most " ++ formatNat maxContentPartsPerItem ++
        lit " parts per tool result"⟩
    validateContentParts lib (field ++ lit ".ToolResult.Parts") t.parts

def Item.validateReasoning (field : GoStr) (item : Item) : Except ValidationError Unit := do
  reject (item.hasOther .reasoning)
    ⟨field, lit "reasoning item must not contain non-reasoning variant fields"⟩
  let reasoning := item.reasoning.bind ReasoningItem.reasoning
  reject (reasoning.isNone)
    ⟨field ++ lit ".Reasoning", lit "reasoning payload is required for reasoning item"⟩
  (validateReasoningPart lib reasoning).mapError fun text => ⟨field ++ lit ".Reasoning", text⟩

def Item.validateCompaction (field : GoStr) (item : Item) : Except ValidationError Unit := do
  reject (item.hasOther .compaction)
    ⟨field, lit "compaction item must not contain non-compaction variant fields"⟩
  match item.compaction with
  | none => .error ⟨field ++ lit ".Compaction", lit "compaction data is required for compaction item"⟩
  | some c => do
    validateStringField (field ++ lit ".Compaction.EncapsulatedID") c.encapsulatedID maxRefStringBytes
    validateStringField (field ++ lit ".Compaction.Dialect") c.dialect maxCompactionDialectBytes
    validateStringField (field ++ lit ".Compaction.Implementor") c.implementor maxExtensionImplementorBytes
    validateStringField (field ++ lit ".Compaction.EncryptedContent") c.encryptedContent
      maxCompactionEncryptedContentBytes
    reject (RawMessage.len c.opaqueValue > maxPartJSONBytes)
      ⟨field ++ lit ".Compaction.Opaque", bytesLimit "opaque compaction data" maxPartJSONBytes⟩
    validateRawField lib (field ++ lit ".Compaction.Opaque") "opaque compaction data must be valid JSON" c.opaqueValue

def Item.validateExtension (field : GoStr) (item : Item) : Except ValidationError Unit := do
  reject (item.hasOther .extension)
    ⟨field, lit "extension item must not contain non-extension variant fields"⟩
  match item.extension with
  | none => .error ⟨field ++ lit ".Extension", lit "extension record is required for extension item"⟩
  | some e => e.validate lib (field ++ lit ".Extension")

def Item.validateKind (field : GoStr) (item : Item) : Except ValidationError Unit :=
  match item.kind with
  | .message => item.validateMessage lib field
  | .itemReference => item.validateReference field
  | .toolCall => item.validateToolCall lib field
  | .toolResult => item.validateToolResult lib field
  | .reasoning => item.validateReasoning lib field
  | .compaction => item.validateCompaction lib field
  | .extension => item.validateExtension lib field
  | .other name =>
    if name = [] then .error ⟨field ++ lit ".Kind", lit "item kind is required"⟩
    else .error ⟨field ++ lit ".Kind", lit "unknown item kind " ++ name⟩

def Item.validate (field : GoStr) (item : Item) : Except ValidationError Unit := do
  validateStringField (field ++ lit ".ID") item.id maxItemReferenceIDBytes
  reject (item.status ≠ [] ∧ item.status ∉ itemStatuses)
    ⟨field ++ lit ".Status", lit "invalid item status " ++ item.status⟩
  reject (item.phase ≠ [] ∧ item.phase ∉ assistantPhases)
    ⟨field ++ lit ".Phase", lit "invalid assistant phase " ++ item.phase⟩
  reject (item.phase ≠ [] ∧ (item.kind ≠ .message ∨ item.role ≠ roleAssistant))
    ⟨field ++ lit ".Phase", lit "phase is only allowed on assistant message items"⟩
  item.validateKind lib field

def semanticDirections : List GoStr := [lit "request", lit "response", lit "bidirectional"]

def semanticEnvelopeKeys : List GoStr :=
  [lit "request", lit "response", lit "messages", lit "items", lit "input", lit "output", lit "events", lit "stream"]

def isTokenByte (b : UInt8) : Bool :=
  (0x61 ≤ b && b ≤ 0x7A) || (0x30 ≤ b && b ≤ 0x39) || b == 0x5F || b == 0x2D || b == 0x2E

def validSemanticExtensionToken (value : GoStr) : Bool :=
  match value with
  | [] => false
  | b :: rest => value == lib.toLower value && (0x61 ≤ b && b ≤ 0x7A) && rest.all isTokenByte

def validateSemanticExtensionData (data : GoStr) : Except GoStr Unit :=
  match lib.keys data with
  | none => .error (lit "value data must be a JSON value")
  | some keys =>
    match keys.find? fun key => lib.toLower key ∈ semanticEnvelopeKeys with
    | some key => .error (lit "value data must not contain request/response envelope field " ++ key)
    | none => .ok ()

def SemanticExtension.validateData (field : GoStr) (e : SemanticExtension) :
    Except ValidationError Unit :=
  match e.presence with
  | .null =>
    reject (RawMessage.len e.data ≠ 0)
      ⟨field ++ lit ".Data", lit "null semantic extension must not carry data"⟩
  | .value => do
    reject (RawMessage.len e.data = 0 ∨ RawMessage.len e.data > maxSemanticExtensionDataBytes)
      ⟨field ++ lit ".Data", lit "value data must be 1.." ++ formatNat maxSemanticExtensionDataBytes ++ lit " bytes"⟩
    validateRawField lib (field ++ lit ".Data") "value data must be valid JSON" e.data
    (validateSemanticExtensionData lib (e.data.getD [])).mapError
      fun text => ⟨field ++ lit ".Data", text⟩
  | .absent => .error ⟨field ++ lit ".Presence", lit "absent semantic extensions must not be carried"⟩
  | .other _ => .error ⟨field ++ lit ".Presence", lit "unknown semantic extension presence"⟩

def SemanticExtension.validate (field : GoStr) (e : SemanticExtension) :
    Except ValidationError Unit := do
  reject (trimSpace e.nameSpace = [] ∨ trimSpace e.type = [] ∨ trimSpace e.implementor = [] ∨
      trimSpace e.direction = [])
    ⟨field, lit "semantic extension identity and direction are required"⟩
  [("Namespace", e.nameSpace, maxExtensionNamespaceBytes), ("Type", e.type, maxExtensionTypeBytes),
    ("Implementor", e.implementor, maxExtensionImplementorBytes),
    ("Direction", e.direction, maxExtensionDirectionBytes)].forM fun (name, value, maxLen) => do
      validateStringField (field ++ lit "." ++ lit name) value maxLen
      reject (validSemanticExtensionToken lib value = false)
        ⟨field ++ lit "." ++ lit name, lit "must use lowercase ASCII identifier syntax"⟩
  reject (e.direction ∉ semanticDirections)
    ⟨field ++ lit ".Direction", lit "must be request, response, or bidirectional"⟩
  e.validateData lib field

def SemanticExtension.key (e : SemanticExtension) : GoStr :=
  e.nameSpace ++ 0 :: e.type ++ 0 :: e.implementor ++ 0 :: e.direction

def validateSemanticExtensions (exts : List SemanticExtension) : Except ValidationError Unit :=
  (exts.zipIdx.foldlM (fun (seen : List GoStr) ((ext, i) : SemanticExtension × ℕ) => do
    ext.validate lib (fieldIndex (lit "SemanticExtensions") i)
    reject (ext.key ∈ seen)
      ⟨fieldIndex (lit "SemanticExtensions") i, lit "duplicate semantic extension identity"⟩
    return ext.key :: seen) []).map fun _ => ()

def validateToolSizes (i : ℕ) (t : ToolDef) : Except ValidationError Unit := do
  let field := fieldIndex (lit "Tools") i
  validateExactStringField (field ++ lit ".Name") t.name maxToolNameBytes
  validateStringField (field ++ lit ".Description") t.description maxToolDescriptionBytes
  reject (RawMessage.len t.parameters > maxToolParametersBytes)
    ⟨field ++ lit ".Parameters", lit "exceeds " ++ formatNat maxToolParametersBytes ++ lit " bytes"⟩

def validateTool (i : ℕ) (t : ToolDef) : Except ValidationError Unit := do
  let field := fieldIndex (lit "Tools") i
  reject (t.name = []) ⟨field ++ lit ".Name", lit "tool name is required"⟩
  reject (RawMessage.len t.parameters ≠ 0 ∧ lib.valid (t.parameters.getD []) = false)
    ⟨field ++ lit ".Parameters", lit "parameters must be valid JSON when set"⟩

def ToolChoice.validateAllowedTools (tc : ToolChoice) (tools : List ToolDef)
    (allowed : List GoStr) : Except ValidationError Unit := do
  reject (tc.mode = .required)
    ⟨lit "ToolChoice.Mode", lit "ToolChoice.Mode required is incompatible with ToolChoice.AllowedTools"⟩
  reject (tc.name ≠ [])
    ⟨lit "ToolChoice.Name", lit "ToolChoice.Name is incompatible with ToolChoice.AllowedTools"⟩
  (allowed.foldlM (fun (seen : List GoStr) name => do
    validateExactStringField (lit "ToolChoice.AllowedTools") name maxToolNameBytes
    reject (name = [])
      ⟨lit "ToolChoice.AllowedTools", lit "ToolChoice.AllowedTools entry cannot be empty"⟩
    reject (name ∈ seen) ⟨lit "ToolChoice.AllowedTools", lit "duplicate allowed tool " ++ name⟩
    reject (name ∉ tools.map ToolDef.name)
      ⟨lit "ToolChoice.AllowedTools", lit "allowed tool " ++ name ++ lit " must match a declared tool"⟩
    return name :: seen) []).map fun _ => ()

def ToolChoice.isUnknown (tc : ToolChoice) : Bool :=
  match tc.mode with
  | .other _ => true
  | _ => false

def ToolChoice.validateName (tc : ToolChoice) (tools : List ToolDef) :
    Except ValidationError Unit := do
  reject (tc.mode = .none ∧ tools.length > 0)
    ⟨lit "ToolChoice", lit "ToolChoiceNone is incompatible with declared tools"⟩
  validateExactStringField (lit "ToolChoice.Name") tc.name maxToolNameBytes
  reject (tc.name ≠ [] ∧ tc.mode ≠ .required)
    ⟨lit "ToolChoice.Name", lit "ToolChoice.Name is only allowed with ToolChoiceRequired mode"⟩
  reject (tc.mode = .required ∧ tools.length = 0)
    ⟨lit "Tools", lit "ToolChoiceRequired requires at least one tool definition"⟩
  reject (tc.mode = .required ∧ tc.name = [])
    ⟨lit "ToolChoice.Name", lit "ToolChoiceRequired requires ToolChoice.Name"⟩
  reject (tc.mode = .required ∧ tc.name ∉ tools.map ToolDef.name)
    ⟨lit "ToolChoice.Name", lit "ToolChoiceRequired name must match a declared tool"⟩

def ToolChoice.validate (tc : ToolChoice) (tools : List ToolDef) : Except ValidationError Unit := do
  reject (tc.isUnknown) ⟨lit "ToolChoice.Mode", lit "unknown tool choice mode " ++ tc.mode.name⟩
  match tc.allowedTools.getD [] with
  | [] => tc.validateName tools
  | name :: rest => tc.validateAllowedTools tools (name :: rest)

def GenerationOptions.validate (o : GenerationOptions) : Except ValidationError Unit := do
  reject (o.temperature.any (fun t => t.isNaN || t < 0 || t > 2))
    ⟨lit "Options.Temperature", lit "temperature must be between 0 and 2"⟩
  reject (o.topP.any (fun p => p.isNaN || p < 0 || p > 1))
    ⟨lit "Options.TopP", lit "top_p must be between 0 and 1"⟩
  reject (o.maxOutputTokens.any (fun v => v < 0))
    ⟨lit "Options.MaxOutputTokens", lit "max_output_tokens must be non-negative"⟩
  reject (o.maxOutputTokens.any (fun v => v > maxInt32))
    ⟨lit "Options.MaxOutputTokens", lit "max_output_tokens must be at most " ++ formatInt maxInt32⟩
  reject (o.reasoningEffort.length > maxOptionStringBytes)
    ⟨lit "Options.ReasoningEffort", lit "exceeds " ++ formatNat maxOptionStringBytes ++ lit " bytes"⟩
  reject (o.verbosity ∉ [[], lit "low", lit "medium", lit "high"])
    ⟨lit "Options.Verbosity", lit "must be one of low, medium, or high"⟩
  reject (o.responseMIMEType.length > maxOptionStringBytes)
    ⟨lit "Options.ResponseMIMEType", lit "exceeds " ++ formatNat maxOptionStringBytes ++ lit " bytes"⟩

def isPromptCacheKey (e : SemanticExtension) : Bool :=
  e.nameSpace == lit "lip" && e.type == lit "prompt_cache_key" && e.implementor == lit "proxy" &&
    e.direction == lit "request"

def promptCacheCarrier (carrier : GoStr) (i : ℕ) (ext : SemanticExtension) :
    Except ValidationError GoStr :=
  if isPromptCacheKey ext = false then .ok carrier
  else if ext.presence ≠ .value then
    .error ⟨fieldIndex (lit "SemanticExtensions") i, lit "prompt_cache_key must carry a JSON string value"⟩
  else
    match lib.decodeString (ext.data.getD []) with
    | none => .error ⟨fieldIndex (lit "SemanticExtensions") i ++ lit ".Data",
        lit "prompt_cache_key must carry a JSON string value"⟩
    | some value => .ok (trimSpace value)

def Call.promptCacheKeyValue (c : Call) : Except ValidationError GoStr := do
  let legacy := trimSpace c.promptCacheKey
  let carrier ← (c.semanticExtensions.getD []).zipIdx.foldlM (fun carrier (ext, i) =>
    promptCacheCarrier lib carrier i ext) []
  reject (legacy ≠ [] ∧ carrier ≠ [] ∧ legacy ≠ carrier)
    ⟨lit "PromptCacheKey", lit "legacy alias conflicts with semantic carrier"⟩
  return if carrier ≠ [] then carrier else legacy

def validateCount (field : String) (n maxCount : ℕ) (what : String) : Except ValidationError Unit :=
  reject (n > maxCount) ⟨lit field, lit "at most " ++ formatNat maxCount ++ lit " " ++ lit what⟩

def validateMessageSizes (base : String) (messages : List Message) : Except ValidationError Unit :=
  messages.zipIdx.forM fun (m, i) => do
    let field := fieldIndex (lit base) i ++ lit ".Parts"
    reject ((m.parts.getD []).length > maxPartsPerMessage)
      ⟨field, lit "at most " ++ formatNat maxPartsPerMessage ++ lit " parts per message"⟩
    (m.parts.getD []).zipIdx.forM fun (p, j) => validatePartSizes (fieldIndex field j) p

def Call.validateEnvelopeSizes (c : Call) : Except ValidationError Unit := do
  validateStringField (lit "ID") c.id maxCallIDBytes
  validateStringField (lit "Route.Selector") c.route.selector maxRouteSelectorBytes
  validateStringField (lit "Session.ClientSessionID") c.session.clientSessionID maxClientSessionIDBytes
  validateStringField (lit "Session.ContinuityKey") c.session.continuityKey maxContinuityKeyBytes
  validateStringField (lit "Session.ALegID") c.session.aLegID maxALegIDBytes
  validateStringField (lit "Session.AuthoritativeSessionID") c.session.authoritativeSessionID
    maxAuthoritativeSessionIDBytes
  validateStringField (lit "Session.ResumeToken") c.session.resumeToken maxResumeTokenBytes
  validateCount "Messages" (c.messages.getD []).length maxMessages "messages"
  validateCount "Items" (c.items.getD []).length maxItems "items"
  validateCount "Instructions" (c.instructions.getD []).length maxInstructionMessages "instruction messages"
  validateCount "Tools" (c.tools.getD []).length maxTools "tools"
  validateCount "Extensions" (c.extensions.getD []).length maxExtensionKeys "extension entries"
  validateCount "SemanticExtensions" (c.semanticExtensions.getD []).length maxSemanticExtensions
    "semantic extensions"
  validateSemanticExtensions lib (c.semanticExtensions.getD [])
  (c.extensions.getD []).forM fun (k, v) => do
    validateStringField (lit "Extensions[" ++ k ++ lit "]") k maxExtensionKeyBytes
    reject (RawMessage.len v > maxExtensionValueBytes)
      ⟨lit "Extensions[" ++ k ++ lit "]", bytesLimit "extension value" maxExtensionValueBytes⟩
  validateMessageSizes "Messages" (c.messages.getD [])
  validateMessageSizes "Instructions" (c.instructions.getD [])
  (c.tools.getD []).zipIdx.forM fun (t, i) => validateToolSizes i t

def addSaturatingInt64 (a b : ℤ) : ℤ :=
  let a := max a 0
  let b := max b 0
  if a > maxInt64 - b then maxInt64 else a + b

def reasoningLimit : ValidationError :=
  ⟨field, lit "total reasoning payload exceeds " ++ formatNat maxReasoningBytesPerCall ++ lit " bytes"⟩

/-- A part of a message in the loop of `Validate`, with the reasoning bytes counted so far. -/
def validateMessagePart (field : GoStr) (role : Role) (total : ℤ) (p : Part) :
    Except ValidationError ℤ := do
  (p.validate lib).mapError fun text => ⟨field, text⟩
  if p.kind = .reasoning then do
    reject (role ≠ roleAssistant)
      ⟨field, lit "reasoning parts are only allowed on assistant messages"⟩
    let total := addSaturatingInt64 total (reasoningPayloadBytes p.reasoning)
    reject (total > maxReasoningBytesPerCall) (reasoningLimit field)
    return total
  else return total

def validateMessage (base : String) (i : ℕ) (total : ℤ) (m : Message) :
    Except ValidationError ℤ := do
  let field := fieldIndex (lit base) i
  reject (m.role = []) ⟨field ++ lit ".Role", lit "role is required"⟩
  reject ((m.parts.getD []).length = 0) ⟨field ++ lit ".Parts", lit "at least one part is required"⟩
  (m.parts.getD []).zipIdx.foldlM (fun total (p, j) =>
    validateMessagePart lib (fieldIndex (field ++ lit ".Parts") j) m.role total p) total

def Call.validateMessages (c : Call) : Except ValidationError Unit := do
  reject ((c.messages.getD []).length = 0) ⟨lit "Messages", lit "at least one message is required"⟩
  c.validateEnvelopeSizes lib
  let total ← (c.messages.getD []).zipIdx.foldlM (fun total (m, i) => validateMessage lib "Messages" i total m) 0
  let _ ← (c.instructions.getD []).zipIdx.foldlM (fun total (m, i) =>
    validateMessage lib "Instructions" i total m) total
  return ()

def validateItemIDs (items : List Item) : Except ValidationError Unit :=
  (items.zipIdx.foldlM (fun (seen : List GoStr) ((item, i) : Item × ℕ) => do
    reject (item.id ≠ [] ∧ item.id ∈ seen)
      (ValidationError.mk (fieldIndex (lit "Items") i ++ lit ".ID") (lit "duplicate item ID " ++ item.id))
    return item.id :: seen) []).map fun _ => ()

structure ItemScan where
  seenCallIDs : List GoStr
  reasoningBytes : ℤ

def Item.callID (item : Item) : GoStr := (item.toolCall.map ToolCallItem.callID).getD []

def Item.resultCallID (item : Item) : GoStr :=
  (item.toolResult.map ToolResultItem.callID).getD []

def Item.referenceID (item : Item) : GoStr := (item.reference.map ItemReference.id).getD []

def contentReasoningBytes (total : ℤ) (cp : ContentPart) : ℤ :=
  if cp.kind = .reasoning ∧ cp.reasoning.isSome = true then
    addSaturatingInt64 total (reasoningPayloadBytes cp.reasoning)
  else total

def Item.addReasoningBytes (item : Item) (total : ℤ) : ℤ :=
  let reasoning := item.reasoning.bind ReasoningItem.reasoning
  let total := if reasoning.isSome then addSaturatingInt64 total (reasoningPayloadBytes reasoning)
    else total
  let total := item.content.foldl contentReasoningBytes total
  ((item.toolResult.map ToolResultItem.parts).getD []).foldl contentReasoningBytes total

def validateItem (items : List Item) (i : ℕ) (scan : ItemScan) (item : Item) :
    Except ValidationError ItemScan := do
  let field := fieldIndex (lit "Items") i
  item.validate lib field
  reject (item.kind = .itemReference ∧ (items.findIdx? fun other => other.id ≠ [] ∧ other.id = item.referenceID).any
      (fun idx => idx > i) = true)
    ⟨field ++ lit ".Reference.ID", lit "forward item reference to " ++ item.referenceID⟩
  reject (item.kind = .toolCall ∧ item.callID ∈ scan.seenCallIDs)
    ⟨field ++ lit ".ToolCall.CallID", lit "duplicate call ID " ++ item.callID⟩
  let seen := if item.kind = .toolCall then item.callID :: scan.seenCallIDs else scan.seenCallIDs
  reject (item.kind = .toolResult ∧ item.resultCallID ∉ seen)
    ⟨field ++ lit ".ToolResult.CallID", lit "orphan tool result for call ID " ++ item.resultCallID⟩
  let total := item.addReasoningBytes scan.reasoningBytes
  reject (total > maxReasoningBytesPerCall) (reasoningLimit field)
  return ⟨seen, total⟩

def Call.validateItems (c : Call) (items : List Item) : Except ValidationError Unit := do
  reject ((c.messages.getD []).length > 0 ∨ (c.instructions.getD []).length > 0)
    ⟨lit "Items", lit "conflicting raw item and legacy message authorities"⟩
  reject (items.length = 0 ∧ trimSpace c.previousResponseID = [])
    ⟨lit "Items", lit "at least one item is required unless previous_response_id is set"⟩
  c.validateEnvelopeSizes lib
  validateItemIDs items
  let _ ← items.zipIdx.foldlM (fun scan (item, i) => validateItem lib items i scan item) ⟨[], 0⟩
  return ()

def Call.validateDecision (c : Call) (d : DecisionRequest) : Except ValidationError Unit := do
  reject ((c.messages.getD []).length > 0 ∨ (c.instructions.getD []).length > 0 ∨ c.items.isSome ∨
      c.previousResponseID ≠ [] ∨ (c.tools.getD []).length > 0 ∨ c.toolChoice.mode ≠ .unset ∨
      c.toolChoice.name ≠ [] ∨ (c.toolChoice.allowedTools.getD []).length > 0)
    ⟨lit "Decision", lit "conflicting decision and message, item, continuation or tool authorities"⟩
  c.validateEnvelopeSizes lib
  d.validate

def Call.validateAuthority (c : Call) : Except ValidationError Unit :=
  match c.decision, c.items with
  | some d, _ => c.validateDecision lib d
  | none, some items => c.validateItems lib items
  | none, none => c.validateMessages lib

def Call.validate (lib : Library) (c : Call) : Except ValidationError Unit := do
  c.validateAuthority lib
  (c.tools.getD []).zipIdx.forM fun (t, i) => validateTool lib i t
  c.toolChoice.validate (c.tools.getD [])
  c.options.validate
  let _ ← c.promptCacheKeyValue lib
  return ()

lemma Call.validate_content {lib : Library} {c : Call} (h : c.validate lib = .ok ())
    (hdecision : c.decision = none)
    {item : Item} (hitem : item ∈ c.items.getD []) (hkind : item.kind = .message) :
    item.content ≠ [] := by
  have hauthority := (seq_eq_ok.mp h).1
  cases hitems : c.items with
  | none =>
    rw [hitems] at hitem
    cases hitem
  | some items =>
    rw [hitems] at hitem
    simp only [Call.validateAuthority, hdecision, hitems, Call.validateItems, seq_eq_ok] at hauthority
    obtain ⟨_, _, _, _, hloop⟩ := hauthority
    obtain ⟨scan, hscan, -⟩ := bind_eq_ok.mp hloop
    obtain ⟨i, hget⟩ := List.mem_iff_getElem?.mp hitem
    have hmem : (item, i) ∈ items.zipIdx := List.mem_zipIdx_iff_getElem?.mpr hget
    obtain ⟨before, after, hstep⟩ := foldlM_eq_ok hscan hmem
    have hvalid := (seq_eq_ok.mp hstep).1
    simp only [Item.validate, seq_eq_ok, Item.validateKind, hkind, Item.validateMessage, reject_eq_ok] at hvalid
    intro hnil
    exact hvalid.2.2.2.2.2.2.2.1 (by rw [hnil]; rfl)

end InteractiveProxy.Lipapi
