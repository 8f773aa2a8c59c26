import InteractiveProxy.JsonEncoding

/-! The canonical call that frontends decode requests into, and its JSON. Slices and raw JSON values
may be nil, which their encodings tell from empty. -/
namespace InteractiveProxy.Lipapi

open GoText JsonPieces

abbrev RawMessage := Option GoStr

abbrev Role := GoStr

def roleSystem : Role := lit "system"
def roleDeveloper : Role := lit "developer"
def roleUser : Role := lit "user"
def roleAssistant : Role := lit "assistant"
def roleTool : Role := lit "tool"

structure SessionRef where
  clientSessionID : GoStr := []
  continuityKey : GoStr := []
  aLegID : GoStr := []
  authoritativeSessionID : GoStr := []
  resumeToken : GoStr := []

structure RouteIntent where
  selector : GoStr := []

structure ReasoningPart where
  dialect : GoStr
  text : GoStr := []
  signature : GoStr := []
  opaqueValue : RawMessage := none
  summary : RawMessage := none
  summaryPresent : Bool := false
  content : RawMessage := none
  contentPresent : Bool := false
  encryptedContent : RawMessage := none
  encryptedContentPresent : Bool := false

/-- The kind of a part; `other` stands for every text that names none. -/
inductive PartKind
  | text
  | imageRef
  | fileRef
  | toolResult
  | json
  | reasoning
  | other (name : GoStr)
  deriving DecidableEq

structure Part where
  kind : PartKind
  text : GoStr := []
  imageRef : GoStr := []
  imageMIME : GoStr := []
  fileRef : GoStr := []
  fileMIME : GoStr := []
  fileName : GoStr := []
  toolCallID : GoStr := []
  toolName : GoStr := []
  content : RawMessage := none
  reasoning : Option ReasoningPart := none

structure Message where
  role : Role
  parts : Option (List Part)

inductive ContentPartKind
  | text
  | imageRef
  | fileRef
  | videoRef
  | refusal
  | reasoning
  | summary
  | annotationPart
  | assistantRef
  | json
  | toolResult
  | extension
  | other (name : GoStr)
  deriving DecidableEq

structure AnnotationPart where
  type : GoStr := []
  data : RawMessage := none

structure ExtensionContentPart where
  nameSpace : GoStr := []
  type : GoStr
  implementor : GoStr := []
  data : RawMessage := none

structure ContentPart where
  kind : ContentPartKind
  text : GoStr := []
  imageRef : GoStr := []
  imageMIME : GoStr := []
  fileRef : GoStr := []
  fileData : GoStr := []
  fileMIME : GoStr := []
  fileName : GoStr := []
  videoRef : GoStr := []
  videoMIME : GoStr := []
  refusal : GoStr := []
  reasoning : Option ReasoningPart := none
  summary : GoStr := []
  annotationPart : Option AnnotationPart := none
  assistantRef : GoStr := []
  extension : Option ExtensionContentPart := none

inductive ItemKind
  | message
  | itemReference
  | toolCall
  | toolResult
  | reasoning
  | compaction
  | extension
  | other (name : GoStr)
  deriving DecidableEq

structure ItemReference where
  id : GoStr

structure ToolCallItem where
  callID : GoStr
  name : GoStr
  arguments : RawMessage := none

structure ToolResultItem where
  callID : GoStr
  name : GoStr
  output : GoStr := []
  parts : List ContentPart := []

structure ReasoningItem where
  reasoning : Option ReasoningPart := none

structure CompactionItem where
  encapsulatedID : GoStr := []
  dialect : GoStr := []
  implementor : GoStr := []
  encryptedContent : GoStr := []
  opaqueValue : RawMessage := none

structure OpaqueExtension where
  nameSpace : GoStr
  type : GoStr
  implementor : GoStr := []
  direction : GoStr := []
  data : RawMessage := none

structure Item where
  kind : ItemKind
  id : GoStr := []
  status : GoStr := []
  role : Role := []
  phase : GoStr := []
  content : List ContentPart := []
  reference : Option ItemReference := none
  toolCall : Option ToolCallItem := none
  toolResult : Option ToolResultItem := none
  reasoning : Option ReasoningItem := none
  compaction : Option CompactionItem := none
  extension : Option OpaqueExtension := none

structure ToolDef where
  name : GoStr
  description : GoStr := []
  parameters : RawMessage := none

inductive ToolChoiceMode
  | unset
  | auto
  | none
  | any
  | required
  | other (name : GoStr)
  deriving DecidableEq

structure ToolChoice where
  mode : ToolChoiceMode := .unset
  name : GoStr := []
  allowedTools : Option (List GoStr) := none

structure GenerationOptions where
  temperature : Option Float := none
  maxOutputTokens : Option ℤ := none
  topP : Option Float := none
  reasoningEffort : GoStr := []
  verbosity : GoStr := []
  responseMIMEType : GoStr := []
  parallelToolCalls : Option Bool := none

inductive SemanticExtensionPresence
  | absent
  | null
  | value
  | other (name : GoStr)
  deriving DecidableEq

structure SemanticExtension where
  nameSpace : GoStr
  type : GoStr
  implementor : GoStr
  direction : GoStr
  presence : SemanticExtensionPresence
  data : RawMessage := none

structure ValidationError where
  field : GoStr
  message : GoStr
  deriving DecidableEq

/-- A request for a typed evaluation, by what a call reads of it: its JSON and the result of its own
validation. -/
structure DecisionRequest where
  json : Pieces
  validate : Except ValidationError Unit

structure Call where
  id : GoStr := []
  session : SessionRef := {}
  route : RouteIntent := {}
  instructions : Option (List Message) := none
  messages : Option (List Message) := none
  items : Option (List Item) := none
  decision : Option DecisionRequest := none
  previousResponseID : GoStr := []
  promptCacheKey : GoStr := []
  semanticExtensions : Option (List SemanticExtension) := none
  tools : Option (List ToolDef) := none
  toolChoice : ToolChoice := {}
  options : GenerationOptions := {}
  extensions : Option (List (GoStr × RawMessage)) := none

def SessionRef.json (s : SessionRef) : Pieces :=
  object ([member (lit "ClientSessionID") (str s.clientSessionID),
    member (lit "ContinuityKey") (str s.continuityKey),
    member (lit "ALegID") (str s.aLegID)] ++
    optionalText "SessionID" s.authoritativeSessionID ++
    [member (lit "ResumeToken") (str s.resumeToken)])

def RouteIntent.json (r : RouteIntent) : Pieces := object [member (lit "Selector") (str r.selector)]

def ReasoningPart.json (r : ReasoningPart) : Pieces :=
  object [member (lit "Dialect") (str r.dialect),
    member (lit "Text") (str r.text),
    member (lit "Signature") (str r.signature),
    member (lit "Opaque") (raw r.opaqueValue),
    member (lit "Summary") (raw r.summary),
    member (lit "SummaryPresent") (bool r.summaryPresent),
    member (lit "Content") (raw r.content),
    member (lit "ContentPresent") (bool r.contentPresent),
    member (lit "EncryptedContent") (raw r.encryptedContent),
    member (lit "EncryptedContentPresent") (bool r.encryptedContentPresent)]

def PartKind.name : PartKind → GoStr
  | .text => lit "text"
  | .imageRef => lit "image_ref"
  | .fileRef => lit "file_ref"
  | .toolResult => lit "tool_result"
  | .json => lit "json"
  | .reasoning => lit "reasoning"
  | .other name => name

def Part.json (p : Part) : Pieces :=
  object [member (lit "Kind") (str p.kind.name),
    member (lit "Text") (str p.text),
    member (lit "ImageRef") (str p.imageRef),
    member (lit "ImageMIME") (str p.imageMIME),
    member (lit "FileRef") (str p.fileRef),
    member (lit "FileMIME") (str p.fileMIME),
    member (lit "FileName") (str p.fileName),
    member (lit "ToolCallID") (str p.toolCallID),
    member (lit "ToolName") (str p.toolName),
    member (lit "Content") (raw p.content),
    member (lit "Reasoning") (pointer ReasoningPart.json p.reasoning)]

def Message.json (m : Message) : Pieces :=
  object [member (lit "Role") (str m.role), member (lit "Parts") (slice Part.json m.parts)]

def ContentPartKind.name : ContentPartKind → GoStr
  | .text => lit "text"
  | .imageRef => lit "image_ref"
  | .fileRef => lit "file_ref"
  | .videoRef => lit "video_ref"
  | .refusal => lit "refusal"
  | .reasoning => lit "reasoning"
  | .summary => lit "summary"
  | .annotationPart => lit "annotation"
  | .assistantRef => lit "assistant_ref"
  | .json => lit "json"
  | .toolResult => lit "tool_result"
  | .extension => lit "extension"
  | .other name => name

def AnnotationPart.json (a : AnnotationPart) : Pieces :=
  object (optionalText "type" a.type ++ optionalRaw "data" a.data)

def ExtensionContentPart.json (e : ExtensionContentPart) : Pieces :=
  object (optionalText "namespace" e.nameSpace ++ [member (lit "type") (str e.type)] ++
    optionalText "implementor" e.implementor ++ optionalRaw "data" e.data)

def ContentPart.json (cp : ContentPart) : Pieces :=
  object ([member (lit "kind") (str cp.kind.name)] ++
    optionalText "text" cp.text ++
    optionalText "image_ref" cp.imageRef ++
    optionalText "image_mime" cp.imageMIME ++
    optionalText "file_ref" cp.fileRef ++
    optionalText "file_data" cp.fileData ++
    optionalText "file_mime" cp.fileMIME ++
    optionalText "file_name" cp.fileName ++
    optionalText "video_ref" cp.videoRef ++
    optionalText "video_mime" cp.videoMIME ++
    optionalText "refusal" cp.refusal ++
    optionalPointer "reasoning" ReasoningPart.json cp.reasoning ++
    optionalText "summary" cp.summary ++
    optionalPointer "annotation" AnnotationPart.json cp.annotationPart ++
    optionalText "assistant_ref" cp.assistantRef ++
    optionalPointer "extension" ExtensionContentPart.json cp.extension)

def ItemKind.name : ItemKind → GoStr
  | .message => lit "message"
  | .itemReference => lit "item_reference"
  | .toolCall => lit "tool_call"
  | .toolResult => lit "tool_result"
  | .reasoning => lit "reasoning"
  | .compaction => lit "compaction"
  | .extension => lit "extension"
  | .other name => name

def ItemReference.json (r : ItemReference) : Pieces := object [member (lit "id") (str r.id)]

def ToolCallItem.json (t : ToolCallItem) : Pieces :=
  object ([member (lit "call_id") (str t.callID), member (lit "name") (str t.name)] ++
    optionalRaw "arguments" t.arguments)

def ToolResultItem.json (t : ToolResultItem) : Pieces :=
  object ([member (lit "call_id") (str t.callID), member (lit "name") (str t.name)] ++
    optionalText "output" t.output ++ optionalList "parts" ContentPart.json t.parts)

def ReasoningItem.json (r : ReasoningItem) : Pieces :=
  object (optionalPointer "reasoning" ReasoningPart.json r.reasoning)

def CompactionItem.json (c : CompactionItem) : Pieces :=
  object (optionalText "encapsulated_id" c.encapsulatedID ++
    optionalText "dialect" c.dialect ++
    optionalText "implementor" c.implementor ++
    optionalText "encrypted_content" c.encryptedContent ++
    optionalRaw "opaque" c.opaqueValue)

def OpaqueExtension.json (e : OpaqueExtension) : Pieces :=
  object ([member (lit "namespace") (str e.nameSpace), member (lit "type") (str e.type)] ++
    optionalText "implementor" e.implementor ++ optionalText "direction" e.direction ++
    optionalRaw "data" e.data)

def Item.header (item : Item) : List Pieces :=
  [member (lit "kind") (str item.kind.name)] ++
    optionalText "id" item.id ++
    optionalText "status" item.status ++
    optionalText "role" item.role ++
    optionalText "phase" item.phase

def Item.json (item : Item) : Pieces :=
  object (item.header ++
    optionalList "content" ContentPart.json item.content ++
    optionalPointer "reference" ItemReference.json item.reference ++
    optionalPointer "tool_call" ToolCallItem.json item.toolCall ++
    optionalPointer "tool_result" ToolResultItem.json item.toolResult ++
    optionalPointer "reasoning" ReasoningItem.json item.reasoning ++
    optionalPointer "compaction" CompactionItem.json item.compaction ++
    optionalPointer "extension" OpaqueExtension.json item.extension)

def ToolDef.json (t : ToolDef) : Pieces :=
  object [member (lit "Name") (str t.name), member (lit "Description") (str t.description),
    member (lit "Parameters") (raw t.parameters)]

def ToolChoiceMode.name : ToolChoiceMode → GoStr
  | .unset => []
  | .auto => lit "auto"
  | .none => lit "none"
  | .any => lit "any"
  | .required => lit "required"
  | .other name => name

def ToolChoice.json (tc : ToolChoice) : Pieces :=
  object [member (lit "Mode") (str tc.mode.name), member (lit "Name") (str tc.name),
    member (lit "AllowedTools") (slice str tc.allowedTools)]

def GenerationOptions.json (o : GenerationOptions) : Pieces :=
  object [member (lit "Temperature") (pointer (fun x => [.number x]) o.temperature),
    member (lit "MaxOutputTokens") (pointer integer o.maxOutputTokens),
    member (lit "TopP") (pointer (fun x => [.number x]) o.topP),
    member (lit "ReasoningEffort") (str o.reasoningEffort),
    member (lit "Verbosity") (str o.verbosity),
    member (lit "ResponseMIMEType") (str o.responseMIMEType),
    member (lit "ParallelToolCalls") (pointer bool o.parallelToolCalls)]

def SemanticExtensionPresence.name : SemanticExtensionPresence → GoStr
  | .absent => lit "absent"
  | .null => lit "null"
  | .value => lit "value"
  | .other name => name

def SemanticExtension.json (e : SemanticExtension) : Pieces :=
  object [member (lit "Namespace") (str e.nameSpace), member (lit "Type") (str e.type),
    member (lit "Implementor") (str e.implementor), member (lit "Direction") (str e.direction),
    member (lit "Presence") (str e.presence.name), member (lit "Data") (raw e.data)]

def Call.json (c : Call) : Pieces :=
  object ([member (lit "ID") (str c.id),
    member (lit "Session") c.session.json,
    member (lit "Route") c.route.json,
    member (lit "Instructions") (slice Message.json c.instructions),
    member (lit "Messages") (slice Message.json c.messages),
    member (lit "Items") (slice Item.json c.items)] ++
    optionalPointer "Decision" DecisionRequest.json c.decision ++
    [member (lit "PreviousResponseID") (str c.previousResponseID),
    member (lit "PromptCacheKey") (str c.promptCacheKey),
    member (lit "SemanticExtensions") (slice SemanticExtension.json c.semanticExtensions),
    member (lit "Tools") (slice ToolDef.json c.tools),
    member (lit "ToolChoice") c.toolChoice.json,
    member (lit "Options") c.options.json,
    member (lit "Extensions") (mapping raw c.extensions)])

end InteractiveProxy.Lipapi
