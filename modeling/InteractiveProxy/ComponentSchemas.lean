import InteractiveProxy.MeteringSubject
import InteractiveProxy.RatingRules
import InteractiveProxy.DepthFirst

/-! Component keys with their canonical texts, and the schemas that declare how components contain
one another: their checks at publication and the inclusion graph that they are compiled to. -/
namespace InteractiveProxy.Billing

open GoText GuardedRun KeySort JsonEncoding Metering DepthFirst

inductive TopologyRule
  | directionMismatch
  | completeSiblingContains
  | completeSiblingSharedDescendant
  deriving DecidableEq

structure TopologyFinding where
  rule : TopologyRule
  schemaID : GoStr
  parent : GoStr := []
  left : GoStr
  right : GoStr
  shared : GoStr := []

inductive RelationshipKind
  | aggregate
  | subset
  | partition
  | transform
  | other (text : GoStr)
  deriving DecidableEq

inductive SchemaError
  | unknownDirection (direction : FlowDirection)
  | identity (text : GoStr)
  | unknownUnit (unit : GoStr)
  | wrongUnit (component want got : GoStr)
  | unknownComponent (component : GoStr)
  | wrongDirection (component : GoStr)
  | tooManyDimensions
  | dimension (i : ℕ) (text : GoStr)
  | duplicateDimension (name : GoStr)
  | unknownKind (kind : RelationshipKind)
  | parent (e : SchemaError)
  | child (e : SchemaError)
  | selfReference
  | unequalUnits (kind : RelationshipKind)
  | optionalMembership
  | tooManyRelationships
  | relationship (i : ℕ) (e : SchemaError)
  | duplicateRelationship
  | tooManySchemas
  | schema (i : ℕ) (e : SchemaError)
  | duplicateSchemaID (id : GoStr)
  | ambiguousPair (parent child : GoStr)
  | cycle (node : GoStr)
  | outOfFuel
  | topology (findings : List TopologyFinding)

def maxComponentNameBytes : ℕ := 256
def maxUnitNameBytes : ℕ := 128
def maxDimensionNameBytes : ℕ := 64
def maxDimensionValueBytes : ℕ := 256
def maxDimensions : ℕ := 16
def maxComponentSchemaRelationships : ℕ := 128
def maxComponentSchemas : ℕ := 64

def FlowDirection.isKnown : FlowDirection → Bool
  | .none | .input | .output => true
  | .other _ => false

def FlowDirection.text : FlowDirection → GoStr
  | .none => lit "none"
  | .input => lit "input"
  | .output => lit "output"
  | .other text => text

/-- `isKnownUnit`. -/
def knownUnits : List GoStr :=
  [lit "count", lit "token", lit "image", lit "audio", lit "video", lit "document", lit "file", lit "page", lit "tile",
    lit "second", lit "millisecond", lit "minute", lit "hour", lit "frame", lit "pixel",
    lit "megapixel",
    lit "megapixel_second", lit "byte", lit "byte_second", lit "query", lit "credit", lit "percent",
    lit "token_second"]

def registeredUnits : List (GoStr × GoStr) :=
  [(lit "request", lit "count"), (lit "input_token", lit "token"), (lit "output_token", lit "token"),
    (lit "cache_read_input_token", lit "token"), (lit "cache_write_input_token", lit "token"),
    (lit "reasoning_output_token", lit "token"), (lit "total_token", lit "token")]

def componentKeyUnits : List (GoStr × GoStr) :=
  [(lit "request", lit "count"), (lit "input_token", lit "token"), (lit "input_token_uncached", lit "token"),
    (lit "input_token_total", lit "token"), (lit "output_token", lit "token"),
    (lit "cache_read_input_token", lit "token"), (lit "cache_write_input_token", lit "token"),
    (lit "reasoning_output_token", lit "token"), (lit "total_token", lit "token"),
      (lit "text_token", lit "token"),
    (lit "image_token", lit "token"), (lit "audio_token", lit "token"),
      (lit "video_token", lit "token"),
    (lit "document_token", lit "token"), (lit "tool_query", lit "count"),
      (lit "credit", lit "credit"),
    (lit "cache_storage", lit "byte_second")]

def isKnownComponent (component : GoStr) : Bool :=
  (registeredUnits.map Prod.fst).contains component ||
    [lit "text_token", lit "input_token_uncached", lit "input_token_total", lit "image", lit "image_token",
      lit "audio", lit "audio_token", lit "video", lit "video_token", lit "document",
      lit "document_token",
      lit "file", lit "tool_query", lit "credit", lit "cache_storage"].contains component

def validateDirectionComponent (direction : FlowDirection) (component : GoStr) : Bool :=
  if component = lit "request" then direction = .none
  else if component ∈ [lit "text_token", lit "image", lit "image_token", lit "audio", lit "audio_token", lit "video",
      lit "video_token", lit "document", lit "document_token", lit "file"] then
    direction = .input || direction = .output
  else if component ∈ [lit "input_token", lit "input_token_uncached", lit "input_token_total",
      lit "cache_read_input_token", lit "cache_write_input_token"] then direction = .input
  else if component ∈ [lit "output_token", lit "reasoning_output_token"] then direction = .output
  else if component ∈ [lit "tool_query", lit "credit", lit "cache_storage", lit "total_token"] then
    direction = .none
  else true

def validateSchemaID (table : PrintTable) (id : GoStr) : Except SchemaError Unit :=
  if id = [] then .ok ()
  else (validateIdentityText table (lit "schema_id") id maxSchemaIDBytes).mapError .identity

def requireUnit (units : List (GoStr × GoStr)) (component unit : GoStr) : Except SchemaError Unit :=
  match units.lookup component with
  | some want => reject (unit ≠ want) (.wrongUnit component want unit)
  | none => .ok ()

/-- `Dimension.Validate` for each, with the names that were met. -/
def validateDimensions (table : PrintTable) :
    ℕ → List GoStr → List Dimension → Except SchemaError Unit
  | _, _, [] => .ok ()
  | i, seen, d :: rest => do
    (validateIdentityText table (lit "dimension name") d.name maxDimensionNameBytes).mapError (.dimension i)
    (validateIdentityText table (lit "dimension value") d.value maxDimensionValueBytes).mapError (.dimension i)
    reject (d.name ∈ seen) (.duplicateDimension d.name)
    validateDimensions table (i + 1) (d.name :: seen) rest

namespace ComponentKey

instance : Inhabited ComponentKey := ⟨⟨.none, [], [], [], []⟩⟩

variable (table : PrintTable)

def validate (k : ComponentKey) : Except SchemaError Unit := do
  reject (k.direction.isKnown = false) (.unknownDirection k.direction)
  (validateIdentityText table (lit "component") k.component maxComponentNameBytes).mapError .identity
  (validateIdentityText table (lit "unit") k.unit maxUnitNameBytes).mapError .identity
  validateSchemaID table k.schemaID
  reject (k.unit ∉ knownUnits ∧ k.schemaID = []) (.unknownUnit k.unit)
  requireUnit registeredUnits k.component k.unit
  requireUnit componentKeyUnits k.component k.unit
  reject (isKnownComponent k.component = false ∧ k.schemaID = []) (.unknownComponent k.component)
  reject (validateDirectionComponent k.direction k.component = false) (.wrongDirection k.component)
  reject (k.dimensions.length > maxDimensions) .tooManyDimensions
  validateDimensions table 0 [] k.dimensions

def normalize (k : ComponentKey) : Except SchemaError ComponentKey := do
  k.validate table
  return { k with dimensions := sortBy dimensionOrder k.dimensions }

/-- `json.Marshal` of a normalized key. -/
def encode (k : ComponentKey) : GoStr :=
  object ([member "direction" (quote k.direction.text), member "component" (quote k.component),
    member "unit" (quote k.unit)] ++ optionalText "schema_id" k.schemaID ++
    if k.dimensions = [] then []
    else [member "dimensions" (0x5B :: (join [0x2C] (k.dimensions.map fun d =>
      object [member "name" (quote d.name), member "value" (quote d.value)]) ++ [0x5D]))])

def canonicalKey (k : ComponentKey) : GoStr :=
  match k.normalize table with
  | .ok n => n.encode
  | .error _ => []

def equal (a b : ComponentKey) : Bool :=
  match a.normalize table, b.normalize table with
  | .ok a, .ok b => a = b
  | _, _ => false

end ComponentKey

namespace RelationshipKind

def text : RelationshipKind → GoStr
  | .aggregate => lit "aggregate"
  | .subset => lit "subset"
  | .partition => lit "partition"
  | .transform => lit "transform"
  | .other text => text

def isKnown : RelationshipKind → Bool
  | .other _ => false
  | _ => true

/-- `inclusionRelationship` and `isContainmentKind`: the parent includes the child. -/
def isContainment : RelationshipKind → Bool
  | .aggregate | .subset | .partition => true
  | _ => false

/-- `completeCoverageRelationship` and `isCompleteKind`: the parent is the sum of such children. -/
def isComplete : RelationshipKind → Bool
  | .aggregate | .partition => true
  | _ => false

end RelationshipKind

structure ComponentRelationship where
  kind : RelationshipKind
  parent : ComponentKey
  child : ComponentKey
  optional : Bool := false

structure ComponentSchema where
  id : GoStr
  version : GoStr
  relationships : List ComponentRelationship

section Validation

variable (table : PrintTable)

def ComponentRelationship.validate (r : ComponentRelationship) : Except SchemaError Unit := do
  reject (r.kind.isKnown = false) (.unknownKind r.kind)
  (r.parent.validate table).mapError .parent
  (r.child.validate table).mapError .child
  reject (r.parent.equal table r.child) .selfReference
  reject (r.kind ≠ .transform ∧ r.parent.unit ≠ r.child.unit) (.unequalUnits r.kind)
  reject (r.optional ∧ r.kind.isComplete = false) .optionalMembership

def ComponentRelationship.ends (r : ComponentRelationship) : GoStr × GoStr :=
  (r.parent.canonicalKey table, r.child.canonicalKey table)

def pairKey (ends : GoStr × GoStr) : GoStr := ends.1 ++ 0 :: ends.2

def validateRelationships : ℕ → List GoStr → List ComponentRelationship → Except SchemaError Unit
  | _, _, [] => .ok ()
  | i, seen, r :: rest => do
    (r.validate table).mapError (.relationship i)
    let key := r.kind.text ++ 0 :: pairKey (r.ends table)
    reject (key ∈ seen) .duplicateRelationship
    validateRelationships (i + 1) (key :: seen) rest

def ComponentSchema.validate (s : ComponentSchema) : Except SchemaError Unit := do
  (validateIdentityText table (lit "schema id") s.id maxSchemaIDBytes).mapError .identity
  (validateIdentityText table (lit "schema version") s.version maxSchemaIDBytes).mapError .identity
  reject (s.relationships.length > maxComponentSchemaRelationships) .tooManyRelationships
  validateRelationships table 0 [] s.relationships

def validatePairs : List GoStr → List ComponentRelationship → Except SchemaError (List GoStr)
  | pairs, [] => .ok pairs
  | pairs, r :: rest => do
    let ends := r.ends table
    reject (pairKey ends ∈ pairs) (.ambiguousPair ends.1 ends.2)
    validatePairs (pairKey ends :: pairs) rest

def validateSchemaSet : ℕ → List GoStr → List GoStr → List ComponentSchema → Except SchemaError Unit
  | _, _, _, [] => .ok ()
  | i, ids, pairs, s :: rest => do
    (s.validate table).mapError (.schema i)
    reject (s.id ∈ ids) (.duplicateSchemaID s.id)
    let pairs ← validatePairs table pairs s.relationships
    validateSchemaSet (i + 1) (s.id :: ids) pairs rest

variable (schemas : List ComponentSchema)

def allRelationships : List ComponentRelationship := schemas.flatMap ComponentSchema.relationships

def declaredPairs : List (GoStr × GoStr) :=
  (allRelationships schemas).map (ComponentRelationship.ends table)

def sortedTexts (texts : List GoStr) : List GoStr := sortBy textOrder texts.dedup

def childrenIn (pairs : List (GoStr × GoStr)) (node : GoStr) : List GoStr :=
  (pairs.filter fun pair => pair.1 = node).map Prod.snd

/-- `validateComponentRelationshipAcyclic`. -/
def validateAcyclic (pairs : List (GoStr × GoStr)) : Except SchemaError (List GoStr) :=
  let nodes := pairs.map Prod.fst ++ pairs.map Prod.snd
  let walk := visitAll (fun node => sortedTexts (childrenIn pairs node)) (nodes.length + 1)
    (sortedTexts (pairs.map Prod.fst))
  walk.mapError fun
    | .cycle node => .cycle node
    | .outOfFuel => .outOfFuel

def validateComponentSchemaStructure : Except SchemaError Unit := do
  reject (schemas.length > maxComponentSchemas) .tooManySchemas
  validateSchemaSet table 0 [] [] schemas
  let _ ← validateAcyclic (declaredPairs table schemas)

def pairsOf (kinds : RelationshipKind → Bool) (schemas : List ComponentSchema) :
    List (GoStr × GoStr) :=
  ((allRelationships schemas).filter fun r => kinds r.kind).map (ComponentRelationship.ends table)

def schemaOwning (parent child : GoStr) : GoStr :=
  ((schemas.find? fun s => s.relationships.any fun r =>
    r.kind.isContainment &&
      pairKey (r.ends table) = pairKey (parent, child)).map ComponentSchema.id).getD []

def containmentDescendants (node : GoStr) : List GoStr :=
  let pairs := pairsOf table RelationshipKind.isContainment schemas
  sortedTexts (GraphWalk.reachable (childrenIn pairs) (pairs.map Prod.fst ++ pairs.map Prod.snd) node)

def inspectSchemaTopologyDirection : List TopologyFinding :=
  schemas.flatMap fun s => (s.relationships.filter fun r =>
    r.kind.isContainment && r.parent.direction ≠ r.child.direction).map fun r =>
      { rule := .directionMismatch, schemaID := s.id, left := (r.ends table).2, right := (r.ends table).1 }

def sharedDescendants (parent : GoStr) (children : List GoStr) : List TopologyFinding :=
  let reachers (node : GoStr) :=
    children.filter fun child => node ∈ containmentDescendants table schemas child
  let nodes := sortedTexts (children.flatMap (containmentDescendants table schemas))
  nodes.filterMap fun node =>
    if node ∈ children then none
    else match sortBy textOrder (reachers node) with
      | left :: right :: _ =>
        some ⟨.completeSiblingSharedDescendant, schemaOwning table schemas parent left, parent, left, right, node⟩
      | _ => none

def siblingContainments (parent : GoStr) (children : List GoStr) : List TopologyFinding :=
  children.flatMap fun left => ((containmentDescendants table schemas left).filter fun right =>
    right ∈ children && right ≠ left).map fun right =>
      { rule := .completeSiblingContains, schemaID := schemaOwning table schemas parent left, parent, left, right }

def inspectSchemaTopologyCompleteSiblings : List TopologyFinding :=
  let complete := pairsOf table RelationshipKind.isComplete schemas
  (sortedTexts (complete.map Prod.fst)).flatMap fun parent =>
    let children := childrenIn complete parent
    if children.length < 2 then []
    else sharedDescendants table schemas parent children ++
      siblingContainments table schemas parent children

def enforcedSchemaTopologyRules : List TopologyRule :=
  [.completeSiblingSharedDescendant, .completeSiblingContains]

/-- `inspectSchemaTopology`, up to the order of the findings. -/
def inspectSchemaTopology : List TopologyFinding :=
  inspectSchemaTopologyDirection table schemas ++
    inspectSchemaTopologyCompleteSiblings table schemas

def validateComponentSchemas : Except SchemaError Unit := do
  validateComponentSchemaStructure table schemas
  let selected :=
    (inspectSchemaTopology table schemas).filter fun f => f.rule ∈ enforcedSchemaTopologyRules
  reject (selected ≠ []) (.topology selected)

end Validation

open TopologicalOrder

structure PartitionMember where
  id : ℕ
  optional : Bool
  deriving DecidableEq

structure SchemaProgram where
  keyOf : List ComponentKey
  keyStrings : List GoStr
  topo : List ℕ
  completeChildren : ℕ → List PartitionMember
  subsetChildren : ℕ → List ℕ
  containmentChildren : ℕ → List ℕ
  reverseContainment : ℕ → List ℕ
  sharedCompleteOwner : ℕ → Bool
  propagationDepth : ℕ
  declaredEdges : List (ℕ × ℕ)
  coverParents : List ℕ

namespace SchemaProgram

variable (program : SchemaProgram)

def count : ℕ := program.keyStrings.length

def byKey (canonical : GoStr) : Option ℕ := program.keyStrings.idxOf? canonical

def key (id : ℕ) : ComponentKey := program.keyOf.getD id default

def keyString (id : ℕ) : GoStr := program.keyStrings.getD id []

def completeIDs (id : ℕ) : List ℕ := (program.completeChildren id).map PartitionMember.id

end SchemaProgram

/-- A declared inclusion between components of one direction and unit, with the canonical texts of
both. -/
structure SchemaEdge where
  parent : ComponentKey
  child : ComponentKey
  parentKey : GoStr
  childKey : GoStr
  kind : RelationshipKind
  optional : Bool

def schemaEdge (table : PrintTable) (r : ComponentRelationship) : Option SchemaEdge :=
  if r.kind.isContainment = false then none
  else if r.parent.direction ≠ r.child.direction ∨ r.parent.unit ≠ r.child.unit then none
  else
    match r.parent.normalize table, r.child.normalize table with
    | .ok parent, .ok child =>
      if parent.canonicalKey table = [] ∨ child.canonicalKey table = [] then none
      else some ⟨parent, child, parent.canonicalKey table, child.canonicalKey table, r.kind, r.optional⟩
    | _, _ => none

def rawEdges (table : PrintTable) (schemas : List ComponentSchema) : List SchemaEdge :=
  (allRelationships schemas).filterMap (schemaEdge table)

def keyTable (edges : List SchemaEdge) : List (GoStr × ComponentKey) :=
  (edges.flatMap fun e => [(e.parentKey, e.parent), (e.childKey, e.child)]).reverse

def canonicalKeys (edges : List SchemaEdge) : List GoStr :=
  sortedTexts ((keyTable edges).map Prod.fst)

structure ProgramEdge where
  parent : ℕ
  child : ℕ
  kind : RelationshipKind
  optional : Bool
  deriving DecidableEq

def ProgramEdge.ends (e : ProgramEdge) : ℕ × ℕ := (e.parent, e.child)

def numberEdge (texts : List GoStr) (e : SchemaEdge) : ProgramEdge :=
  ⟨texts.idxOf e.parentKey, texts.idxOf e.childKey, e.kind, e.optional⟩

/-- The first edge between any two components; `seen` has the ends that were met. -/
def firstOfPair : List (ℕ × ℕ) → List ProgramEdge → List ProgramEdge
  | _, [] => []
  | seen, e :: rest =>
    if e.ends ∈ seen then firstOfPair seen rest else e :: firstOfPair (e.ends :: seen) rest

def edgeOrder (e : ProgramEdge) : ℕ ×ₗ ℕ ×ₗ List ℕ :=
  toLex (e.parent, toLex (e.child, textOrder e.kind.text))

variable (edges : List ProgramEdge)

def childrenOf (id : ℕ) : List ℕ := (edges.filter fun e => e.parent = id).map ProgramEdge.child

def parentsOf (id : ℕ) : List ℕ := (edges.filter fun e => e.child = id).map ProgramEdge.parent

def extendPath (parents : ℕ → List ℕ) (acc : ℕ × (ℕ → ℕ)) (node : ℕ) : ℕ × (ℕ → ℕ) :=
  let longest := (parents node).foldl (fun longest parent => max longest (acc.2 parent + 1)) 0
  (max acc.1 longest, Function.update acc.2 node longest)

def longestContainmentPath (parents : ℕ → List ℕ) (topo : List ℕ) : ℕ :=
  (topo.foldl (extendPath parents) (0, fun _ => 0)).1

def completeEdges : List ProgramEdge :=
  firstOfPair [] ((sortBy edgeOrder edges).filter fun e => e.kind.isComplete)

def subsetEdges : List ProgramEdge :=
  firstOfPair [] ((sortBy edgeOrder edges).filter fun e => e.kind = .subset)

def completeMembers (id : ℕ) : List PartitionMember :=
  ((completeEdges edges).filter fun e => e.parent = id).map fun e => ⟨e.child, e.optional⟩

/-- `compileSchemaProgram` from its edges on; the components are given by their texts. -/
def programOf (keys : List ComponentKey) (texts : List GoStr) (edges : List ProgramEdge) :
    SchemaProgram :=
  let containment := firstOfPair [] edges
  let topo := topologicalOrder (childrenOf containment) texts.length
  { keyOf := keys
    keyStrings := texts
    topo
    completeChildren := completeMembers edges
    subsetChildren := childrenOf (subsetEdges edges)
    containmentChildren := childrenOf containment
    reverseContainment := parentsOf containment
    -- No pair is met twice, so that two edges to one child are from two parents.
    sharedCompleteOwner := fun id => 1 < (parentsOf (completeEdges edges) id).length
    propagationDepth := longestContainmentPath (parentsOf containment) topo
    declaredEdges := edges.map ProgramEdge.ends
    coverParents := (List.range texts.length).filter fun id => completeMembers edges id ≠ [] }

def compileSchemaProgram (table : PrintTable) (schemas : List ComponentSchema) : SchemaProgram :=
  let edges := rawEdges table schemas
  let texts := canonicalKeys edges
  programOf (texts.map fun text => ((keyTable edges).lookup text).getD default) texts
    (edges.map (numberEdge texts))

open TopologicalOrder List ProgramEdge

variable {table : PrintTable} {ds : List Dimension}

lemma validateDimensions_eq_ok : validateDimensions table 0 [] ds = .ok () ↔ (∀ d ∈ ds,
      (IdentityText table maxDimensionNameBytes d.name ∧
        IdentityText table maxDimensionValueBytes d.value) ∧ d.name ∉ []) ∧
      (ds.map Dimension.name).Nodup := by
  refine walk_iff (fun s => validateDimensions table s.1 s.2) Dimension.name Prod.snd
    (fun s d => (s.1 + 1, d.name :: s.2)) (fun _ _ => rfl) (fun _ => rfl) (fun s d rest => ?_)
    (0, []) ds
  simp only [validateDimensions, seq_eq_ok, mapError_eq_ok, validateIdentityText_iff, reject_eq_ok,
    and_assoc]

lemma validate_of_perm {k : ComponentKey} (hperm : ds.Perm k.dimensions)
    (h : k.validate table = .ok ()) :
    ({ k with dimensions := ds } : ComponentKey).validate table = .ok () := by
  have hdims : validateDimensions table 0 [] k.dimensions = .ok () →
      validateDimensions table 0 [] ds = .ok () := by
    intro h
    obtain ⟨htexts, hnodup⟩ := validateDimensions_eq_ok.mp h
    refine validateDimensions_eq_ok.mpr ⟨fun d hd => htexts d (hperm.mem_iff.mp hd), ?_⟩
    exact (hperm.map Dimension.name).nodup_iff.mpr hnodup
  unfold ComponentKey.validate at h ⊢
  simp only [seq_eq_ok] at h ⊢
  rw [hperm.length_eq]
  obtain ⟨h1, h2, h3, h4, h5, h6, h7, h8, h9, h10, h11⟩ := h
  exact ⟨h1, h2, h3, h4, h5, h6, h7, h8, h9, h10, hdims h11⟩

variable {k n : ComponentKey}

section Normalized

variable (h : k.normalize table = .ok n)
include h

lemma normalize_eq_ok :
    k.validate table = .ok () ∧
    n = { k with dimensions := sortBy dimensionOrder k.dimensions } := by
  obtain ⟨hvalid, h⟩ := seq_eq_ok.mp h
  cases h
  exact ⟨hvalid, rfl⟩

lemma normalize_normalize : n.normalize table = .ok n := by
  obtain ⟨hvalid, rfl⟩ := normalize_eq_ok h
  refine seq_eq_ok.mpr ⟨validate_of_perm (sortBy_perm _ _) hvalid, ?_⟩
  simp only [sortBy_sortBy]
  rfl

lemma canonicalKey_of_normalize : k.canonicalKey table = n.encode := by
  unfold ComponentKey.canonicalKey
  rw [h]

lemma canonicalKey_normalize : n.canonicalKey table = k.canonicalKey table := by
  rw [canonicalKey_of_normalize h, canonicalKey_of_normalize (normalize_normalize h)]

end Normalized

variable {edges : List ProgramEdge} {seen : List (ℕ × ℕ)} {e : ProgramEdge} {parents : ℕ → List ℕ}
  {c : ℕ}

lemma mem_of_mem_firstOfPair (h : e ∈ firstOfPair seen edges) : e ∈ edges ∧ e.ends ∉ seen := by
  induction edges generalizing seen with
  | nil => cases h
  | cons a rest ih =>
    unfold firstOfPair at h
    split_ifs at h with ha
    · exact ⟨mem_cons_of_mem a (ih h).1, (ih h).2⟩
    · rcases mem_cons.mp h with rfl | h
      · exact ⟨mem_cons_self, ha⟩
      · exact ⟨mem_cons_of_mem a (ih h).1, fun hseen => (ih h).2 (mem_cons_of_mem _ hseen)⟩

lemma ends_mem_firstOfPair (h : e ∈ edges) (hseen : e.ends ∉ seen) :
    e.ends ∈ (firstOfPair seen edges).map ends := by
  induction edges generalizing seen with
  | nil => cases h
  | cons a rest ih =>
    unfold firstOfPair
    split_ifs with ha
    · rcases mem_cons.mp h with rfl | h
      · exact absurd ha hseen
      · exact ih h hseen
    · by_cases heq : e.ends = a.ends
      · rw [heq]
        exact mem_cons_self
      · rcases mem_cons.mp h with rfl | h
        · exact absurd rfl heq
        · exact mem_cons_of_mem _ (ih h (by simp [heq, hseen]))

lemma firstOfPair_nodup (seen : List (ℕ × ℕ)) (edges : List ProgramEdge) :
    ((firstOfPair seen edges).map ends).Nodup := by
  induction edges generalizing seen with
  | nil => exact nodup_nil
  | cons a rest ih =>
    unfold firstOfPair
    split_ifs
    · exact ih seen
    · refine nodup_cons.mpr ⟨fun hmem => ?_, ih _⟩
      obtain ⟨e, he, hends⟩ := mem_map.mp hmem
      exact (mem_of_mem_firstOfPair he).2 (hends ▸ mem_cons_self)

lemma mem_childrenOf {n : ℕ} : c ∈ childrenOf edges n ↔ (n, c) ∈ edges.map ends := by
  simp [childrenOf, ends, and_assoc]

lemma mem_parentsOf {n : ℕ} : n ∈ parentsOf edges c ↔ (n, c) ∈ edges.map ends := by
  simp only [parentsOf, mem_map, mem_filter, decide_eq_true_eq, ends, Prod.mk.injEq, and_assoc]
  exact exists_congr fun e => and_congr_right fun _ => and_comm

lemma mem_completeIDs {n : ℕ} :
    c ∈ (completeMembers edges n).map PartitionMember.id ↔
    (n, c) ∈ (completeEdges edges).map ends := by
  simp [completeMembers, ends, and_assoc]

lemma completeMembers_nodup (edges : List ProgramEdge) (n : ℕ) :
    ((completeMembers edges n).map PartitionMember.id).Nodup := by
  have hnodup := firstOfPair_nodup [] ((sortBy edgeOrder edges).filter fun e => e.kind.isComplete)
  have hfilter : ((completeEdges edges).filter fun e => e.parent = n).map ends =
      ((completeMembers edges n).map PartitionMember.id).map (Prod.mk n) := by
    unfold completeMembers
    rw [map_map, map_map]
    refine map_congr_left fun e he => ?_
    have hparent := of_decide_eq_true (mem_filter.mp he).2
    simp [ends, hparent]
  have hsub : (((completeEdges edges).filter fun e => e.parent = n).map ends).Nodup :=
    hnodup.sublist (filter_sublist.map _)
  exact (hfilter ▸ hsub).of_map _

lemma parents_eq_of_unshared {a b : ℕ} (ha : (a, c) ∈ (completeEdges edges).map ends)
    (hb : (b, c) ∈ (completeEdges edges).map ends)
    (h : (parentsOf (completeEdges edges) c).length ≤ 1) : a = b := by
  have ha := mem_parentsOf.mpr ha
  have hb := mem_parentsOf.mpr hb
  match hparents : parentsOf (completeEdges edges) c with
  | [] =>
    rw [hparents] at ha
    cases ha
  | [p] =>
    rw [hparents, mem_singleton] at ha hb
    exact ha.trans hb.symm
  | _ :: _ :: _ =>
    rw [hparents] at h
    simp at h

structure SchemaProgram.WellFormed (program : SchemaProgram) : Prop where
  ordered : Ordered program.containmentChildren program.topo
  topo_perm : program.topo.Perm (range program.count)
  contained_lt : ∀ {n c}, c ∈ program.containmentChildren n → n < program.count ∧ c < program.count
  mem_reverse : ∀ {n c}, n ∈ program.reverseContainment c ↔ c ∈ program.containmentChildren n
  complete_contained : ∀ {n c}, c ∈ program.completeIDs n → c ∈ program.containmentChildren n
  complete_nodup : ∀ n, (program.completeIDs n).Nodup
  subset_contained : ∀ {n c}, c ∈ program.subsetChildren n → c ∈ program.containmentChildren n
  owner_unique : ∀ {a b c}, c ∈ program.completeIDs a → c ∈ program.completeIDs b →
    program.sharedCompleteOwner c = false → a = b
  keyStrings_nodup : program.keyStrings.Nodup

section Compile

variable {table : PrintTable} {schemas : List ComponentSchema} {texts : List GoStr}
  {r : ComponentRelationship}

lemma schemaEdge_eq_some {e : SchemaEdge} (h : schemaEdge table r = some e) :
    e.kind = r.kind ∧ r.kind.isContainment ∧ (e.parentKey, e.childKey) = r.ends table := by
  unfold schemaEdge at h
  split_ifs at h with hkind hside
  split at h
  · next parent child hparent hchild =>
    split_ifs at h
    cases h
    exact ⟨rfl, eq_true_of_ne_false hkind, Prod.ext (canonicalKey_normalize hparent) (canonicalKey_normalize hchild)⟩
  · cases h

lemma validateComponentSchemas_structure (h : validateComponentSchemas table schemas = .ok ()) :
    validateSchemaSet table 0 [] [] schemas = .ok () ∧
      ∃ order, validateAcyclic (declaredPairs table schemas) = .ok order := by
  simp only [validateComponentSchemas, validateComponentSchemaStructure, seq_eq_ok] at h
  obtain ⟨⟨-, hset, hacyclic⟩, -⟩ := h
  exact ⟨hset, (bind_eq_ok.mp hacyclic).imp fun _ => And.left⟩

lemma exists_textRank (h : validateComponentSchemas table schemas = .ok ()) :
    ∃ rank :
    GoStr → ℕ, ∀ r ∈ allRelationships schemas, rank (r.ends table).2 < rank (r.ends table).1 := by
  obtain ⟨-, order, hacyclic⟩ := validateComponentSchemas_structure h
  obtain ⟨hordered, hnodes⟩ := visitAll_ordered (mapError_eq_ok.mp hacyclic)
  obtain ⟨rank, hrank⟩ := hordered.exists_rank
  refine ⟨rank, fun r hr => ?_⟩
  have hpair : r.ends table ∈ declaredPairs table schemas := mem_map_of_mem hr
  have hparent : (r.ends table).1 ∈ sortedTexts ((declaredPairs table schemas).map Prod.fst) :=
    mem_sortBy.mpr (mem_dedup.mpr (mem_map_of_mem hpair))
  refine (hrank _ (hnodes _ hparent)).2 _ (mem_sortBy.mpr (mem_dedup.mpr ?_))
  exact mem_map.mpr ⟨r.ends table, mem_filter.mpr ⟨hpair, by simp⟩, rfl⟩

lemma mem_canonicalKeys {edges : List SchemaEdge} {e : SchemaEdge} (he : e ∈ edges) :
    e.parentKey ∈ canonicalKeys edges ∧ e.childKey ∈ canonicalKeys edges := by
  have hmem : ∀ key, (key = e.parentKey ∨ key = e.childKey) → key ∈ canonicalKeys edges := by
    intro key hkey
    refine mem_sortBy.mpr (mem_dedup.mpr ?_)
    simp only [keyTable, mem_reverse, mem_map, mem_flatMap]
    rcases hkey with rfl | rfl
    · exact ⟨(e.parentKey, e.parent), ⟨e, he, by simp⟩, rfl⟩
    · exact ⟨(e.childKey, e.child), ⟨e, he, by simp⟩, rfl⟩
  exact ⟨hmem _ (.inl rfl), hmem _ (.inr rfl)⟩

lemma canonicalKeys_nodup (edges : List SchemaEdge) : (canonicalKeys edges).Nodup :=
  (sortBy_perm _ _).nodup_iff.mpr (nodup_dedup _)

lemma getD_idxOf {text : GoStr} (h : text ∈ texts) :
    texts.idxOf text < texts.length ∧ texts.getD (texts.idxOf text) [] = text := by
  have hlt := idxOf_lt_length_of_mem h
  refine ⟨hlt, ?_⟩
  rw [getD_eq_getElem?_getD, getElem?_eq_getElem hlt, Option.getD_some, getElem_idxOf]

lemma exists_nodeRank (h : validateComponentSchemas table schemas = .ok ()) :
    let edges := rawEdges table schemas
    let texts := canonicalKeys edges
    ∃ rank : ℕ → ℕ, ∀ e ∈ edges.map (numberEdge texts),
      e.parent < texts.length ∧ e.child < texts.length ∧ rank e.child < rank e.parent := by
  intro edges texts
  obtain ⟨rank, hrank⟩ := exists_textRank h
  refine ⟨fun n => rank (texts.getD n []), fun e he => ?_⟩
  obtain ⟨raw, hraw, rfl⟩ := mem_map.mp he
  obtain ⟨r, hr, hedge⟩ := mem_filterMap.mp hraw
  obtain ⟨hparent, hchild⟩ := mem_canonicalKeys hraw
  refine ⟨(getD_idxOf hparent).1, (getD_idxOf hchild).1, ?_⟩
  have hless := hrank r hr
  rw [← (schemaEdge_eq_some hedge).2.2] at hless
  change rank (texts.getD (texts.idxOf raw.childKey) []) <
    rank (texts.getD (texts.idxOf raw.parentKey) [])
  rw [(getD_idxOf hparent).2, (getD_idxOf hchild).2]
  exact hless

lemma filtered_sub_containment {kinds : ProgramEdge → Bool} {ends : ℕ × ℕ}
    (h : ends ∈ (firstOfPair [] ((sortBy edgeOrder edges).filter kinds)).map ProgramEdge.ends) :
    ends ∈ (firstOfPair [] edges).map ProgramEdge.ends := by
  obtain ⟨e, he, rfl⟩ := mem_map.mp h
  have hmem := (mem_of_mem_firstOfPair he).1
  exact ends_mem_firstOfPair (mem_sortBy.mp (mem_of_mem_filter hmem)) not_mem_nil

lemma programOf_wellFormed {keys : List ComponentKey} (htexts : texts.Nodup) {rank : ℕ → ℕ}
    (hrank : ∀ e ∈ edges, e.parent < texts.length ∧ e.child < texts.length ∧ rank e.child < rank e.parent) :
    (programOf keys texts edges).WellFormed := by
  have hedge : ∀ {n c}, (n, c) ∈ (firstOfPair [] edges).map ends →
      n < texts.length ∧ c < texts.length ∧ rank c < rank n := by
    intro n c hmem
    obtain ⟨e, he, hends⟩ := mem_map.mp hmem
    cases hends
    exact hrank e (mem_of_mem_firstOfPair he).1
  have hdescends : Descends (childrenOf (firstOfPair [] edges)) texts.length rank := by
    intro n _ c hc
    obtain ⟨-, hc, hless⟩ := hedge (mem_childrenOf.mp hc)
    exact ⟨hc, hless⟩
  obtain ⟨hordered, hperm⟩ := topologicalOrder_ordered hdescends
  refine ⟨hordered, hperm, ?_, ?_, ?_, ?_, ?_, ?_, htexts⟩
  · intro n c hc
    obtain ⟨hn, hc, -⟩ := hedge (mem_childrenOf.mp hc)
    exact ⟨hn, hc⟩
  · intro n c
    exact mem_parentsOf.trans mem_childrenOf.symm
  · intro n c hc
    exact mem_childrenOf.mpr (filtered_sub_containment (mem_completeIDs.mp hc))
  · exact completeMembers_nodup edges
  · intro n c hc
    exact mem_childrenOf.mpr (filtered_sub_containment (mem_childrenOf.mp hc))
  · intro a b c ha hb hshared
    refine parents_eq_of_unshared (mem_completeIDs.mp ha) (mem_completeIDs.mp hb) ?_
    exact not_lt.mp (of_decide_eq_false hshared)

lemma compile_wellFormed (h : validateComponentSchemas table schemas = .ok ()) :
    (compileSchemaProgram table schemas).WellFormed := by
  obtain ⟨rank, hrank⟩ := exists_nodeRank h
  exact programOf_wellFormed (canonicalKeys_nodup _) hrank

end Compile

end InteractiveProxy.Billing
