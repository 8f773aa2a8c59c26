import InteractiveProxy.GoText
import InteractiveProxy.GuardedRun

/-! Route selectors and their parser. An alternative of the failover chain is a target, a weighted
group `a^b` or a parallel group `a!b`; a weighted group of a thinker may have one parallel group as
its executor. -/
namespace InteractiveProxy.Routing

open GoText

/-- Query parameters, `url.Values` with the functions of `net/url` that the code calls. -/
class QueryValues (Q : Type) where
  parseQuery : GoStr → Except GoStr Q
  /-- The number of names, `len` of the map. -/
  len : Q → ℕ
  encode : Q → GoStr

instance textQuery : QueryValues GoStr where
  parseQuery := .ok
  len q := if q = [] then 0 else 1
  encode q := q

/-- `AffinityMode`. -/
inductive Affinity
  | none
  | session
  | client
  deriving DecidableEq

structure RequestSizeConstraint where
  minContextTokens : Option ℤ := none
  maxContextTokens : Option ℤ := none

structure Primary (Q : Type) where
  backend : GoStr := []
  model : GoStr := []
  nativeModel : GoStr := []
  params : Option Q := none
  size : RequestSizeConstraint := {}
  /-- Durations are in nanoseconds. -/
  ttftTimeout : Option ℤ := none

structure ParallelBranch (Q : Type) where
  target : Primary Q
  handicap : ℤ := 0

structure Parallel (Q : Type) where
  branches : List (ParallelBranch Q)

structure WeightedBranch (Q : Type) where
  weight : ℤ := 0
  isFirst : Bool := false
  isThinker : Bool := false
  target : Primary Q := {}
  parallel : Option (Parallel Q) := none

structure Weighted (Q : Type) where
  branches : List (WeightedBranch Q)

structure FailoverAlt (Q : Type) where
  primary : Option (Primary Q) := none
  weighted : Option (Weighted Q) := none
  parallel : Option (Parallel Q) := none

structure Selector (Q : Type) where
  alternatives : List (FailoverAlt Q)
  globalTTFTTimeout : Option ℤ := none
  affinity : Affinity := .none

section Targets

variable {Q : Type}

/-- The targets of a branch: its own or those of its parallel group. -/
def WeightedBranch.targets (b : WeightedBranch Q) : List (Primary Q) :=
  match b.parallel with
  | some p => p.branches.map (·.target)
  | none => [b.target]

/-- The targets of an alternative, in the order of the text. -/
def FailoverAlt.targets (alt : FailoverAlt Q) : List (Primary Q) :=
  match alt.primary, alt.weighted, alt.parallel with
  | some p, _, _ => [p]
  | none, some w, _ => w.branches.flatMap (·.targets)
  | none, none, some p => p.branches.map (·.target)
  | none, none, none => []

def Selector.targets (sel : Selector Q) : List (Primary Q) := sel.alternatives.flatMap (·.targets)

@[simp] def Weighted.thinkerAware (w : Weighted Q) : Bool := w.branches.any (·.isThinker)

end Targets

/-- `config.ExecutionCompositionPolicy`; a text that is neither policy acts like `safe`. -/
inductive CompositionPolicy
  | unset
  | safe
  | unrestricted
  | other (text : GoStr)
  deriving DecidableEq

/-- `lipsdk.BackendExecutionClass`. -/
inductive ExecutionClass
  | unknown
  | inference
  | agentRuntime

/-- What the functions of the package return as errors. A text that the code ends with a quoted
value has the value beside it. -/
inductive RouteError
  | invalidSelector (text : GoStr) (quoted : Option GoStr)
  | noEligibleCandidate
  | weightedTotalTooLarge
  | internal (text : GoStr)
  | unresolvedModelOnly
  | unknownBackend (id : GoStr)
  | unsafeComposition (composition backend : GoStr) (found : ExecutionClass)
    (policy : CompositionPolicy)
  | resolverUnavailable
  | notConfigured

def invalid {α : Type} (text : String) : Except RouteError α :=
  .error (.invalidSelector (lit text) none)

variable {Q : Type} [QueryValues Q]

/-- `Primary.String`, the key of a target in exclusion and health maps. -/
def Primary.key (p : Primary Q) : GoStr :=
  (if p.backend ≠ [] then p.backend ++ lit ":" else []) ++ p.model ++
    match p.params with
    | none => []
    | some q => if 0 < QueryValues.len q then lit "?" ++ QueryValues.encode q else []

def maxParallelBranches : ℕ := 16

def second : ℤ := 1000000000

def refuseIf (bad : Bool) (text : String) : Except RouteError Unit :=
  if bad then invalid text else .ok ()

def prepend (b : UInt8) : List GoStr → List GoStr
  | [] => [[b]]
  | piece :: pieces => (b :: piece) :: pieces

/-- The loop of `splitOutsideBrackets` from a bracket depth on. -/
def splitFrom (sep : UInt8) : ℤ → GoStr → List GoStr
  | _, [] => [[]]
  | depth, b :: rest =>
    if b = 0x5B then prepend b (splitFrom sep (depth + 1) rest)
    else if b = 0x5D then prepend b (splitFrom sep (depth - 1) rest)
    else if b = sep ∧ depth = 0 then [] :: splitFrom sep depth rest
    else prepend b (splitFrom sep depth rest)

variable (s : GoStr)

/-- Split at the separators that stand outside brackets. A closing bracket without an opening one
makes the depth negative, and nothing behind it is split until the next opening bracket. -/
def splitOutsideBrackets (sep : UInt8) : List GoStr := splitFrom sep 0 s

/-- The loop of `hasTopLevelBang` and `hasTopLevelCaret`. -/
def hasTopLevel (sep : UInt8) : ℤ → GoStr → Bool
  | _, [] => false
  | depth, b :: rest =>
    if b = 0x5B then hasTopLevel sep (depth + 1) rest
    else if b = 0x5D then hasTopLevel sep (depth - 1) rest
    else if b = sep ∧ depth = 0 then true
    else hasTopLevel sep depth rest

def hasTopLevelBang : Bool := hasTopLevel 0x21 0 s
def hasTopLevelCaret : Bool := hasTopLevel 0x5E 0 s

def splitParallelLegs : List GoStr := splitOutsideBrackets s 0x21

def entryKey (entry : GoStr) : GoStr := toLower (trimSpace (cut 0x3D (trimSpace entry)).1)

/-- Does one of the bracket blocks at the front have a key of the list? `unclosed` is the answer for
a block that does not end. Every block has a byte, so the length is enough fuel. -/
def prefixHasKey (keys : List GoStr) (unclosed : Bool) : ℕ → GoStr → Bool
  | fuel + 1, 0x5B :: tail =>
    let (inside, after, closed) := cut 0x5D tail
    if !closed then unclosed
    else if (splitOn 0x2C inside).any fun entry => entryKey entry ∈ keys then true
    else prefixHasKey keys unclosed fuel (trimSpace after)
  | _, _ => false

def hasWeightedAnnotationPrefix : Bool :=
  prefixHasKey [lit "weight", lit "first", lit "thinker"] true s.length (trimSpace s)

def prefixHasThinker : Bool := prefixHasKey [lit "thinker"] false s.length (trimSpace s)

def parsePositiveInt64Annotation (key : String) (raw : GoStr) (hasValue : Bool) :
    Except RouteError ℤ :=
  if !hasValue || trimSpace raw == [] then invalid (key ++ " must be a positive integer")
  else
    match parseInt64 raw with
    | none => invalid (key ++ " must be a positive integer")
    | some n => if n ≤ 0 then invalid (key ++ " must be a positive integer") else .ok n

def parsePositiveIntAnnotation (key : String) (raw : GoStr) (hasValue : Bool) :
    Except RouteError ℤ := do
  let n ← parsePositiveInt64Annotation key raw hasValue
  -- `int` has 64 bits, so nothing is refused here.
  refuseIf (n > maxInt64) (key ++ " is too large")
  .ok n

def tokenSuffix : ℤ × GoStr :=
  match s.getLast? with
  | some b =>
    if b = 0x6B ∨ b = 0x4B then (1000, trimSpace s.dropLast)
    else if b = 0x6D ∨ b = 0x4D then (1000000, trimSpace s.dropLast)
    else (1, s)
  | none => (1, s)

def parsePositiveTokenCountAnnotation (key : String) (raw : GoStr) (hasValue : Bool) :
    Except RouteError ℤ :=
  let refused : Except RouteError ℤ :=
    invalid (key ++ " must be a positive token count with optional K/M suffix")
  if !hasValue || trimSpace raw == [] then refused
  else
    let (multiplier, s) := tokenSuffix (trimSpace raw)
    if s = [] then refused
    else
      match parseInt64 s with
      | none => refused
      | some n =>
        if n ≤ 0 then refused
        else if n > maxInt64 / multiplier then invalid (key ++ " is too large")
        else .ok (n * multiplier)

def parsePositiveSecondsDurationAnnotation (key : String) (raw : GoStr) (hasValue : Bool) :
    Except RouteError ℤ := do
  let n ← parsePositiveInt64Annotation key raw hasValue
  refuseIf (n > maxInt64 / second) (key ++ " is too large")
  .ok (n * second)

def parseThinkerValue (raw : GoStr) (hasValue : Bool) : Except RouteError Bool :=
  if !hasValue then .ok true
  else if toLower (trimSpace raw) ∈ [lit "1", lit "yes", lit "true"] then .ok true
  else invalid "[thinker] must be a true-valued boolean"

/-- The key of a trimmed entry `key=value` in lower case, its value and whether it has one. -/
def entryParts (entry : GoStr) : GoStr × GoStr × Bool :=
  let (left, right, hasValue) := cut 0x3D entry
  (toLower (trimSpace left), if hasValue then trimSpace right else right, hasValue)

structure PrefixAnnotations where
  weight : Option ℤ := none
  first : Bool := false
  thinker : Bool := false
  size : RequestSizeConstraint := {}
  ttftTimeout : Option ℤ := none
  handicap : Option ℤ := none

def applyAnnotation (ann : PrefixAnnotations) (key raw : GoStr) (hasValue : Bool) :
    Except RouteError PrefixAnnotations :=
  if key = lit "weight" then do
    refuseIf ann.weight.isSome "duplicate [weight=N] annotation"
    let n ← parsePositiveIntAnnotation "weight" raw hasValue
    .ok { ann with weight := some n }
  else if key = lit "first" then do
    refuseIf ann.first "duplicate [first] annotation"
    refuseIf (hasValue && trimSpace raw != []) "[first] does not take a value"
    .ok { ann with first := true }
  else if key = lit "thinker" then do
    refuseIf ann.thinker "duplicate [thinker] annotation"
    let on ← parseThinkerValue raw hasValue
    .ok { ann with thinker := on }
  else if key = lit "max_context" then do
    refuseIf ann.size.maxContextTokens.isSome "duplicate [max_context=N] annotation"
    let n ← parsePositiveTokenCountAnnotation "max_context" raw hasValue
    .ok { ann with size := { ann.size with maxContextTokens := some n } }
  else if key = lit "min_context" then do
    refuseIf ann.size.minContextTokens.isSome "duplicate [min_context=N] annotation"
    let n ← parsePositiveTokenCountAnnotation "min_context" raw hasValue
    .ok { ann with size := { ann.size with minContextTokens := some n } }
  else if key = lit "ttft_timeout" then do
    refuseIf ann.ttftTimeout.isSome "duplicate [ttft_timeout=N] annotation"
    let d ← parsePositiveSecondsDurationAnnotation "ttft_timeout" raw hasValue
    .ok { ann with ttftTimeout := some d }
  else if key = lit "handicap" then do
    refuseIf ann.handicap.isSome "duplicate [handicap=N] annotation"
    let d ← parsePositiveSecondsDurationAnnotation "handicap" raw hasValue
    .ok { ann with handicap := some d }
  else .error (.invalidSelector (lit "unsupported annotation key ") (some key))

def annotationEntry (ann : PrefixAnnotations) (entry : GoStr) :
    Except RouteError PrefixAnnotations := do
  let entry := trimSpace entry
  refuseIf (entry == []) "malformed annotation list"
  let (key, raw, hasValue) := entryParts entry
  applyAnnotation ann key raw hasValue

def annotationBlocks : ℕ → PrefixAnnotations → GoStr → Except RouteError (PrefixAnnotations × GoStr)
  | fuel + 1, ann, 0x5B :: tail => do
    let (inside, after, closed) := cut 0x5D tail
    refuseIf (!closed) "unclosed annotation prefix"
    refuseIf (trimSpace inside == []) "empty annotation prefix"
    let ann ← (splitOn 0x2C (trimSpace inside)).foldlM annotationEntry ann
    annotationBlocks fuel ann (trimSpace after)
  | _, ann, rest => .ok (ann, rest)

def RequestSizeConstraint.crossed (size : RequestSizeConstraint) : Bool :=
  match size.minContextTokens, size.maxContextTokens with
  | some low, some high => low ≥ high
  | _, _ => false

def extractPrefixAnnotations : Except RouteError (PrefixAnnotations × GoStr) := do
  let (ann, rest) ← annotationBlocks s.length {} (trimSpace s)
  refuseIf ann.size.crossed "min_context must be less than max_context"
  .ok (ann, rest)

def globalKeys : List GoStr :=
  [lit "ttft_timeout", lit "affinity", lit "session_sticky", lit "client_sticky"]

/-- The loop of `containsGlobalParamBlock`; `last` is the byte in front of the text. -/
def containsBlockFrom : ℕ → UInt8 → GoStr → Bool
  | fuel + 1, last, b :: rest =>
    if b ≠ 0x7B ∨ last = 0x24 then containsBlockFrom fuel b rest
    else
      let (inside, after, closed) := cut 0x7D rest
      if !closed then containsBlockFrom fuel b rest
      else if toLower (trimSpace (cut 0x3D (trimSpace inside)).1) ∈ globalKeys then true
      else containsBlockFrom fuel 0x7D after
  | _, _, _ => false

def containsGlobalParamBlock : Bool := containsBlockFrom s.length 0 s

variable {Q : Type} [QueryValues Q]

def parseParams (hasQuery : Bool) (query : GoStr) : Except RouteError (Option Q) :=
  if hasQuery then
    match QueryValues.parseQuery query with
    | .ok values => .ok (some values)
    | .error err => .error (.invalidSelector (lit "parse query: " ++ err) none)
  else .ok none

variable (s : GoStr)

def parsePrimaryWithAnnotations (ann : PrefixAnnotations) : Except RouteError (Primary Q) := do
  let raw := trimSpace s
  refuseIf (raw == []) "empty primary"
  let (path, query, hasQuery) := cut 0x3F raw
  let params ← parseParams hasQuery query
  let path := trimSpace path
  refuseIf (path == []) "missing model in primary"
  refuseIf (containsGlobalParamBlock path) "global parameters must appear before the first leaf"
  let (left, right, hasColon) := cut 0x3A path
  let backend := trimSpace (if hasColon then left else [])
  let model := trimSpace (if hasColon then right else path)
  refuseIf (model == []) "model is required"
  refuseIf (backend.contains 0x7C || model.contains 0x7C)
    "unexpected '|' in primary (use failover '|' at top level)"
  .ok { backend, model, params, size := ann.size, ttftTimeout := ann.ttftTimeout }

def parsePrimary : Except RouteError (Primary Q) := do
  let (ann, rest) ← extractPrefixAnnotations s
  refuseIf (ann.weight.isSome || ann.first) "[weight] and [first] are only valid on weighted branches"
  refuseIf ann.thinker "[thinker] is only valid on weighted branches"
  refuseIf ann.handicap.isSome "[handicap] is only valid on parallel branches"
  parsePrimaryWithAnnotations rest ann

def parseParallelBranch : Except RouteError (ParallelBranch Q) := do
  let (ann, rest) ← extractPrefixAnnotations s
  refuseIf (ann.weight.isSome || ann.first) "[weight] and [first] are not valid on parallel branches"
  refuseIf ann.thinker "[thinker] is only valid on weighted branches"
  let rest := trimSpace rest
  refuseIf (rest == []) "missing primary after annotations"
  let target ← parsePrimaryWithAnnotations rest ann
  .ok { target, handicap := ann.handicap.getD 0 }

def parseParallel : Except RouteError (Parallel Q) := do
  let parts := splitParallelLegs s
  refuseIf (parts.length > maxParallelBranches) "too many parallel branches (max 16)"
  let branches ← parts.mapM fun part => do
    refuseIf (trimSpace part == []) "empty parallel branch"
    parseParallelBranch (trimSpace part)
  refuseIf branches.isEmpty "no parallel branches"
  .ok { branches }

def parseWeightedBranch : Except RouteError (WeightedBranch Q) := do
  let (ann, rest) ← extractPrefixAnnotations s
  refuseIf ann.handicap.isSome "[handicap] is only valid on parallel branches"
  refuseIf (ann.first && ann.thinker) "[first] and [thinker] cannot be combined on the same branch"
  let rest := trimSpace rest
  refuseIf (rest == []) "missing primary after annotations"
  let target ← parsePrimaryWithAnnotations rest ann
  .ok { weight := ann.weight.getD 1, isFirst := ann.first, isThinker := ann.thinker, target }

def parseWeighted : Except RouteError (Weighted Q) := do
  let branches ← (splitOutsideBrackets s 0x5E).mapM fun part => do
    refuseIf (trimSpace part == []) "empty weighted branch"
    parseWeightedBranch (trimSpace part)
  refuseIf branches.isEmpty "no weighted branches"
  .ok { branches }

def validateWeightedFirst (w : Weighted Q) : Except RouteError Unit :=
  refuseIf (1 < w.branches.countP (·.isFirst))
    "at most one [first] branch is allowed in a weighted selector"

def validateWeightedThinker (w : Weighted Q) : Except RouteError Unit := do
  let thinkerCount := w.branches.countP (·.isThinker)
  let executorCount := w.branches.countP (!·.isThinker)
  refuseIf (1 < thinkerCount) "at most one [thinker] branch is allowed in a weighted selector"
  refuseIf (0 < thinkerCount && executorCount == 0)
    "weighted selector with [thinker] requires at least one non-thinker branch"

def parseWeightedBranchWithParallelTarget : Except RouteError (WeightedBranch Q) := do
  let rest := trimSpace s
  refuseIf (rest == []) "missing parallel executor expression"
  refuseIf (!hasTopLevelBang rest) "embedded executor branch must be a parallel group"
  let parallel ← parseParallel rest
  .ok { weight := 1, parallel := some parallel }

/-- A group of one thinker and one parallel executor; `none` where the text has another shape. -/
def tryParseThinkerParallelHybrid : Except RouteError (Option (Weighted Q)) :=
  match splitOutsideBrackets s 0x5E with
  | [part₀, part₁] =>
    let thinkerSecond := prefixHasThinker part₁
    if prefixHasThinker part₀ = thinkerSecond then .ok none
    else do
      let thinkerPart := if thinkerSecond then part₁ else part₀
      let executorPart := if thinkerSecond then part₀ else part₁
      refuseIf (hasTopLevelBang thinkerPart)
        "[thinker] branch cannot target an embedded parallel executor group"
      if !hasTopLevelBang executorPart then .ok none
      else
        let thinker ← parseWeightedBranch thinkerPart
        refuseIf (!thinker.isThinker) "[thinker] annotation required on thinker branch"
        let executor ← parseWeightedBranchWithParallelTarget executorPart
        .ok (some { branches := if thinkerSecond then [executor, thinker] else [thinker, executor] })
  | _ => .ok none

/-- The two checks that end the parsing of every weighted group. -/
def validated (w : Weighted Q) : Except RouteError (FailoverAlt Q) := do
  validateWeightedFirst w
  validateWeightedThinker w
  .ok { weighted := some w }

def parseFailoverAlt : Except RouteError (FailoverAlt Q) :=
  let s := trimSpace s
  let weightedForm := hasTopLevelCaret s || hasWeightedAnnotationPrefix s
  if hasTopLevelBang s && weightedForm then do
    match ← tryParseThinkerParallelHybrid s with
    | some w => validated w
    | none => invalid "parallel '!' and weighted '^'/[weight]/[first] cannot be mixed in one arm"
  else if hasTopLevelBang s then do
    let p ← parseParallel s
    .ok { parallel := some p }
  else if weightedForm then do
    let w ← parseWeighted s
    validated w
  else do
    let p ← parsePrimary s
    .ok { primary := some p }

structure GlobalParams where
  ttftTimeout : Option ℤ := none
  affinity : Affinity := .none

/-- `session_sticky` and `client_sticky`, which take no value. -/
def stickyEntry (out : GlobalParams) (name : String) (affinity : Affinity) (hasValue : Bool) :
    Except RouteError GlobalParams := do
  refuseIf (out.affinity != .none) "duplicate affinity global parameter"
  refuseIf hasValue (name ++ " does not take a value")
  .ok { out with affinity }

def applyGlobal (out : GlobalParams) (key raw : GoStr) (hasValue : Bool) :
    Except RouteError GlobalParams :=
  if key = lit "ttft_timeout" then do
    refuseIf out.ttftTimeout.isSome "duplicate ttft_timeout global parameter"
    let d ← parsePositiveSecondsDurationAnnotation "ttft_timeout" raw hasValue
    .ok { out with ttftTimeout := some d }
  else if key = lit "affinity" then do
    refuseIf (out.affinity != .none) "duplicate affinity global parameter"
    refuseIf (!hasValue || trimSpace raw == []) "affinity must be session or client"
    let mode := toLower (trimSpace raw)
    if mode = lit "session" then .ok { out with affinity := .session }
    else if mode = lit "client" then .ok { out with affinity := .client }
    else invalid "affinity must be session or client"
  else if key = lit "session_sticky" then stickyEntry out "session_sticky" .session hasValue
  else if key = lit "client_sticky" then stickyEntry out "client_sticky" .client hasValue
  else .error (.invalidSelector (lit "unsupported global parameter key ") (some key))

def globalEntry (out : GlobalParams) (entry : GoStr) : Except RouteError GlobalParams := do
  let entry := trimSpace entry
  refuseIf (entry == []) "malformed global parameter list"
  let (key, raw, hasValue) := entryParts entry
  applyGlobal out key raw hasValue

def extractGlobalParams : Except RouteError (GlobalParams × GoStr) :=
  match trimSpace s with
  | 0x7B :: tail => do
    let (inside, after, closed) := cut 0x7D tail
    refuseIf (!closed) "unclosed global parameter block"
    refuseIf (trimSpace inside == []) "empty global parameter block"
    let out ← (splitOn 0x2C (trimSpace inside)).foldlM globalEntry {}
    let rest := trimSpace after
    refuseIf (rest.head? == some 0x7B) "duplicate global parameter block"
    .ok (out, rest)
  | rest => .ok ({}, rest)

def parse : Except RouteError (Selector Q) := do
  let s := trimSpace s
  refuseIf (s == []) "empty selector"
  let (globals, rest) ← extractGlobalParams s
  let s := trimSpace rest
  refuseIf (s == []) "empty selector"
  let alternatives ← (splitOutsideBrackets s 0x7C).mapM fun part => do
    refuseIf (trimSpace part == []) "empty failover alternative"
    parseFailoverAlt (trimSpace part)
  .ok { alternatives, globalTTFTTimeout := globals.ttftTimeout, affinity := globals.affinity }

open GuardedRun List

variable {Q : Type} {text : String} {bad : Bool}

def IsDuration (d : ℤ) : Prop := 0 < d ∧ d ≤ maxInt64

structure Primary.WellFormed (p : Primary Q) : Prop where
  model_ne : p.model ≠ []
  model_trimmed : trimSpace p.model = p.model
  backend_trimmed : trimSpace p.backend = p.backend
  backend_colon : 0x3A ∉ p.backend
  model_mark : 0x3F ∉ p.model
  backend_bar : 0x7C ∉ p.backend
  model_bar : 0x7C ∉ p.model
  size : ∀ low high, p.size.minContextTokens = some low → p.size.maxContextTokens = some high →
    low < high
  timeout : ∀ d, p.ttftTimeout = some d → IsDuration d

section Shape

variable (leaf : Primary Q → Prop)

structure ParallelBranch.WellFormed (leg : ParallelBranch Q) : Prop where
  target : leaf leg.target
  /-- No handicap is the handicap 0. -/
  handicap : leg.handicap = 0 ∨ IsDuration leg.handicap

structure Parallel.WellFormed (p : Parallel Q) : Prop where
  two : 2 ≤ p.branches.length
  sixteen : p.branches.length ≤ 16
  legs : ∀ leg ∈ p.branches, leg.WellFormed leaf

/-- An arm of the group `w`. A parallel group is the executor of a group of two with a thinker. -/
structure WeightedBranch.WellFormed (w : Weighted Q) (b : WeightedBranch Q) : Prop where
  not_both : ¬ (b.isFirst ∧ b.isThinker)
  weight : 1 ≤ b.weight
  target : b.parallel = none → leaf b.target
  parallel : ∀ p, b.parallel = some p → p.WellFormed leaf ∧ b.isThinker = false ∧
    b.isFirst = false ∧ ∃ thinker, thinker.isThinker ∧ thinker.parallel = none ∧
      (w.branches = [b, thinker] ∨ w.branches = [thinker, b])

structure Weighted.WellFormed (w : Weighted Q) : Prop where
  nonempty : w.branches ≠ []
  one_first : w.branches.countP (·.isFirst) ≤ 1
  one_thinker : w.branches.countP (·.isThinker) ≤ 1
  executor : (∃ b ∈ w.branches, b.isThinker) → ∃ b ∈ w.branches, b.isThinker = false
  branches : ∀ b ∈ w.branches, b.WellFormed leaf w

inductive FailoverAlt.WellFormed : FailoverAlt Q → Prop
  | primary {p : Primary Q} (h : leaf p) : WellFormed { primary := some p }
  | weighted {w : Weighted Q} (h : w.WellFormed leaf) : WellFormed { weighted := some w }
  | parallel {p : Parallel Q} (h : p.WellFormed leaf) : WellFormed { parallel := some p }

structure Selector.WellFormed (sel : Selector Q) : Prop where
  nonempty : sel.alternatives ≠ []
  alternatives : ∀ alt ∈ sel.alternatives, alt.WellFormed leaf
  timeout : ∀ d, sel.globalTTFTTimeout = some d → IsDuration d

variable {leaf} {alt : FailoverAlt Q} {w : Weighted Q}

lemma FailoverAlt.WellFormed.of_weighted (h : alt.WellFormed leaf) (hw : alt.weighted = some w) :
    w.WellFormed leaf ∧ alt = { weighted := some w } := by
  cases h with
  | primary | parallel => cases hw
  | weighted hgroup =>
    cases hw
    exact ⟨hgroup, rfl⟩

lemma Weighted.WellFormed.targets (h : w.WellFormed leaf) {b : WeightedBranch Q}
    (hb : b ∈ w.branches) : ∀ p ∈ b.targets, leaf p := by
  unfold WeightedBranch.targets
  cases hparallel : b.parallel with
  | none =>
    intro p hp
    rw [mem_singleton.mp hp]
    exact (h.branches b hb).target hparallel
  | some group =>
    intro p hp
    obtain ⟨leg, hleg, rfl⟩ := mem_map.mp hp
    exact (((h.branches b hb).parallel group hparallel).1.legs leg hleg).target

lemma FailoverAlt.WellFormed.targets (h : alt.WellFormed leaf) : ∀ p ∈ alt.targets, leaf p := by
  intro p hp
  cases h with
  | primary hleaf =>
    rw [mem_singleton.mp hp]
    exact hleaf
  | weighted hw =>
    obtain ⟨b, hb, hp⟩ := mem_flatMap.mp hp
    exact hw.targets hb p hp
  | parallel hparallel =>
    obtain ⟨leg, hleg, rfl⟩ := mem_map.mp hp
    exact (hparallel.legs leg hleg).target

variable {leaf' : Primary Q → Prop} (hleaf : ∀ p, leaf p → leaf' p)
include hleaf

lemma Parallel.WellFormed.mono {p : Parallel Q} (h : p.WellFormed leaf) : p.WellFormed leaf' :=
  { h with legs := fun leg hleg => { h.legs leg hleg with target := hleaf _ (h.legs leg hleg).target } }

lemma Weighted.WellFormed.mono (h : w.WellFormed leaf) : w.WellFormed leaf' := by
  refine { h with branches := fun b hb => ?_ }
  have hbranch := h.branches b hb
  refine { hbranch with target := fun hnone => hleaf _ (hbranch.target hnone), parallel := fun p hp => ?_ }
  obtain ⟨hp', hrest⟩ := hbranch.parallel p hp
  exact ⟨hp'.mono hleaf, hrest⟩

lemma FailoverAlt.WellFormed.mono (h : alt.WellFormed leaf) : alt.WellFormed leaf' := by
  cases h with
  | primary hp => exact .primary (hleaf _ hp)
  | weighted hw => exact .weighted (hw.mono hleaf)
  | parallel hp => exact .parallel (hp.mono hleaf)

end Shape

@[simp] lemma refuseIf_eq_ok {u : Unit} : refuseIf bad text = .ok u ↔ bad = false := by
  cases bad <;> simp [refuseIf, invalid]

/-- What is left of a check, or of any step whose value is not used, in a run that succeeds. -/
lemma ok_after {α β : Type} {x : Except RouteError α} {y : Except RouteError β} {r : β}
    (h : (x >>= fun _ => y) = .ok r) : y = .ok r := (bind_eq_ok.mp h).choose_spec.2

/-- A check, then a value from which the result is made. -/
lemma ok_of_checked {α β : Type} {x : Except RouteError α} {f : α → β} {r : β}
    (h : (do refuseIf bad text; let a ← x; .ok (f a)) = .ok r) : ∃ a, x = .ok a ∧ f a = r := by
  obtain ⟨a, ha, hr⟩ := bind_eq_ok.mp (ok_after h)
  exact ⟨a, ha, Except.ok.inj hr⟩

section Splitting

lemma splitFrom_ne_nil (sep : UInt8) (depth : ℤ) (s : GoStr) : splitFrom sep depth s ≠ [] := by
  have hprepend (b : UInt8) (pieces : List GoStr) : prepend b pieces ≠ [] := by
    cases pieces <;> simp [prepend]
  cases s with
  | nil => simp [splitFrom]
  | cons b rest =>
    unfold splitFrom
    split_ifs
    · exact hprepend b _
    · exact hprepend b _
    · simp
    · exact hprepend b _

lemma length_prepend {b : UInt8} {pieces : List GoStr} (h : pieces ≠ []) :
    (prepend b pieces).length = pieces.length := by
  cases pieces with
  | nil => exact absurd rfl h
  | cons piece pieces => rfl

lemma two_le_length_splitFrom {sep : UInt8} {depth : ℤ} {s : GoStr}
    (h : hasTopLevel sep depth s) : 2 ≤ (splitFrom sep depth s).length := by
  induction s generalizing depth with
  | nil => cases h
  | cons b rest ih =>
    unfold hasTopLevel at h
    unfold splitFrom
    have hsame (depth : ℤ) :
        (prepend b (splitFrom sep depth rest)).length = (splitFrom sep depth rest).length :=
      length_prepend (splitFrom_ne_nil sep depth rest)
    split_ifs at h ⊢
    · exact hsame _ ▸ ih h
    · exact hsame _ ▸ ih h
    · have := length_pos_iff.mpr (splitFrom_ne_nil sep depth rest)
      rw [length_cons]
      omega
    · exact hsame _ ▸ ih h

end Splitting

section Annotations

variable {hasValue : Bool} {raw : GoStr} {key : String} {n : ℤ}

lemma parsePositiveInt64Annotation_pos (h : parsePositiveInt64Annotation key raw hasValue = .ok n) :
    0 < n := by
  unfold parsePositiveInt64Annotation at h
  split_ifs at h
  · cases h
  cases hp : parseInt64 raw with
  | none =>
    rw [hp] at h
    cases h
  | some k =>
    rw [hp] at h
    dsimp only at h
    split_ifs at h
    · cases h
    · cases h
      omega

lemma parsePositiveIntAnnotation_pos (h : parsePositiveIntAnnotation key raw hasValue = .ok n) :
    0 < n := by
  obtain ⟨k, hk, h⟩ := bind_eq_ok.mp h
  obtain ⟨_, -, h⟩ := bind_eq_ok.mp h
  cases h
  exact parsePositiveInt64Annotation_pos hk

lemma parsePositiveSecondsDurationAnnotation_ok {d : ℤ}
    (h : parsePositiveSecondsDurationAnnotation key raw hasValue = .ok d) : IsDuration d := by
  obtain ⟨n, hn, h⟩ := bind_eq_ok.mp h
  obtain ⟨_, hsmall, h⟩ := bind_eq_ok.mp h
  cases h
  have hpos := parsePositiveInt64Annotation_pos hn
  rw [refuseIf_eq_ok, decide_eq_false_iff_not] at hsmall
  unfold IsDuration second maxInt64 at *
  omega

structure PrefixAnnotations.Legal (ann : PrefixAnnotations) : Prop where
  weight : ∀ n, ann.weight = some n → 1 ≤ n
  timeout : ∀ d, ann.ttftTimeout = some d → IsDuration d
  handicap : ∀ d, ann.handicap = some d → IsDuration d

lemma legal_empty : PrefixAnnotations.Legal {} := ⟨nofun, nofun, nofun⟩

variable {ann ann' : PrefixAnnotations} {rest s : GoStr}

lemma applyAnnotation_legal {key : GoStr}
    (hann : ann.Legal) (h : applyAnnotation ann key raw hasValue = .ok ann') : ann'.Legal := by
  unfold applyAnnotation at h
  -- One case for each key; what an entry does not set it leaves alone.
  split_ifs at h
  · obtain ⟨n, hn, rfl⟩ := ok_of_checked h
    exact { hann with weight := fun _ hk => Option.some.inj hk ▸ parsePositiveIntAnnotation_pos hn }
  · obtain ⟨_, -, rfl⟩ := ok_of_checked h
    exact { hann with }
  · obtain ⟨_, -, rfl⟩ := ok_of_checked h
    exact { hann with }
  · obtain ⟨_, -, rfl⟩ := ok_of_checked h
    exact { hann with }
  · obtain ⟨_, -, rfl⟩ := ok_of_checked h
    exact { hann with }
  · obtain ⟨d, hd, rfl⟩ := ok_of_checked h
    exact { hann with timeout := fun _ hk => Option.some.inj hk ▸ parsePositiveSecondsDurationAnnotation_ok hd }
  · obtain ⟨d, hd, rfl⟩ := ok_of_checked h
    exact { hann with handicap := fun _ hk => Option.some.inj hk ▸ parsePositiveSecondsDurationAnnotation_ok hd }

lemma annotationEntry_legal {entry : GoStr} (hann : ann.Legal)
    (h : annotationEntry ann entry = .ok ann') : ann'.Legal := by
  exact applyAnnotation_legal hann (ok_after h)

lemma annotationBlocks_legal {fuel : ℕ} (hann : ann.Legal)
    (h : annotationBlocks fuel ann s = .ok (ann', rest)) : ann'.Legal := by
  fun_induction annotationBlocks fuel ann s with
  | case1 ann fuel tail inside after closed hcut ih =>
    obtain ⟨next, hnext, h⟩ := bind_eq_ok.mp (ok_after (ok_after h))
    exact ih next (loop_induct _ (fun _ _ _ hs _ => annotationEntry_legal hs) hann
      (loopMeets_of_forall _ (fun _ _ => trivial) _ _) hnext) h
  | case2 fuel ann rest hother =>
    cases h
    exact hann

lemma extractPrefixAnnotations_ok (h : extractPrefixAnnotations s = .ok (ann, rest)) :
    ann.Legal ∧ ann.size.crossed = false := by
  obtain ⟨⟨ann', rest'⟩, hblocks, h⟩ := bind_eq_ok.mp h
  obtain ⟨_, hsize, h⟩ := bind_eq_ok.mp h
  cases h
  exact ⟨annotationBlocks_legal legal_empty hblocks, refuseIf_eq_ok.mp hsize⟩

end Annotations

lemma validated_ok {w : Weighted Q} {alt : FailoverAlt Q} (hne : w.branches ≠ [])
    (hbranches : ∀ b ∈ w.branches, b.WellFormed Primary.WellFormed w) (h : validated w = .ok alt) :
    alt.WellFormed Primary.WellFormed := by
  obtain ⟨_, hfirst, h⟩ := bind_eq_ok.mp h
  obtain ⟨_, hthinker, h⟩ := bind_eq_ok.mp h
  cases h
  obtain ⟨_, hone, hexecutor⟩ := bind_eq_ok.mp hthinker
  rw [refuseIf_eq_ok, decide_eq_false_iff_not, not_lt] at hone
  unfold validateWeightedFirst at hfirst
  rw [refuseIf_eq_ok, decide_eq_false_iff_not, not_lt] at hfirst
  refine .weighted ⟨hne, hfirst, hone, ?_, hbranches⟩
  rintro ⟨t, ht, hrole⟩
  by_contra hall
  have hpos : 0 < w.branches.countP (·.isThinker) := countP_pos_iff.mpr ⟨t, ht, hrole⟩
  have hzero : w.branches.countP (!·.isThinker) = 0 := by
    rw [countP_eq_zero]
    intro b hb hexec
    exact hall ⟨b, hb, by simpa using hexec⟩
  simp [hpos, hzero] at hexecutor

lemma hybrid_wellFormed {w : Weighted Q} {thinker : WeightedBranch Q} {p : Parallel Q}
    (hplain : thinker.parallel = none)
    (hthinker : thinker.WellFormed Primary.WellFormed w) (hrole : thinker.isThinker)
    (hp : p.WellFormed Primary.WellFormed)
    (hw : w.branches = [{ weight := 1, parallel := some p }, thinker] ∨
      w.branches = [thinker, { weight := 1, parallel := some p }]) :
    ∀ b ∈ w.branches, b.WellFormed Primary.WellFormed w := by
  have hexecutor :
      WeightedBranch.WellFormed Primary.WellFormed w { weight := 1, parallel := some p } := {
    not_both := by simp
    weight := Int.le_refl 1
    target := nofun
    parallel := by
      rintro _ ⟨rfl⟩
      exact ⟨hp, rfl, rfl, thinker, hrole, hplain, hw⟩ }
  rcases hw with hw | hw
  · simp [hw, hexecutor, hthinker]
  · simp [hw, hexecutor, hthinker]

def FailoverAlt.parallels (alt : FailoverAlt Q) : List (Parallel Q) :=
  alt.parallel.toList ++ alt.weighted.toList.flatMap fun w => w.branches.filterMap (·.parallel)

lemma FailoverAlt.WellFormed.parallels {leaf : Primary Q → Prop} {alt : FailoverAlt Q}
    (h : alt.WellFormed leaf) : ∀ p ∈ alt.parallels, p.WellFormed leaf := by
  intro p hp
  cases h with
  | primary => cases hp
  | weighted hw =>
    simp only [FailoverAlt.parallels, Option.toList_none, nil_append, Option.toList_some,
      flatMap_singleton, mem_filterMap] at hp
    obtain ⟨b, hb, hp⟩ := hp
    exact ((hw.branches b hb).parallel p hp).1
  | parallel hparallel =>
    simp only [FailoverAlt.parallels, Option.toList_some, Option.toList_none, flatMap_nil,
      append_nil, mem_singleton] at hp
    rw [hp]
    exact hparallel

lemma WeightedBranch.WellFormed.only_executor {leaf : Primary Q → Prop} {w : Weighted Q}
    {b : WeightedBranch Q} (h : b.WellFormed leaf w) (hb : b.parallel.isSome) :
    w.branches.length = 2 ∧ w.thinkerAware ∧ w.branches.filter (!·.isThinker) = [b] := by
  obtain ⟨p, hp⟩ := Option.isSome_iff_exists.mp hb
  obtain ⟨-, hexecutor, -, thinker, hthinker, -, hw | hw⟩ := h.parallel p hp
  · simp [hw, hexecutor, hthinker]
  · simp [hw, hexecutor, hthinker]

variable [QueryValues Q] {p : Primary Q} {s : GoStr}

lemma parsePrimaryWithAnnotations_ok {ann : PrefixAnnotations} (hann : ann.Legal)
    (hsize : ann.size.crossed = false) (h : parsePrimaryWithAnnotations s ann = .ok p) :
    p.WellFormed := by
  obtain ⟨params, -, h⟩ := bind_eq_ok.mp (ok_after h)
  obtain ⟨_, hmodel, h⟩ := bind_eq_ok.mp (ok_after (ok_after h))
  obtain ⟨_, hbar, h⟩ := bind_eq_ok.mp h
  cases h
  rw [refuseIf_eq_ok] at hmodel hbar
  rw [Bool.or_eq_false_iff] at hbar
  set path := trimSpace (cut 0x3F (trimSpace s)).1
  have hmark : 0x3F ∉ path := fun h => not_mem_cut _ (trimSpace_subset _ h)
  have hleft : (if (cut 0x3A path).2.2 then (cut 0x3A path).1 else []) ⊆ (cut 0x3A path).1 := by
    split_ifs <;> simp
  have hright : (if (cut 0x3A path).2.2 then (cut 0x3A path).2.1 else path) ⊆ path := by
    split_ifs with hcolon
    · conv_rhs => rw [cut_append 0x3A path, if_pos hcolon]
      simp
    · exact Subset.refl path
  exact {
    model_ne := by simpa using hmodel
    model_trimmed := trimSpace_trimSpace _
    backend_trimmed := trimSpace_trimSpace _
    backend_colon := fun h => not_mem_cut path (hleft (trimSpace_subset _ h))
    model_mark := fun h => hmark (hright (trimSpace_subset _ h))
    backend_bar := by simpa using hbar.1
    model_bar := by simpa using hbar.2
    size := fun low high hlow hhigh => by
      rw [RequestSizeConstraint.crossed, hlow, hhigh] at hsize
      simpa using hsize
    timeout := hann.timeout }

lemma parsePrimary_ok (h : parsePrimary s = .ok p) : p.WellFormed := by
  obtain ⟨⟨ann, rest⟩, hann, h⟩ := bind_eq_ok.mp h
  obtain ⟨hlegal, hsize⟩ := extractPrefixAnnotations_ok hann
  exact parsePrimaryWithAnnotations_ok hlegal hsize (ok_after (ok_after (ok_after h)))

lemma parseParallelBranch_ok {leg : ParallelBranch Q} (h : parseParallelBranch s = .ok leg) :
    leg.WellFormed Primary.WellFormed := by
  obtain ⟨⟨ann, rest⟩, hann, h⟩ := bind_eq_ok.mp h
  obtain ⟨target, htarget, h⟩ := bind_eq_ok.mp (ok_after (ok_after (ok_after h)))
  cases h
  obtain ⟨hlegal, hsize⟩ := extractPrefixAnnotations_ok hann
  refine ⟨parsePrimaryWithAnnotations_ok hlegal hsize htarget, ?_⟩
  cases hhandicap : ann.handicap with
  | none => exact .inl rfl
  | some d => exact .inr (hlegal.handicap d hhandicap)

lemma parseParallel_ok {p : Parallel Q} (hbang : hasTopLevelBang s)
    (h : parseParallel s = .ok p) : p.WellFormed Primary.WellFormed := by
  obtain ⟨_, hmany, h⟩ := bind_eq_ok.mp h
  obtain ⟨branches, hbranches, h⟩ := bind_eq_ok.mp h
  cases ok_after h
  obtain ⟨hlen, hlegs⟩ := mapM_ok hbranches
  have htwo : 2 ≤ (splitParallelLegs s).length := two_le_length_splitFrom hbang
  rw [refuseIf_eq_ok, decide_eq_false_iff_not, not_lt] at hmany
  refine ⟨hlen ▸ htwo, hlen ▸ hmany, ?_⟩
  intro leg hleg
  obtain ⟨part, -, hpart⟩ := hlegs leg hleg
  exact parseParallelBranch_ok (ok_after hpart)

variable {b : WeightedBranch Q}

lemma parseWeightedBranch_ok (h : parseWeightedBranch s = .ok b) :
    b.parallel = none ∧ ∀ w, b.WellFormed Primary.WellFormed w := by
  obtain ⟨⟨ann, rest⟩, hann, h⟩ := bind_eq_ok.mp h
  obtain ⟨_, hboth, h⟩ := bind_eq_ok.mp (ok_after h)
  obtain ⟨target, htarget, h⟩ := bind_eq_ok.mp (ok_after h)
  cases h
  obtain ⟨hlegal, hsize⟩ := extractPrefixAnnotations_ok hann
  refine ⟨rfl, fun _ => ⟨?_, ?_, fun _ => parsePrimaryWithAnnotations_ok hlegal hsize htarget, nofun⟩⟩
  · simpa using hboth
  · cases hweight : ann.weight with
    | none => exact Int.le_refl 1
    | some n => exact hlegal.weight n hweight

lemma parseWeighted_ok {w : Weighted Q} (h : parseWeighted s = .ok w) :
    w.branches ≠ [] ∧ ∀ b ∈ w.branches, b.WellFormed Primary.WellFormed w := by
  obtain ⟨branches, hbranches, h⟩ := bind_eq_ok.mp h
  obtain ⟨_, hempty, h⟩ := bind_eq_ok.mp h
  cases h
  obtain ⟨-, hmem⟩ := mapM_ok hbranches
  refine ⟨by simpa using hempty, ?_⟩
  intro b hb
  obtain ⟨part, -, hpart⟩ := hmem b hb
  exact (parseWeightedBranch_ok (ok_after hpart)).2 _

lemma parseWeightedBranchWithParallelTarget_ok
    (h : parseWeightedBranchWithParallelTarget s = .ok b) :
    ∃ p : Parallel Q, p.WellFormed Primary.WellFormed ∧
    b = { weight := 1, parallel := some p } := by
  obtain ⟨_, hbang, h⟩ := bind_eq_ok.mp (ok_after h)
  obtain ⟨p, hp, h⟩ := bind_eq_ok.mp h
  cases h
  rw [refuseIf_eq_ok, Bool.not_eq_false'] at hbang
  exact ⟨p, parseParallel_ok hbang hp, rfl⟩

lemma tryParseThinkerParallelHybrid_ok {w : Weighted Q}
    (h : tryParseThinkerParallelHybrid s = .ok (some w)) :
    w.branches ≠ [] ∧ ∀ b ∈ w.branches, b.WellFormed Primary.WellFormed w := by
  unfold tryParseThinkerParallelHybrid at h
  split at h
  · rename_i part0 part1 _
    by_cases hone : prefixHasThinker part0 = prefixHasThinker part1
    · rw [if_pos hone] at h
      cases h
    rw [if_neg hone] at h
    replace h := ok_after h
    by_cases hbang : (!hasTopLevelBang (if prefixHasThinker part1 then part0 else part1))
    · rw [if_pos hbang] at h
      cases h
    rw [if_neg hbang] at h
    obtain ⟨thinker, hthinker, h⟩ := bind_eq_ok.mp h
    obtain ⟨_, hrole, h⟩ := bind_eq_ok.mp h
    obtain ⟨executor, hexecutor, h⟩ := bind_eq_ok.mp h
    cases h
    obtain ⟨p, hp, rfl⟩ := parseWeightedBranchWithParallelTarget_ok hexecutor
    rw [refuseIf_eq_ok, Bool.not_eq_false'] at hrole
    obtain ⟨hplain, hwell⟩ := parseWeightedBranch_ok hthinker
    cases prefixHasThinker part1 with
    | true => exact ⟨nofun, hybrid_wellFormed hplain (hwell _) hrole hp (.inl rfl)⟩
    | false => exact ⟨nofun, hybrid_wellFormed hplain (hwell _) hrole hp (.inr rfl)⟩
  · cases h

lemma parseFailoverAlt_ok {alt : FailoverAlt Q} (h : parseFailoverAlt s = .ok alt) :
    alt.WellFormed Primary.WellFormed := by
  unfold parseFailoverAlt at h
  dsimp only at h
  split_ifs at h with hmixed hbang hweighted
  · obtain ⟨found, hfound, h⟩ := bind_eq_ok.mp h
    cases found with
    | none => cases h
    | some w =>
      obtain ⟨hne, hbranches⟩ := tryParseThinkerParallelHybrid_ok hfound
      exact validated_ok hne hbranches h
  · obtain ⟨p, hp, h⟩ := bind_eq_ok.mp h
    cases h
    exact .parallel (parseParallel_ok hbang hp)
  · obtain ⟨w, hw, h⟩ := bind_eq_ok.mp h
    obtain ⟨hne, hbranches⟩ := parseWeighted_ok hw
    exact validated_ok hne hbranches h
  · obtain ⟨p, hp, h⟩ := bind_eq_ok.mp h
    cases h
    exact .primary (parsePrimary_ok hp)

section Globals

def GlobalParams.Legal (out : GlobalParams) : Prop := ∀ d, out.ttftTimeout = some d → IsDuration d

variable {out out' : GlobalParams} {hasValue : Bool}

lemma stickyEntry_legal {name : String} {affinity : Affinity} (hout : out.Legal)
    (h : stickyEntry out name affinity hasValue = .ok out') : out'.Legal := by
  cases ok_after (ok_after h)
  exact hout

lemma applyGlobal_legal {key raw : GoStr} (hout : out.Legal)
    (h : applyGlobal out key raw hasValue = .ok out') : out'.Legal := by
  unfold applyGlobal at h
  split_ifs at h
  · obtain ⟨d, hd, rfl⟩ := ok_of_checked h
    exact fun _ hk => Option.some.inj hk ▸ parsePositiveSecondsDurationAnnotation_ok hd
  · replace h := ok_after (ok_after h)
    dsimp only at h
    split_ifs at h
    · cases h
      exact hout
    · cases h
      exact hout
    · cases h
  · exact stickyEntry_legal hout h
  · exact stickyEntry_legal hout h

lemma extractGlobalParams_ok {rest : GoStr} (h : extractGlobalParams s = .ok (out, rest)) :
    out.Legal := by
  unfold extractGlobalParams at h
  split at h
  · obtain ⟨out', hout', h⟩ := bind_eq_ok.mp (ok_after (ok_after h))
    cases ok_after h
    refine loop_induct _ ?_ (show GlobalParams.Legal {} from nofun)
      (loopMeets_of_forall _ (fun _ _ => trivial) _ _) hout'
    exact fun out entry out' hout _ h => applyGlobal_legal hout (ok_after h)
  · cases h
    exact nofun

end Globals

lemma parse_ok {sel : Selector Q} (h : parse s = .ok sel) : sel.WellFormed Primary.WellFormed := by
  obtain ⟨⟨globals, rest⟩, hglobals, h⟩ := bind_eq_ok.mp (ok_after h)
  obtain ⟨alternatives, halts, h⟩ := bind_eq_ok.mp (ok_after h)
  cases h
  obtain ⟨hlen, hmem⟩ := mapM_ok halts
  refine ⟨?_, ?_, extractGlobalParams_ok hglobals⟩
  · rw [← length_pos_iff, hlen, length_pos_iff]
    exact splitFrom_ne_nil _ _ _
  · intro alt halt
    obtain ⟨part, -, hpart⟩ := hmem alt halt
    exact parseFailoverAlt_ok (ok_after hpart)

/-- Every selector that the parser returns is well formed. -/
theorem parse_wellFormed (s : GoStr) (sel : Selector Q) (h : parse s = .ok sel) :
    sel.alternatives ≠ [] ∧ (∀ d, sel.globalTTFTTimeout = some d → 0 < d ∧ d ≤ maxInt64) ∧
    ∀ alt ∈ sel.alternatives,
      [alt.primary.isSome, alt.weighted.isSome, alt.parallel.isSome].count true = 1 ∧
      (∀ w, alt.weighted = some w →
        w.branches ≠ [] ∧ w.branches.countP (·.isFirst) ≤ 1 ∧ w.branches.countP (·.isThinker) ≤ 1 ∧
        (w.thinkerAware → ∃ b ∈ w.branches, b.isThinker = false) ∧
        ∀ b ∈ w.branches, ¬ (b.isFirst ∧ b.isThinker) ∧ 1 ≤ b.weight ∧
          (b.parallel.isSome →
            w.branches.length = 2 ∧ w.thinkerAware ∧ w.branches.filter (!·.isThinker) = [b])) ∧
      (∀ p ∈ alt.parallels, 2 ≤ p.branches.length ∧ p.branches.length ≤ 16 ∧
        ∀ leg ∈ p.branches, leg.handicap = 0 ∨ 0 < leg.handicap ∧ leg.handicap ≤ maxInt64) ∧
      ∀ p ∈ alt.targets,
        (∀ d, p.ttftTimeout = some d → 0 < d ∧ d ≤ maxInt64) ∧
        (∀ low high, p.size.minContextTokens = some low → p.size.maxContextTokens = some high → low < high) ∧
        p.model ≠ [] ∧ trimSpace p.model = p.model ∧ 0x7C ∉ p.backend ∧ 0x7C ∉ p.model := by
  have hsel := parse_ok h
  refine ⟨hsel.nonempty, hsel.timeout, fun alt halt => ?_⟩
  have hwell := hsel.alternatives alt halt
  refine ⟨?_, ?_, ?_, ?_⟩
  · cases hwell <;> rfl
  · intro w hw
    obtain ⟨hwf, -⟩ := hwell.of_weighted hw
    refine ⟨hwf.nonempty, hwf.one_first, hwf.one_thinker, ?_, ?_⟩
    · intro haware
      exact hwf.executor (any_eq_true.mp haware)
    · intro b hb
      have hbranch := hwf.branches b hb
      exact ⟨hbranch.not_both, hbranch.weight, hbranch.only_executor⟩
  · intro p hp
    have hparallel := hwell.parallels p hp
    exact ⟨hparallel.two, hparallel.sixteen, fun leg hleg => (hparallel.legs leg hleg).handicap⟩
  · intro p hp
    have hleaf := hwell.targets p hp
    exact ⟨hleaf.timeout, hleaf.size, hleaf.model_ne, hleaf.model_trimmed, hleaf.backend_bar, hleaf.model_bar⟩

def hybridText : GoStr := lit "\x7bttft_timeout=3\x7d [thinker]a:m^[handicap=2]b:n!c:o|d:p?x=1"

theorem parse_wellFormed_hybrid : ∃ sel :
    Selector GoStr, parse hybridText = .ok sel ∧ sel.alternatives ≠ [] :=
  ⟨_, by rfl, (parse_wellFormed hybridText _ (by rfl)).1⟩

end InteractiveProxy.Routing
