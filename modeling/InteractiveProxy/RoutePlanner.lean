import InteractiveProxy.RouteParser
import Mathlib.Data.Finset.Basic

/-! Compilation of a route selector, with the checks before it is published, and planning: the
groups of candidates to attempt, one for each alternative that has an eligible candidate. -/
namespace InteractiveProxy.Routing

open GoText GuardedRun

variable {Q : Type}

structure AliasRule where
  matchString : GoStr → Bool
  /-- `ReplaceAllString` with the replacement of the rule. -/
  replaceAll : GoStr → GoStr

/-- `AliasResolver.Resolve`: the first rule that matches rewrites the text. -/
def resolveAlias (rules : List AliasRule) (s : GoStr) : GoStr :=
  match rules.find? (·.matchString (trimSpace s)) with
  | some rule => rule.replaceAll (trimSpace s)
  | none => trimSpace s

def Primary.orBackend (backend : GoStr) (p : Primary Q) : Primary Q :=
  if trimSpace p.backend = [] then { p with backend } else p

def Parallel.orBackend (backend : GoStr) (p : Parallel Q) : Parallel Q :=
  { branches := p.branches.map fun leg => { leg with target := leg.target.orBackend backend } }

def applyModelOnlyToWeightedBranch (b : WeightedBranch Q) (backend : GoStr) : WeightedBranch Q :=
  match b.parallel with
  | some p => { b with parallel := some (p.orBackend backend) }
  | none => { b with target := b.target.orBackend backend }

@[simp] def applyModelOnlyToAlt (alt : FailoverAlt Q) (backend : GoStr) : FailoverAlt Q :=
  if alt.primary.any fun p => trimSpace p.backend == [] then
    { alt with primary := alt.primary.map (·.orBackend backend) }
  else
    match alt.weighted, alt.parallel with
    | some w, _ =>
      { alt with weighted := some { branches := w.branches.map (applyModelOnlyToWeightedBranch · backend) } }
    | none, some p => { alt with parallel := some (p.orBackend backend) }
    | none, none => alt

variable (sel : Selector Q)

def applyModelOnlyBackends (defaultBackend : GoStr) : Selector Q :=
  if trimSpace defaultBackend = [] then sel
  else { sel with alternatives := sel.alternatives.map (applyModelOnlyToAlt · (trimSpace defaultBackend)) }

@[simp] def Primary.hasEmptyBackend (p : Primary Q) : Bool := trimSpace p.backend == []

def Parallel.hasEmptyBackend (p : Parallel Q) : Bool := p.branches.any (·.target.hasEmptyBackend)

def weightedBranchHasEmptyBackend (b : WeightedBranch Q) : Bool :=
  match b.parallel with
  | some p => p.hasEmptyBackend
  | none => b.target.hasEmptyBackend

def selectorHasEmptyBackend : Bool :=
  sel.alternatives.any fun alt =>
    alt.primary.any (·.hasEmptyBackend) ||
      alt.weighted.any (·.branches.any weightedBranchHasEmptyBackend) ||
      alt.parallel.any (·.hasEmptyBackend)

def backendIDsReferenced : List GoStr :=
  (sel.targets.map fun p => trimSpace p.backend).filter (· ≠ [])

/-- `RejectUnknownBackends`: no set of known backends means that the check is skipped. -/
def rejectUnknownBackends (known : Option (Finset GoStr)) : Except RouteError Unit :=
  match known with
  | none => .ok ()
  | some known =>
    match (backendIDsReferenced sel).find? (· ∉ known) with
    | some id => .error (.unknownBackend id)
    | none => .ok ()

/-- `BackendExecutionResolver`: no class for a backend that is not configured. -/
abbrev ExecutionResolver := GoStr → Option ExecutionClass

def checkPrimaryClass (p : Primary Q) (composition : String) (classes : ExecutionResolver)
    (policy : CompositionPolicy) : Except RouteError Unit :=
  if trimSpace p.backend = [] then .ok ()
  else
    match classes (trimSpace p.backend) with
    | some .inference => .ok ()
    | some found => .error (.unsafeComposition (lit composition) (trimSpace p.backend) found policy)
    | none => .ok ()

def isDirectPrimary : Bool :=
  match sel.alternatives with
  | [alt] => alt.primary.isSome
  | _ => false

/-- The name of the composition that an alternative is, `none` for a direct target. -/
def compositionName (alt : FailoverAlt Q) (inFailover : Bool) : Option String :=
  match alt.primary, alt.weighted, alt.parallel with
  | some _, _, _ => if inFailover then some "failover selector" else none
  | none, some w, _ =>
    some (if w.thinkerAware then "thinker hybrid selector" else "weighted selector")
  | none, none, some _ =>
    some (if inFailover then "failover parallel selector" else "parallel selector")
  | none, none, none => none

def validateAltExecutionComposition (alt : FailoverAlt Q) (inFailover : Bool)
    (classes : ExecutionResolver) (policy : CompositionPolicy) : Except RouteError Unit :=
  match compositionName alt inFailover with
  | some composition => alt.targets.forM fun p => checkPrimaryClass p composition classes policy
  | none => .ok ()

def validateExecutionComposition (classes : Option ExecutionResolver)
    (policy : CompositionPolicy) : Except RouteError Unit :=
  let effectivePolicy := if policy = .unset then .safe else policy
  if effectivePolicy = .unrestricted then .ok ()
  else if isDirectPrimary sel then .ok ()
  else
    match classes with
    | none => .error .resolverUnavailable
    | some classes =>
      sel.alternatives.forM fun alt =>
        validateAltExecutionComposition alt (decide (1 < sel.alternatives.length)) classes effectivePolicy

section Defaulting

variable {leaf leaf' : Primary Q → Prop} {backend : GoStr}

variable (b : WeightedBranch Q)

@[simp] lemma applyBranch_keeps : (applyModelOnlyToWeightedBranch b backend).isFirst = b.isFirst ∧
    (applyModelOnlyToWeightedBranch b backend).isThinker = b.isThinker ∧
    (applyModelOnlyToWeightedBranch b backend).weight = b.weight := by
  unfold applyModelOnlyToWeightedBranch
  cases b.parallel <;> simp

variable {b : WeightedBranch Q} {p : Parallel Q}

lemma applyBranch_none (h : b.parallel = none) :
    applyModelOnlyToWeightedBranch b backend = { b with target := b.target.orBackend backend } := by
  unfold applyModelOnlyToWeightedBranch
  rw [h]

lemma applyBranch_some (h : b.parallel = some p) :
    applyModelOnlyToWeightedBranch b backend =
    { b with parallel := some (p.orBackend backend) } := by
  unfold applyModelOnlyToWeightedBranch
  rw [h]

variable (hleaf : ∀ p, leaf p → leaf' (p.orBackend backend))
include hleaf

lemma Parallel.WellFormed.orBackend (h : p.WellFormed leaf) :
    (p.orBackend backend).WellFormed leaf' := by
  refine ⟨by simpa [Parallel.orBackend] using h.two, by simpa [Parallel.orBackend] using h.sixteen, ?_⟩
  intro leg hleg
  obtain ⟨leg', hleg', rfl⟩ := List.mem_map.mp hleg
  obtain ⟨htarget, hhandicap⟩ := h.legs leg' hleg'
  exact ⟨hleaf _ htarget, hhandicap⟩

lemma WeightedBranch.WellFormed.orBackend {w : Weighted Q} (h : b.WellFormed leaf w) :
    (applyModelOnlyToWeightedBranch b backend).WellFormed leaf'
      { branches := w.branches.map (applyModelOnlyToWeightedBranch · backend) } := by
  refine ⟨by simpa using h.not_both, by simpa using h.weight, ?_, ?_⟩
  · intro hnone
    cases hb : b.parallel with
    | none =>
      rw [applyBranch_none hb]
      exact hleaf _ (h.target hb)
    | some p =>
      rw [applyBranch_some hb] at hnone
      cases hnone
  · intro p hp
    cases hb : b.parallel with
    | none =>
      rw [applyBranch_none hb] at hp
      exact nomatch hb.symm.trans hp
    | some q =>
      obtain ⟨hq, hexecutor, hnotfirst, thinker, hthinker, hnone, hw⟩ := h.parallel q hb
      rw [applyBranch_some hb] at hp
      cases hp
      refine ⟨hq.orBackend hleaf, by simpa using hexecutor, by simpa using hnotfirst,
        applyModelOnlyToWeightedBranch thinker backend, by simpa using hthinker, ?_, ?_⟩
      · rw [applyBranch_none hnone]
        exact hnone
      · exact hw.imp (fun hw => by rw [hw]; rfl) (fun hw => by rw [hw]; rfl)

lemma Weighted.WellFormed.orBackend {w : Weighted Q} (h : w.WellFormed leaf) :
    Weighted.WellFormed leaf'
    { branches := w.branches.map (applyModelOnlyToWeightedBranch · backend) } := by
  refine ⟨by simpa using h.nonempty, ?_, ?_, ?_, ?_⟩
  · simpa [Function.comp_def] using h.one_first
  · simpa [Function.comp_def] using h.one_thinker
  · intro hthinker
    simpa using h.executor (by simpa using hthinker)
  · intro b hb
    obtain ⟨b', hb', rfl⟩ := List.mem_map.mp hb
    exact (h.branches b' hb').orBackend hleaf

lemma FailoverAlt.WellFormed.orBackend {alt : FailoverAlt Q} (h : alt.WellFormed leaf) :
    (applyModelOnlyToAlt alt backend).WellFormed leaf' := by
  cases h with
  | @primary p hp =>
    have hset : applyModelOnlyToAlt { primary := some p } backend =
        { primary := some (p.orBackend backend) } := by
      by_cases hempty : trimSpace p.backend = []
      · simp [hempty]
      · simp [Primary.orBackend, hempty]
    rw [hset]
    exact .primary (hleaf p hp)
  | weighted hw => exact .weighted (hw.orBackend hleaf)
  | parallel hp => exact .parallel (hp.orBackend hleaf)

end Defaulting

section Compilation

variable [QueryValues Q]

def compileSelector (raw : GoStr) (aliases : Option (List AliasRule))
    (defaultBackend : GoStr) : Except RouteError (Selector Q) := do
  let text :=
    match aliases with
    | some rules => resolveAlias rules (trimSpace raw)
    | none => trimSpace raw
  let sel ← parse text
  let sel := applyModelOnlyBackends sel defaultBackend
  if selectorHasEmptyBackend sel then .error .unresolvedModelOnly else .ok sel

variable {raw : GoStr} {aliases : Option (List AliasRule)} {defaultBackend : GoStr}
  {sel : Selector Q}

section

variable (h : compileSelector raw aliases defaultBackend = .ok sel)

include h

lemma compileSelector_leaves {leaf : Primary Q → Prop}
    (hleaf : ∀ p : Primary Q, p.WellFormed → leaf p)
    (hdefault : ∀ p : Primary Q, p.WellFormed → leaf (p.orBackend (trimSpace defaultBackend))) :
    sel.WellFormed leaf ∧ selectorHasEmptyBackend sel = false := by
  obtain ⟨parsed, hparsed, h⟩ := bind_eq_ok.mp h
  dsimp only at h
  split_ifs at h with hempty
  cases h
  have hparsed := parse_ok hparsed
  refine ⟨?_, by simpa using hempty⟩
  unfold applyModelOnlyBackends
  split_ifs
  · exact ⟨hparsed.nonempty, fun alt halt => (hparsed.alternatives alt halt).mono hleaf, hparsed.timeout⟩
  · refine ⟨by simpa using hparsed.nonempty, fun alt halt => ?_, hparsed.timeout⟩
    obtain ⟨alt', halt', rfl⟩ := List.mem_map.mp halt
    exact (hparsed.alternatives alt' halt').orBackend hdefault

lemma compileSelector_ok :
    sel.WellFormed (fun p => trimSpace p.backend = p.backend) ∧
    selectorHasEmptyBackend sel = false := by
  refine compileSelector_leaves h (fun _ hp => hp.backend_trimmed) fun _ hp => ?_
  unfold Primary.orBackend
  split_ifs
  · exact trimSpace_trimSpace _
  · exact hp.backend_trimmed

end

end Compilation

/-- `GenerationSelectorValidator`. -/
structure GenerationValidator where
  aliases : Option (List AliasRule)
  defaultBackend : GoStr
  knownBackends : Option (Finset GoStr)
  resolver : Option ExecutionResolver
  policy : CompositionPolicy

/-- `ValidateSelector`, by the query parameters `Q`; a nil validator refuses every selector. -/
def validateSelector (Q : Type) [QueryValues Q] (v : Option GenerationValidator) (raw : GoStr) :
    Except RouteError Unit :=
  match v with
  | none => .error .notConfigured
  | some v => do
    let sel : Selector Q ← compileSelector raw v.aliases v.defaultBackend
    rejectUnknownBackends sel v.knownBackends
    validateExecutionComposition sel v.resolver v.policy

/-- `interleavedstate.Role`; a stored cycle can hold any text. -/
inductive Role
  | none
  | thinker
  | executor
  | other (text : GoStr)
  deriving DecidableEq

structure CycleEntry where
  key : GoStr
  role : Role
  deriving DecidableEq

structure CycleState where
  selectorKey : GoStr := []
  sequence : List CycleEntry := []
  nextIndex : ℤ := 0

structure RequestSizeEstimate where
  available : Bool := false
  tokens : ℤ := 0

structure SessionRoutingState where
  firstRequestConsumed : Bool

/-- The rolls of a random source: the roll that the alternative at a position makes below a bound. A
source that is not set is seeded anew for each roll, which is one of these. -/
structure Rng where
  intn : ℕ → ℕ → ℕ
  intn_lt : ∀ i n, 0 < n → intn i n < n

structure PlanOptions where
  excluded : Finset GoStr := ∅
  unhealthy : Finset GoStr := ∅
  requestSize : RequestSizeEstimate := {}
  session : Option SessionRoutingState := none
  preferredCandidateKeys : List GoStr := []
  stickyBackendID : GoStr := []
  rand : Rng
  isRetryPath : Bool := false
  thinkerCycle : CycleState := {}
  suppressThinker : Bool := false

structure AttemptCandidate (Q : Type) where
  primary : Primary Q
  key : GoStr
  markedFirst : Bool := false
  isParallel : Bool := false
  handicap : ℤ := 0
  interleavedRole : Role := .none
  selectorKey : GoStr := []

structure AttemptGroup (Q : Type) where
  candidates : List (AttemptCandidate Q)
  nextThinkerCycle : Option CycleState := none

def requestSizeEligible (c : RequestSizeConstraint) (est : RequestSizeEstimate) : Bool :=
  if !est.available then true
  else if c.maxContextTokens.any fun high => est.tokens > high then false
  else !c.minContextTokens.any fun low => est.tokens ≤ low

variable {Q : Type}

def candidateEligible (p : Primary Q) (key : GoStr) (opt : PlanOptions) : Bool :=
  if key ∈ opt.excluded ∨ key ∈ opt.unhealthy then false
  else requestSizeEligible p.size opt.requestSize

/-- A `[first]` branch is steered to: not on a retry, and while the session has not used it. -/
def PlanOptions.steers (opt : PlanOptions) : Bool :=
  !opt.isRetryPath && opt.session.any fun session => !session.firstRequestConsumed

def effectiveWeight (weight : ℤ) : ℤ := if weight ≤ 0 then 1 else weight

def maxThinkerCycleWeightRepeats : ℤ := 100

def thinkerCycleWeight (weight : ℤ) : ℤ :=
  if effectiveWeight weight > maxThinkerCycleWeightRepeats then maxThinkerCycleWeightRepeats
  else effectiveWeight weight

/-- One turn of the loop of `sumEligibleWeights`. -/
def addWeight (total : ℤ) (b : WeightedBranch Q) : Except RouteError ℤ :=
  if total > maxInt64 - effectiveWeight b.weight then .error .weightedTotalTooLarge
  else .ok (total + effectiveWeight b.weight)

def sumEligibleWeights (eligible : List (WeightedBranch Q)) : Except RouteError ℤ := do
  let total ← eligible.foldlM addWeight 0
  if total < 1 then .error .noEligibleCandidate
  else if total > maxInt64 then .error .weightedTotalTooLarge
  else .ok total

def rolledBranch (roll : ℤ) : ℤ → List (WeightedBranch Q) → Option (WeightedBranch Q)
  | _, [] => none
  | sum, b :: rest =>
    if roll < sum + effectiveWeight b.weight then some b
    else rolledBranch roll (sum + effectiveWeight b.weight) rest

variable [QueryValues Q]

def Primary.candidate (p : Primary Q) : AttemptCandidate Q := { primary := p, key := p.key }

def ParallelBranch.candidate (leg : ParallelBranch Q) : AttemptCandidate Q :=
  { leg.target.candidate with isParallel := true, handicap := leg.handicap }

def AttemptCandidate.eligible (c : AttemptCandidate Q) (opt : PlanOptions) : Bool :=
  candidateEligible c.primary c.key opt

/-- `branchKey`: a parallel branch is keyed by its legs. -/
def branchKey (b : WeightedBranch Q) : GoStr :=
  match b.parallel with
  | some p => lit "parallel:" ++ join (lit "!") (p.branches.map (·.target.key))
  | none => b.target.key

variable (w : Weighted Q)

def Weighted.selectorKey : GoStr := join (lit "^") (w.branches.map branchKey)

/-- The entries that `buildThinkerCycle` makes: each executor as often as its weight, the thinker
once. -/
def Weighted.cycle : List CycleEntry :=
  ((w.branches.filter (!·.isThinker)).flatMap fun b =>
      List.replicate (thinkerCycleWeight b.weight).toNat { key := branchKey b, role := .executor }) ++
    ((w.branches.find? (·.isThinker)).map fun b =>
      ({ key := branchKey b, role := .thinker } : CycleEntry)).toList

def expandParallel (p : Parallel Q) (opt : PlanOptions) : List (AttemptCandidate Q) :=
  (p.branches.map (·.candidate)).filter (·.eligible opt)

/-- The roll at the end of `pickWeightedLegacy`. -/
def rollWeighted (eligible : List (WeightedBranch Q)) (opt : PlanOptions) (position : ℕ) :
    Except RouteError (AttemptCandidate Q × Bool) := do
  let total ← sumEligibleWeights eligible
  let roll := opt.rand.intn position total.toNat
  let chosen := (rolledBranch roll 0 eligible).getD {}
  .ok ({ chosen.target.candidate with markedFirst := chosen.isFirst && !opt.isRetryPath }, false)

variable (opt : PlanOptions)

/-- The pick of a group without a thinker: the `[first]` branch while it is steered to, else a roll.
-/
def pickWeightedLegacy (position : ℕ) : Except RouteError (AttemptCandidate Q × Bool) :=
  let eligible := w.branches.filter fun b => b.target.candidate.eligible opt
  if eligible.isEmpty then .error .noEligibleCandidate
  else if opt.steers then
    match eligible.filter (·.isFirst) with
    | [] => rollWeighted eligible opt position
    | [first] => .ok ({ first.target.candidate with markedFirst := true }, true)
    | _ => .error (.internal (lit "multiple [first] in eligible set"))
  else rollWeighted eligible opt position

/-- The candidates of an entry of the cycle. The branch is the first with the key of the entry. -/
def cycleCandidates (entry : CycleEntry) (opt : PlanOptions) : Option (List (AttemptCandidate Q)) :=
  match w.branches.find? fun b => branchKey b = entry.key with
  | none => none
  | some b =>
    match b.parallel with
    | some p =>
      let legs := expandParallel p opt
      if legs.isEmpty then none
      else some (legs.map fun c => { c with interleavedRole := entry.role, selectorKey := w.selectorKey })
    | none =>
      if !candidateEligible b.target entry.key opt then none
      else some [{ primary := b.target, key := entry.key, interleavedRole := entry.role, selectorKey := w.selectorKey }]

def cycleValid (state : CycleState) : Bool :=
  !state.sequence.isEmpty && state.selectorKey == w.selectorKey && state.sequence == w.cycle

/-- The state from which the cycle goes on: the stored one with its cursor in range, or a new one.
-/
def cycleStart (state : CycleState) : CycleState :=
  if cycleValid w state then
    if state.nextIndex < 0 ∨ state.nextIndex ≥ w.cycle.length then { state with nextIndex := 0 }
    else state
  else { selectorKey := w.selectorKey, sequence := w.cycle, nextIndex := 0 }

/-- The pick at the position `i` behind the cursor, if the entry there has candidates. -/
def cyclePick (state : CycleState) (i : ℕ) : Option (List (AttemptCandidate Q) × CycleState) :=
  let idx := (state.nextIndex.toNat + i) % w.cycle.length
  match w.cycle[idx]? with
  | none => none
  | some entry =>
    if entry.role = .thinker ∧ opt.suppressThinker then none
    else
      (cycleCandidates w entry opt).map fun cands =>
        (cands, { state with nextIndex := ((idx + 1) % w.cycle.length : ℕ) })

def steeredBranch : Option (WeightedBranch Q) :=
  if opt.steers then w.branches.find? fun b => b.isFirst && b.target.candidate.eligible opt
    else none

/-- The pick of a group with a thinker: the candidates, whether the `[first]` branch was taken, and
the cursor for the next request. -/
def pickThinkerCycle : Except RouteError (List (AttemptCandidate Q) × Bool × Option CycleState) :=
  match steeredBranch w opt with
  | some b =>
    .ok ([{ b.target.candidate with
            markedFirst := true, interleavedRole := .executor, selectorKey := w.selectorKey }], true,
      some { selectorKey := w.selectorKey, sequence := w.cycle, nextIndex := 0 })
  | none =>
    match (List.range w.cycle.length).findSome? (cyclePick w opt (cycleStart w opt.thinkerCycle)) with
    | some (cands, next) => .ok (cands, false, some next)
    | none => .error .noEligibleCandidate

def pickWeighted (position : ℕ) :
    Except RouteError (List (AttemptCandidate Q) × Bool × Option CycleState) :=
  if w.branches.isEmpty then .error .noEligibleCandidate
  else if w.thinkerAware then pickThinkerCycle w opt
  else do
    let (c, consumeFirst) ← pickWeightedLegacy w opt position
    .ok ([c], consumeFirst, none)

section Sticky

def stickyCycleStartIdx (w : Weighted Q) : ℕ :=
  if !cycleValid w opt.thinkerCycle then 0
  else if opt.thinkerCycle.nextIndex < 0 ∨ opt.thinkerCycle.nextIndex ≥ w.cycle.length then 0
  else opt.thinkerCycle.nextIndex.toNat

/-- The state behind the next entry with a key and a role. -/
def nextCycleForEntry (entry : CycleEntry) (start : ℕ) : Option CycleState :=
  (List.range w.cycle.length).findSome? fun i =>
    let idx := (start + i) % w.cycle.length
    if w.cycle[idx]? = some entry then
      some { selectorKey := w.selectorKey, sequence := w.cycle, nextIndex := ((idx + 1) % w.cycle.length : ℕ) }
    else none

/-- The role that a branch of a group with a thinker has. -/
@[simp] def WeightedBranch.role (b : WeightedBranch Q) : Role :=
  if b.isThinker then .thinker else .executor

def stickyTarget (b : WeightedBranch Q) (role : Role) (backend : GoStr) (opt : PlanOptions)
    (c : AttemptCandidate Q) : Option (AttemptCandidate Q × Option CycleState) :=
  if trimSpace c.primary.backend = backend ∧ c.eligible opt then
    let c := { c with markedFirst := b.isFirst && opt.steers }
    if w.thinkerAware then
      some ({ c with selectorKey := w.selectorKey, interleavedRole := role },
        nextCycleForEntry w { key := branchKey b, role } (stickyCycleStartIdx opt w))
    else some (c, none)
  else none

def stickyBranch (backend : GoStr) (opt : PlanOptions) (b : WeightedBranch Q) :
    Option (AttemptCandidate Q × Option CycleState) :=
  if b.isThinker ∧ opt.suppressThinker then none
  else
    match b.parallel with
    | some p => p.branches.findSome? fun leg => stickyTarget w b .executor backend opt leg.candidate
    | none => stickyTarget w b b.role backend opt b.target.candidate

def stickyPlain (backend : GoStr) (opt : PlanOptions) (c : AttemptCandidate Q) :
    Option (AttemptCandidate Q × Option CycleState) :=
  if trimSpace c.primary.backend = backend ∧ c.eligible opt then some (c, none) else none

def stickyAlt (backend : GoStr) (opt : PlanOptions) (alt : FailoverAlt Q) :
    Option (AttemptCandidate Q × Option CycleState) :=
  match alt.primary, alt.weighted, alt.parallel with
  | some p, _, _ => stickyPlain backend opt p.candidate
  | none, some w, _ => w.branches.findSome? (stickyBranch w backend opt)
  | none, none, some p => p.branches.findSome? fun leg => stickyPlain backend opt leg.candidate
  | none, none, none => none

def stickyCandidate (sel : Selector Q) (opt : PlanOptions) :
    Option (AttemptCandidate Q × Option CycleState) :=
  let backend := trimSpace opt.stickyBackendID
  if backend = [] then none else sel.alternatives.findSome? (stickyAlt backend opt)

end Sticky

section Preferred

/-- Move the first candidate of each preferred key to the front; the other candidates of such a key
are dropped. -/
def reorderPreferredCandidates (list : List (AttemptCandidate Q)) (preferred : List GoStr) :
    List (AttemptCandidate Q) :=
  if list.length ≤ 1 ∨ preferred = [] then list
  else
    let front := preferred.foldl (fun (out : List (AttemptCandidate Q)) k =>
      if k = [] then out
      else
        match list.find? (·.key = k) with
        | some c => if out.any (·.key = c.key) then out else out ++ [c]
        | none => out) []
    front ++ list.filter fun c => !front.any (·.key = c.key)

/-- Move the groups of the preferred keys to the front. A key stands for the first group that has
it. -/
def reorderPreferredGroups (groups : List (AttemptGroup Q)) (preferred : List GoStr) :
    List (AttemptGroup Q) :=
  if groups.length ≤ 1 ∨ preferred = [] then groups
  else
    let front := preferred.foldl (fun (seen : List ℕ) k =>
      if k = [] then seen
      else
        match groups.findIdx? (·.candidates.any (·.key = k)) with
        | some i => if i ∈ seen then seen else seen ++ [i]
        | none => seen) []
    front.filterMap (groups[·]?) ++ (groups.zipIdx.filter fun g => g.2 ∉ front).map (·.1)

end Preferred

/-- One turn of the loop over the alternatives: the group, if there is one, and the flags of the
session. -/
def planAlt (position : ℕ) (alt : FailoverAlt Q) :
    Except RouteError (Option (AttemptGroup Q) × Option SessionRoutingState) :=
  match alt.primary, alt.weighted, alt.parallel with
  | some p, _, _ =>
    .ok (if p.candidate.eligible opt then some { candidates := [p.candidate] } else none, opt.session)
  | none, some w, _ =>
    match pickWeighted w opt position with
    | .error .noEligibleCandidate => .ok (none, opt.session)
    | .error err => .error err
    | .ok (cands, consumeFirst, next) =>
      let session := if consumeFirst then opt.session.map fun _ => { firstRequestConsumed := true }
        else opt.session
      .ok (some { candidates := cands, nextThinkerCycle := next }, session)
  | none, none, some p =>
    let legs := expandParallel p opt
    if legs.isEmpty then .ok (none, opt.session)
    else .ok (some { candidates := reorderPreferredCandidates legs opt.preferredCandidateKeys }, opt.session)
  | none, none, none => invalid "invalid failover alternative"

/-- The loop over the alternatives. The flags of the session that a turn sets are seen by the next
turns, and by the caller also where a later turn fails. -/
def planAlts (opt : PlanOptions) : ℕ → Option SessionRoutingState → List (FailoverAlt Q) →
    Except RouteError (List (AttemptGroup Q)) × Option SessionRoutingState
  | _, session, [] => (.ok [], session)
  | position, session, alt :: alts =>
    match planAlt { opt with session } position alt with
    | .error err => (.error err, session)
    | .ok (group, session) =>
      let (groups, session) := planAlts opt (position + 1) session alts
      (groups.map (group.toList ++ ·), session)

/-- `ExpandFailoverGroups`: the groups, and the flags of the session afterwards. -/
def expandFailoverGroups (sel : Selector Q) (opt : PlanOptions) :
    Except RouteError (List (AttemptGroup Q)) × Option SessionRoutingState :=
  match stickyCandidate sel opt with
  | some (c, next) => (.ok [{ candidates := [c], nextThinkerCycle := next }], opt.session)
  | none =>
    let (groups, session) := planAlts opt 0 opt.session sel.alternatives
    (groups.bind fun groups =>
      if groups.isEmpty then .error .noEligibleCandidate
      else .ok (reorderPreferredGroups groups opt.preferredCandidateKeys), session)

end InteractiveProxy.Routing
