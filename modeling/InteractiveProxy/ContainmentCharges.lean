import InteractiveProxy.MoneyRounding
import InteractiveProxy.OverlapConflicts
import InteractiveProxy.QuantityTurns

/-! The rating of the reduced measures of a call. Of two lines of a scope with a positive amount,
one inside the other by the schemas, both are withheld, unless the exact amount of one does not fit
into the ledger's units. -/
namespace InteractiveProxy.Billing

open GoText GuardedRun Metering Economics

inductive RoundingScope
  | line
  | call
  | period
  | other (text : GoStr)
  deriving DecidableEq

inductive SelectionScope
  | unspecified
  | billableQuantity
  | wholeContext
  | period
  deriving DecidableEq

inductive RateError
  | quantityIncomplete (component : ComponentKey)
  | rule (e : TariffError)
  | currencyMismatch (ruleID : GoStr)
  | periodScopeRequired (ruleID : GoStr)
  | unsupported (ruleID : GoStr)
  | invalid (ruleID : GoStr)
  | precision
  | unknownRoundingScope (text : GoStr)

inductive RatingLineStatus
  | rated
  | explicitFree
  | rateMissing
  | rateUnsupported
  | currencyMismatch
  | quantityIncomplete
  deriving DecidableEq

/-- What a quantity rule says beside its component. Its prices, tiers, blocks and minimums are kept
as the function that `evaluateQuantityRule` makes of them: from the quantity, the quantity of the
context and whether a period is rated, the amount and whether the rate that applied is zero. -/
structure RuleTerms where
  currency : GoStr
  selectionScope : SelectionScope
  roundingScope : Option RoundingScope
  roundingPolicy : RoundingPolicy
  evaluateQuantityRule : ℚ → ℚ → Bool → Except RateError (ℚ × Bool)

/-- A component line. The source has the digest of its scope in the id of the line; the observations
and the prices that it quotes are left out. -/
structure LineItem where
  component : ComponentKey
  scopeKey : GoStr
  ruleID : GoStr
  roundingScope : RoundingScope
  roundingPolicy : RoundingPolicy
  status : RatingLineStatus
  amount : Option ℚ := none
  roundedAmount : Option Int64 := none
  deriving DecidableEq

def RateError.isMissing : RateError → Bool
  | .rule (.rateMissing _) => true
  | _ => false

def statusForRatingError (e : RateError) : RatingLineStatus :=
  match e with
  | .rule (.rateMissing _) => .rateMissing
  | .currencyMismatch _ => .currencyMismatch
  | .quantityIncomplete _ => .quantityIncomplete
  | _ => .rateUnsupported

def boundedRat (value : ℚ) : Bool :=
  -10 ^ 127 < value.num && value.num < 10 ^ 128 && value.den < 10 ^ 128

/-- `roundMoney`: the value in billionths of the currency. -/
def roundMoney (value : ℚ) (policy : RoundingPolicy) : Except RoundingError Int64 :=
  roundToInt64 (value * 1000000000) (if policy = .unspecified then .halfAwayFromZero else policy)

/-- `setExactAmount`: the exact amount is on the line before it is rounded. -/
def setExactAmount (line : LineItem) (value : ℚ) : LineItem × Option RateError :=
  if boundedRat value = false then (line, some .precision)
  else
    let line := { line with amount := some value }
    match line.roundingScope with
    | .other text => (line, some (.unknownRoundingScope text))
    | .line =>
      match roundMoney value line.roundingPolicy with
      | .error _ => (line, some .precision)
      | .ok rounded => ({ line with roundedAmount := some rounded }, none)
    | _ => ({ line with roundedAmount := none }, none)

variable (key : ComponentKey)

def isInformationalMeasure : Bool :=
  key.component = lit "input_token_total" || key.component = lit "total_token"

def contextMeasures (all : List AggregateMeasure) : List AggregateMeasure :=
  all.filter fun item => !item.redundant && !isInformationalMeasure item.key &&
    item.key.direction = key.direction && item.key.unit = key.unit && item.key.schemaID = key.schemaID

def contextTotal (all : List AggregateMeasure) : ℚ :=
  ((contextMeasures key all).map fun item => item.rat.getD 0).sum

def contextMeasuresComplete (all : List AggregateMeasure) : Bool :=
  (contextMeasures key all).all fun item => item.complete && item.rat.isSome

def SelectionScope.isContextual : SelectionScope → Bool
  | .wholeContext | .period => true
  | _ => false

section Line

variable (currency : GoStr) (rules : List (RatingRule RuleTerms)) (qualifiers : List Dimension)
  (periodAllowed : Bool) (all : List AggregateMeasure)

def LineItem.underRule (line : LineItem) (rule : RatingRule RuleTerms) : LineItem :=
  { line with
    ruleID := rule.id
    roundingScope := rule.material.roundingScope.getD line.roundingScope
    roundingPolicy :=
      if rule.material.roundingPolicy = .unspecified then line.roundingPolicy
      else rule.material.roundingPolicy }

def amountLine (line : LineItem) (amount : ℚ) (zeroRate : Bool) : LineItem × Option RateError :=
  let status := if amount = 0 ∧ zeroRate = true then .explicitFree else line.status
  match setExactAmount { line with status } amount with
  | (line, some e) => ({ line with status := statusForRatingError e }, some e)
  | (line, none) => (line, none)

def priceLine (line : LineItem) (rule : RatingRule RuleTerms) (item : AggregateMeasure)
    (quantity : ℚ) : LineItem × Option RateError :=
  let terms := rule.material
  if equalFoldAscii terms.currency currency = false then
    ({ line with status := .currencyMismatch }, some (.currencyMismatch rule.id))
  else
    let line := line.underRule rule
    if (terms.selectionScope = .period ∨ terms.roundingScope = some .period) ∧
        periodAllowed = false then
      ({ line with status := .rateUnsupported }, some (.periodScopeRequired rule.id))
    else if terms.selectionScope.isContextual ∧ contextMeasuresComplete item.key all = false then
      ({ line with status := .quantityIncomplete }, some (.quantityIncomplete item.key))
    else
      let context := if terms.selectionScope.isContextual then contextTotal item.key all
        else quantity
      match terms.evaluateQuantityRule quantity context periodAllowed with
      | .error e => ({ line with status := statusForRatingError e }, some e)
      | .ok (amount, zeroRate) => amountLine line amount zeroRate

def firstLine (item : AggregateMeasure) : LineItem :=
  ⟨item.key, item.scopeKey, lit "unresolved", .line, .halfAwayFromZero, .rated, none, none⟩

/-- `rateMeasureLine`. A complete measure has a quantity. -/
def rateMeasureLine (item : AggregateMeasure) : LineItem × Option RateError :=
  let line := firstLine item
  match item.complete, item.rat with
  | true, some quantity =>
    match resolveRule rules item.key qualifiers with
    | .error e => ({ line with status := statusForRatingError (.rule e) }, some (.rule e))
    | .ok rule => priceLine currency periodAllowed all line rule item quantity
  | _, _ => ({ line with status := .quantityIncomplete }, some (.quantityIncomplete item.key))

end Line

inductive Completeness
  | complete
  | partialEvidence
  | conflict
  | unavailable
  deriving DecidableEq

structure Valuation where
  lines : List LineItem
  completeness : Completeness

structure RatedAggregate where
  item : AggregateMeasure
  line : LineItem
  lineErr : Option RateError

/-- What a call is rated from. `reduction` is none if the observations could not be reduced, and
`qualifiers` if those of the tariff and of the call contradict each other. The last three stand for
the passes that this model does not run: what the commercial passes withhold, whether a fixed fee
was rated, and whether a check of fees, partitions, quantities or totals found something. -/
structure RatingInput where
  reduction : Option (List AggregateMeasure)
  reductionIssue : Bool := false
  qualifiers : Option (List Dimension)
  periodAllowed : Bool
  commercial : OverlapAnalysis := {}
  fixedFees : Bool := false
  otherIssue : Bool := false

section Rating

variable (table : PrintTable) (program : SchemaProgram) (currency : GoStr)
  (rules : List (RatingRule RuleTerms)) (qualifiers : List Dimension)

/-- `parentCoveredByCompletePartition`. -/
def parentCovered (aggregates : List AggregateMeasure) (item : AggregateMeasure) : Bool :=
  match measuredNode table program item with
  | some parent =>
    (parent, .covered) ∈ completeChildPartitionCoverage table program rules qualifiers aggregates item.scopeKey
  | none => false

def rateMissing (qualifiers : List Dimension) (item : AggregateMeasure) : Bool :=
  match resolveRule rules item.key qualifiers with
  | .error (.rateMissing _) => true
  | _ => false

/-- The measures that thresholds count; a covered parent without a rate is counted by its members.
-/
def contextAggregates (aggregates : List AggregateMeasure) : List AggregateMeasure :=
  aggregates.filter
    fun item => !(item.complete && parentCovered table program rules qualifiers aggregates item &&
    rateMissing rules qualifiers item)

/-- Totals and complete zero quantities without a rate make no line, nor does what its parent
already charges. -/
def needsLine (item : AggregateMeasure) : Bool :=
  !item.redundant && !((isInformationalMeasure item.key || (item.complete && item.rat = some 0)) &&
    rateMissing rules qualifiers item)

def rateAggregates (periodAllowed : Bool) (aggregates : List AggregateMeasure) :
    List RatedAggregate :=
  (aggregates.filter (needsLine rules qualifiers)).map fun item =>
    let (line, lineErr) := rateMeasureLine currency rules qualifiers periodAllowed
      (contextAggregates table program rules qualifiers aggregates) item
    { item, line, lineErr }

def rateableKey (entry : RatedAggregate) : Option (GoStr × GoStr) :=
  match entry.lineErr, entry.item.key.normalize table with
  | none, .ok key => some (entry.item.scopeKey, key.canonicalKey table)
  | _, _ => none

def RatedAggregate.positive (entry : RatedAggregate) : Bool := 0 < entry.line.amount.getD 0

def rateableByScope (rated : List RatedAggregate) : List (GoStr × GoStr) :=
  rated.filterMap (rateableKey table)

def payableByScope (rated : List RatedAggregate) : List (GoStr × GoStr) :=
  (rated.filter RatedAggregate.positive).filterMap (rateableKey table)

def schemaConflictSuppressed (conflicts : List (GoStr × GoStr)) (item : AggregateMeasure) : Bool :=
  match item.key.normalize table with
  | .ok key => (item.scopeKey, key.canonicalKey table) ∈ conflicts
  | .error _ => false

def emits (conflicts : List (GoStr × GoStr)) (covered : AggregateMeasure → Bool)
    (entry : RatedAggregate) : Bool :=
  !schemaConflictSuppressed table conflicts entry.item &&
    !(entry.lineErr.any RateError.isMissing && covered entry.item)

def ratedOf (input : RatingInput) : List RatedAggregate :=
  match input.reduction, input.qualifiers with
  | some aggregates, some qualifiers =>
    rateAggregates table program currency rules qualifiers input.periodAllowed aggregates
  | _, _ => []

/-- `rateMeasuresWithPredicateAndFixedScope` from the reduced measures on. -/
def rateMeasures (input : RatingInput) : Valuation :=
  match input.reduction with
  | none => ⟨[], .partialEvidence⟩
  | some aggregates =>
    match input.qualifiers with
    | none => ⟨[], .conflict⟩
    | some qualifiers =>
      let rated :=
        rateAggregates table program currency rules qualifiers input.periodAllowed aggregates
      let analysis := overlappingSchemaInclusionConflicts table program (payableByScope table rated)
        (rateableByScope table rated) aggregates input.commercial
      let emitted := rated.filter (emits table analysis.conflicts
        (parentCovered table program rules qualifiers aggregates))
      { lines := emitted.map RatedAggregate.line
        completeness :=
          if analysis.err.isSome then .conflict
          else if rated = [] ∧ input.fixedFees = false then .unavailable
          else if input.reductionIssue || emitted.any (·.lineErr.isSome) || input.otherIssue then
            .partialEvidence
          else .complete }

end Rating

open List

def LineItem.Positive (line : LineItem) : Prop := 0 < line.amount.getD 0
  deriving Decidable

variable (table : PrintTable) (schemas : List ComponentSchema)

def Nested (a b : LineItem) : Prop :=
  a.scopeKey = b.scopeKey ∧
    (DeclaredInside table schemas (a.component.canonicalKey table) (b.component.canonicalKey table) ∨
      DeclaredInside table schemas (b.component.canonicalKey table)
      (a.component.canonicalKey table))

/-- No two nested lines with a positive amount are in the valuation, and those that were rated are
both withheld. -/
structure NoContainmentDoubleCharge
    (rated : List RatedAggregate) (v : Valuation) : Prop where
  lines : ∀ a ∈ v.lines, ∀ b ∈ v.lines, a.Positive → b.Positive → ¬ Nested table schemas a b
  withheld : ∀ a ∈ rated, ∀ b ∈ rated, a.lineErr = none → b.lineErr = none → a.line.Positive →
    b.line.Positive →
    Nested table schemas a.line b.line → a.line ∉ v.lines ∧ b.line ∉ v.lines ∧
    v.completeness = .conflict

/-- The amount of a line is rounded where its scope says, and fits there. -/
@[simp] def LineItem.rounds (line : LineItem) : Bool :=
  match line.roundingScope with
  | .line => (roundMoney (line.amount.getD 0) line.roundingPolicy).isOk
  | .other _ => false
  | _ => true

def WithheldAnyway (rated : List RatedAggregate) (commercial : OverlapAnalysis) (line : LineItem) :
    Prop :=
  (∃ y ∈ rated, ∃ z ∈ rated, y.line.Positive ∧ z.line.Positive ∧ y.line.rounds ∧
    z.line.rounds ∧ Nested table schemas y.line z.line ∧ y.line.scopeKey = line.scopeKey ∧
      y.line.component.canonicalKey table = line.component.canonicalKey table) ∨
  (rateableByScope table rated ≠ [] ∧ (line.scopeKey, line.component.canonicalKey table) ∈ commercial.conflicts)

def NestedRound (rated : List RatedAggregate) (commercial : OverlapAnalysis) : Prop :=
  ∀ a ∈ rated, ∀ b ∈ rated, a.line.Positive → b.line.Positive → Nested table schemas a.line b.line →
    (a.line.rounds ∧ b.line.rounds) ∨ WithheldAnyway table schemas rated commercial a.line ∨
      WithheldAnyway table schemas rated commercial b.line

lemma Nested.symm {table : PrintTable} {schemas : List ComponentSchema} {a b : LineItem}
    (h : Nested table schemas a b) : Nested table schemas b a := ⟨h.1.symm, h.2.symm⟩

/-- What a pass over a line leaves: it is about the same component, and without an error if its
amount rounds. -/
structure LineOutcome (start : LineItem) (result : LineItem × Option RateError) : Prop where
  component : result.1.component = start.component
  scopeKey : result.1.scopeKey = start.scopeKey
  error : result.2 = none ↔ result.1.amount.isSome ∧ result.1.rounds
  missing : result.2.any RateError.isMissing → result.1.amount = none

variable {line : LineItem}

lemma setExactAmount_outcome (hnone : line.amount = none) (value : ℚ) :
    LineOutcome line (setExactAmount line value) := by
  unfold setExactAmount
  split_ifs
  · exact ⟨rfl, rfl, by simp [hnone], fun _ => hnone⟩
  cases hscope : line.roundingScope with
  | line =>
    dsimp only
    cases hround : roundMoney value line.roundingPolicy with
    | error e => exact ⟨rfl, rfl, by simp [hround, Except.isOk, Except.toBool], nofun⟩
    | ok rounded => exact ⟨rfl, rfl, by simp [hround, Except.isOk, Except.toBool], nofun⟩
  | call => exact ⟨rfl, rfl, by simp, nofun⟩
  | period => exact ⟨rfl, rfl, by simp, nofun⟩
  | other text => exact ⟨rfl, rfl, by simp, nofun⟩

lemma amountLine_outcome (hnone : line.amount = none) (amount : ℚ) (zeroRate : Bool) :
    LineOutcome line (amountLine line amount zeroRate) := by
  unfold amountLine
  dsimp only
  generalize (if amount = 0 ∧ zeroRate = true then _ else line.status : RatingLineStatus) = status
  have hset :=
    setExactAmount_outcome (show ({ line with status } : LineItem).amount = none from hnone) amount
  generalize setExactAmount { line with status } amount = result at hset
  obtain ⟨filled, err⟩ := result
  cases err with
  | none => exact ⟨hset.component, hset.scopeKey, hset.error, hset.missing⟩
  | some e => exact ⟨hset.component, hset.scopeKey, hset.error, hset.missing⟩

lemma priceLine_outcome (currency : GoStr) (periodAllowed : Bool) (all : List AggregateMeasure)
    (hnone : line.amount = none) (rule : RatingRule RuleTerms) (item : AggregateMeasure)
    (quantity : ℚ) :
    LineOutcome line (priceLine currency periodAllowed all line rule item quantity) := by
  have hrule : (line.underRule rule).amount = none := hnone
  unfold priceLine
  dsimp only
  generalize (if rule.material.selectionScope.isContextual = true then _ else quantity : ℚ) =
    context
  split_ifs
  · exact ⟨rfl, rfl, by simp [hnone], fun _ => hnone⟩
  · exact ⟨rfl, rfl, by simp [hrule], fun _ => hrule⟩
  · exact ⟨rfl, rfl, by simp [hrule], fun _ => hrule⟩
  cases rule.material.evaluateQuantityRule quantity context periodAllowed with
  | error e => exact ⟨rfl, rfl, by simp [hrule], fun _ => hrule⟩
  | ok priced =>
    have hamount := amountLine_outcome hrule priced.1 priced.2
    exact ⟨hamount.component, hamount.scopeKey, hamount.error, hamount.missing⟩

lemma rateMeasureLine_outcome (currency : GoStr) (rules : List (RatingRule RuleTerms))
    (qualifiers : List Dimension)
    (periodAllowed : Bool) (all : List AggregateMeasure) (item : AggregateMeasure) :
    LineOutcome (firstLine item)
    (rateMeasureLine currency rules qualifiers periodAllowed all item) := by
  have hnone : (firstLine item).amount = none := rfl
  unfold rateMeasureLine
  split
  · split
    · exact ⟨rfl, rfl, by simp [hnone], fun _ => rfl⟩
    · exact priceLine_outcome currency periodAllowed all hnone _ item _
  · exact ⟨rfl, rfl, by simp [hnone], fun _ => rfl⟩

section Withheld

variable {table : PrintTable} {schemas : List ComponentSchema}

lemma declaredInside_ne_nil (h : validateComponentSchemas table schemas = .ok ())
    {outer inner : GoStr}
    (hinside : DeclaredInside table schemas outer inner) : outer ≠ [] ∧ inner ≠ [] := by
  have hchild : ∀ {outer inner}, DeclaredChild table schemas outer inner → outer ≠ [] ∧
      inner ≠ [] := by
    intro outer inner hdeclared
    obtain ⟨e, he, rfl, rfl⟩ := (declaredChild_iff h).mp hdeclared
    obtain ⟨r, -, hedge⟩ := mem_filterMap.mp he
    exact schemaEdge_ne_nil hedge
  induction hinside with
  | single hdeclared => exact hchild hdeclared
  | tail _ hdeclared ih => exact ⟨ih.1, (hchild hdeclared).2⟩

lemma canonicalKey_ne_nil {k : ComponentKey} (hne : k.canonicalKey table ≠ []) :
    ∃ n, k.normalize table = .ok n ∧ n.canonicalKey table = k.canonicalKey table := by
  cases hk : k.normalize table with
  | ok n => exact ⟨n, rfl, canonicalKey_normalize hk⟩
  | error e => exact absurd (by simp [ComponentKey.canonicalKey, hk]) hne

def Rated (rated : List RatedAggregate) : Prop :=
  ∀ e ∈ rated, LineOutcome (firstLine e.item) (e.line, e.lineErr)

variable {rated : List RatedAggregate} {e : RatedAggregate} {scope text : GoStr}

lemma Rated.lineErr (hrated : Rated rated) (he : e ∈ rated)
    (hpositive : e.line.Positive) : e.lineErr = none ↔ e.line.rounds := by
  have hsome : e.line.amount.isSome := by
    cases hamount : e.line.amount with
    | none => simp [LineItem.Positive, hamount] at hpositive
    | some q => rfl
  exact (hrated e he).error.trans (and_iff_right hsome)

lemma mem_payableByScope (hrated : Rated rated) (hne : text ≠ []) :
    (scope, text) ∈ payableByScope table rated ↔
      ∃ e ∈ rated, e.line.Positive ∧ e.line.rounds ∧ e.line.scopeKey = scope ∧
        e.line.component.canonicalKey table = text := by
  unfold payableByScope
  simp only [mem_filterMap, mem_filter]
  refine exists_congr fun e => ⟨?_, ?_⟩
  · rintro ⟨⟨he, hpositive⟩, hkey⟩
    have hpositive : e.line.Positive := of_decide_eq_true hpositive
    have hcomponent : e.line.component = e.item.key := (hrated e he).component
    unfold rateableKey at hkey
    split at hkey
    · next key herr hnormal =>
      cases hkey
      exact ⟨he, hpositive, (hrated.lineErr he hpositive).mp herr, (hrated e he).scopeKey,
        by rw [hcomponent, canonicalKey_normalize hnormal]⟩
    · cases hkey
  · rintro ⟨he, hpositive, hrounds, rfl, rfl⟩
    have hcomponent : e.line.component = e.item.key := (hrated e he).component
    have hscope : e.line.scopeKey = e.item.scopeKey := (hrated e he).scopeKey
    rw [hcomponent] at hne ⊢
    obtain ⟨key, hnormal, htext⟩ := canonicalKey_ne_nil hne
    refine ⟨⟨he, decide_eq_true hpositive⟩, ?_⟩
    unfold rateableKey
    rw [(hrated.lineErr he hpositive).mpr hrounds, hnormal, hscope, ← htext]

lemma payable_nil_of_rateable_nil (hnone : rateableByScope table rated = []) :
    payableByScope table rated = [] := by
  refine eq_nil_iff_forall_not_mem.mpr fun entry hentry => ?_
  obtain ⟨e, he, hkey⟩ := mem_filterMap.mp hentry
  have hmem : entry ∈ rateableByScope table rated :=
    mem_filterMap.mpr ⟨e, (mem_filter.mp he).1, hkey⟩
  rw [hnone] at hmem
  cases hmem

section

variable (h : validateComponentSchemas table schemas = .ok ())
include h

lemma conflicting_iff {payable : List (GoStr × GoStr)} :
    (∃ a b, Conflicting (compileSchemaProgram table schemas) payable scope a b ∧
      text = (compileSchemaProgram table schemas).keyString a) ↔
      ∃ text', (scope, text) ∈ payable ∧ (scope, text') ∈ payable ∧
        (DeclaredInside table schemas text text' ∨ DeclaredInside table schemas text' text) := by
  constructor
  · rintro ⟨a, b, ⟨ha, hb, hover⟩, rfl⟩
    refine ⟨_, ha, hb, hover.imp (fun hbelow => ?_) fun hbelow => ?_⟩
    · exact (declaredInside_iff h).mpr ⟨a, b, hbelow, rfl, rfl⟩
    · exact (declaredInside_iff h).mpr ⟨b, a, hbelow, rfl, rfl⟩
  · rintro ⟨text', ha, hb, hinside | hinside⟩
    · obtain ⟨a, b, hbelow, rfl, rfl⟩ := (declaredInside_iff h).mp hinside
      exact ⟨a, b, ⟨ha, hb, .inl hbelow⟩, rfl⟩
    · obtain ⟨b, a, hbelow, rfl, rfl⟩ := (declaredInside_iff h).mp hinside
      exact ⟨a, b, ⟨ha, hb, .inr hbelow⟩, rfl⟩

lemma suppressed_iff
    (hrated : Rated rated) (aggregates : List AggregateMeasure) (commercial : OverlapAnalysis)
    (he : e ∈ rated) (hne : e.line.component.canonicalKey table ≠ []) :
    schemaConflictSuppressed table
    (overlappingSchemaInclusionConflicts table (compileSchemaProgram table schemas)
      (payableByScope table rated)
      (rateableByScope table rated) aggregates commercial).conflicts e.item = true ↔
      WithheldAnyway table schemas rated commercial e.line := by
  have hcomponent : e.line.component = e.item.key := (hrated e he).component
  have hscope : e.line.scopeKey = e.item.scopeKey := (hrated e he).scopeKey
  have hsuppressed : ∀ conflicts, schemaConflictSuppressed table conflicts e.item ↔
      (e.line.scopeKey, e.line.component.canonicalKey table) ∈ conflicts := by
    intro conflicts
    obtain ⟨key, hnormal, htext⟩ := canonicalKey_ne_nil hne
    rw [hcomponent] at hnormal htext
    unfold schemaConflictSuppressed
    rw [hnormal, hscope, hcomponent, ← htext, decide_eq_true_eq]
  rw [hsuppressed]
  by_cases hrateable : rateableByScope table rated = []
  · -- Nothing was rated, so that nothing is analysed.
    have hpayable := payable_nil_of_rateable_nil hrateable
    unfold overlappingSchemaInclusionConflicts
    rw [if_pos ⟨hpayable, hrateable⟩]
    refine iff_of_false not_mem_nil ?_
    rintro (⟨y, hy, -, -, hpositive, -, hrounds, -, -, hyscope, hytext⟩ | ⟨hsome, -⟩)
    · have hmem := (mem_payableByScope hrated hne).mpr ⟨y, hy, hpositive, hrounds, hyscope, hytext⟩
      rw [hpayable] at hmem
      cases hmem
    · exact hsome hrateable
  · rw [(overlappingSchemaInclusionConflicts_spec (compile_wellFormed h) table _ aggregates _ commercial
      (.inr hrateable)).1, conflicting_iff h]
    refine or_congr ⟨?_, ?_⟩ (and_iff_right hrateable).symm
    · rintro ⟨text', hmem, hmem', hinside⟩
      obtain ⟨y, hy, hypositive, hyrounds, hyscope, hytext⟩ :=
        (mem_payableByScope hrated hne).mp hmem
      have hne' : text' ≠ [] := hinside.elim (fun hin => (declaredInside_ne_nil h hin).2)
        fun hin => (declaredInside_ne_nil h hin).1
      obtain ⟨z, hz, hzpositive, hzrounds, hzscope, rfl⟩ :=
        (mem_payableByScope hrated hne').mp hmem'
      exact ⟨y, hy, z, hz, hypositive, hzpositive, hyrounds, hzrounds,
        ⟨hyscope.trans hzscope.symm, by rw [hytext]; exact hinside⟩, hyscope, hytext⟩
    · rintro ⟨y, hy, z, hz, hypositive, hzpositive, hyrounds, hzrounds, ⟨hsame, hinside⟩, hyscope, hytext⟩
      rw [hytext] at hinside
      have hne' : z.line.component.canonicalKey table ≠ [] := hinside.elim
        (fun hin => (declaredInside_ne_nil h hin).2) fun hin => (declaredInside_ne_nil h hin).1
      exact ⟨_, (mem_payableByScope hrated hne).mpr ⟨y, hy, hypositive, hyrounds, hyscope, hytext⟩,
        (mem_payableByScope hrated hne').mpr ⟨z, hz, hzpositive, hzrounds, hsame.symm.trans hyscope, rfl⟩, hinside⟩

lemma Nested.ne_nil {a b : LineItem} (hnested : Nested table schemas a b) :
    a.component.canonicalKey table ≠ [] ∧ b.component.canonicalKey table ≠ [] :=
  hnested.2.elim (declaredInside_ne_nil h) fun hin => (declaredInside_ne_nil h hin).symm

end

lemma emits_iff (hrated : Rated rated) (he : e ∈ rated)
    (hpositive : e.line.Positive) (conflicts : List (GoStr × GoStr))
    (covered : AggregateMeasure → Bool) :
    emits table conflicts covered e ↔ ¬ schemaConflictSuppressed table conflicts e.item = true := by
  have hmissing : e.lineErr.any RateError.isMissing = false := by
    refine Bool.eq_false_iff.mpr fun hmissing => ?_
    have hnone : e.line.amount = none := (hrated e he).missing hmissing
    simp [LineItem.Positive, hnone] at hpositive
  simp [emits, hmissing]

end Withheld

section Valuation

variable {table : PrintTable} {schemas : List ComponentSchema}

/-- The lines of a valuation and its completeness, from the entries and the analysis that they came
from. -/
structure Emitted (table : PrintTable) (rated : List RatedAggregate) (analysis : OverlapAnalysis)
    (covered : AggregateMeasure → Bool) (v : Valuation) : Prop where
  lines : v.lines = (rated.filter (emits table analysis.conflicts covered)).map RatedAggregate.line
  conflict : analysis.err.isSome → v.completeness = .conflict

lemma charged_once_of_emitted (h : validateComponentSchemas table schemas = .ok ())
    {rated : List RatedAggregate}
    (hrated : Rated rated) (aggregates : List AggregateMeasure) (commercial : OverlapAnalysis)
    {covered : AggregateMeasure → Bool} {v : Valuation}
    (hv : Emitted table rated (overlappingSchemaInclusionConflicts table (compileSchemaProgram table schemas)
      (payableByScope table rated) (rateableByScope table rated) aggregates commercial) covered v) :
    NoContainmentDoubleCharge table schemas rated v ↔
    NestedRound table schemas rated commercial := by
  -- A positive line of a nested pair is in the valuation unless it is withheld.
  have hline : ∀ line, line.Positive → line.component.canonicalKey table ≠ [] →
      (line ∈ v.lines ↔ (∃ e ∈ rated, e.line = line) ∧ ¬ WithheldAnyway table schemas rated commercial line) := by
    intro line hpositive hne
    rw [hv.lines]
    simp only [mem_map, mem_filter]
    constructor
    · rintro ⟨e, ⟨he, hemits⟩, rfl⟩
      rw [emits_iff hrated he hpositive, suppressed_iff h hrated aggregates commercial he hne] at hemits
      exact ⟨⟨e, he, rfl⟩, hemits⟩
    · rintro ⟨⟨e, he, rfl⟩, hfree⟩
      refine ⟨e, ⟨he, ?_⟩, rfl⟩
      rw [emits_iff hrated he hpositive, suppressed_iff h hrated aggregates commercial he hne]
      exact hfree
  -- Of two that round, each is withheld for the other.
  have hwithheld : ∀ a ∈ rated, ∀ b ∈ rated, a.line.Positive → b.line.Positive →
      Nested table schemas a.line b.line →
      a.line.rounds = true → b.line.rounds = true →
      WithheldAnyway table schemas rated commercial a.line :=
    fun a ha b hb hapositive hbpositive hnested harounds hbrounds =>
      .inl ⟨a, ha, b, hb, hapositive, hbpositive, harounds, hbrounds, hnested, rfl, rfl⟩
  constructor
  · intro hcharge a ha b hb hapositive hbpositive hnested
    obtain ⟨hane, hbne⟩ := hnested.ne_nil h
    by_contra hneither
    simp only [not_or] at hneither
    exact hcharge.lines _ ((hline _ hapositive hane).mpr ⟨⟨a, ha, rfl⟩, hneither.2.1⟩) _
      ((hline _ hbpositive hbne).mpr ⟨⟨b, hb, rfl⟩, hneither.2.2⟩) hapositive hbpositive hnested
  · intro hround
    refine ⟨fun a ha b hb hapositive hbpositive hnested => ?_, ?_⟩
    · obtain ⟨hane, hbne⟩ := hnested.ne_nil h
      obtain ⟨⟨x, hx, rfl⟩, hafree⟩ := (hline a hapositive hane).mp ha
      obtain ⟨⟨y, hy, rfl⟩, hbfree⟩ := (hline b hbpositive hbne).mp hb
      rcases hround x hx y hy hapositive hbpositive hnested
        with ⟨hxrounds, hyrounds⟩ | hwith | hwith
      · exact hafree (hwithheld x hx y hy hapositive hbpositive hnested hxrounds hyrounds)
      · exact hafree hwith
      · exact hbfree hwith
    · intro a ha b hb haerr hberr hapositive hbpositive hnested
      obtain ⟨hane, hbne⟩ := hnested.ne_nil h
      have harounds := (hrated.lineErr ha hapositive).mp haerr
      have hbrounds := (hrated.lineErr hb hbpositive).mp hberr
      refine ⟨fun hmem => ((hline _ hapositive hane).mp hmem).2
          (hwithheld a ha b hb hapositive hbpositive hnested harounds hbrounds),
        fun hmem => ((hline _ hbpositive hbne).mp hmem).2
          (hwithheld b hb a ha hbpositive hapositive hnested.symm hbrounds harounds), hv.conflict ?_⟩
      have hamem := (mem_payableByScope hrated hane).mpr ⟨a, ha, hapositive, harounds, rfl, rfl⟩
      have hbmem :=
        (mem_payableByScope hrated hbne).mpr ⟨b, hb, hbpositive, hbrounds, hnested.1.symm, rfl⟩
      obtain ⟨n, m, hconflict, -⟩ := (conflicting_iff h).mpr ⟨_, hamem, hbmem, hnested.2⟩
      exact (overlappingSchemaInclusionConflicts_spec (compile_wellFormed h) table _ aggregates _ commercial
        (.inl (ne_nil_of_mem hamem))).2 ⟨_, n, m, hconflict⟩

lemma charged_once_nil (commercial : OverlapAnalysis) (completeness : Completeness) :
    NoContainmentDoubleCharge table schemas [] ⟨[], completeness⟩ ↔
    NestedRound table schemas [] commercial :=
  iff_of_true ⟨fun _ ha => absurd ha not_mem_nil, fun _ ha => absurd ha not_mem_nil⟩
    fun _ ha => absurd ha not_mem_nil

end Valuation

/-- In every rating under published schemas, no component is charged for twice by way of containment
exactly if nested lines with a positive amount round, or one of them is withheld for another reason.
-/
theorem containment_charged_once (table : PrintTable) (schemas : List ComponentSchema)
    (currency : GoStr) (rules : List (RatingRule RuleTerms)) (input : RatingInput)
    (h : validateComponentSchemas table schemas = .ok ()) :
    NoContainmentDoubleCharge table schemas
    (ratedOf table (compileSchemaProgram table schemas) currency rules input)
        (rateMeasures table (compileSchemaProgram table schemas) currency rules input) ↔
      NestedRound table schemas (ratedOf table (compileSchemaProgram table schemas) currency rules input)
        input.commercial := by
  unfold ratedOf rateMeasures
  cases input.reduction with
  | none => exact charged_once_nil _ _
  | some aggregates =>
    cases input.qualifiers with
    | none => exact charged_once_nil _ _
    | some qualifiers =>
      refine charged_once_of_emitted h (fun e he => ?_) aggregates _ ⟨rfl, fun herr => if_pos herr⟩
      obtain ⟨item, -, rfl⟩ := mem_map.mp he
      exact rateMeasureLine_outcome currency rules qualifiers _ _ item

def freshSchema : ComponentSchema where
  id := lit "fresh"
  version := lit "1"
  relationships := [{ kind := .subset, parent := inputToken "text_token", child := inputToken "input_token_uncached" }]

def perToken (component : String) (price : ℚ) : RatingRule RuleTerms :=
  ⟨lit component, some (inputToken component), [],
    { currency := lit "USD", selectionScope := .unspecified, roundingScope := none, roundingPolicy := .unspecified
      evaluateQuantityRule := fun quantity _ _ => .ok (quantity * price, price = 0) }⟩

def oneToken : RatingInput where
  reduction := some [⟨inputToken "text_token", [], some 1, true, false⟩,
    ⟨inputToken "input_token_uncached", [], some 1, true, false⟩]
  qualifiers := some []
  periodAllowed := false

lemma freshSchema_accepted : validateComponentSchemas asciiTable [freshSchema] = .ok () :=
  eq_ok_of_isOk (by decide +kernel)

/-- Both lines round, so that both are withheld. -/
theorem containment_charged_once_of_fresh : NoContainmentDoubleCharge asciiTable [freshSchema]
      (ratedOf asciiTable (compileSchemaProgram asciiTable [freshSchema]) (lit "USD")
        [perToken "text_token" 3, perToken "input_token_uncached" 2] oneToken)
      (rateMeasures asciiTable (compileSchemaProgram asciiTable [freshSchema]) (lit "USD")
        [perToken "text_token" 3, perToken "input_token_uncached" 2] oneToken) := by
  refine (containment_charged_once _ _ _ _ _ freshSchema_accepted).mpr ?_
  have hrounds : ∀ e ∈ ratedOf asciiTable (compileSchemaProgram asciiTable [freshSchema])
      (lit "USD")
      [perToken "text_token" 3, perToken "input_token_uncached" 2] oneToken,
      e.line.rounds := by decide +kernel
  exact fun a ha b hb _ _ _ => .inl ⟨hrounds a ha, hrounds b hb⟩

/-- At ten billion a token the text line does not fit into the ledger's units. It is not weighed
against the fresh token inside it, and both stand in the valuation. -/
theorem overflowing_line_charged : validateComponentSchemas asciiTable [freshSchema] = .ok () ∧
    ((rateMeasures asciiTable (compileSchemaProgram asciiTable [freshSchema]) (lit "USD")
        [perToken "text_token" 10000000000, perToken "input_token_uncached" 1] oneToken).lines.map
        fun line => (line.component, line.amount)) =
        [(inputToken "text_token", some 10000000000), (inputToken "input_token_uncached", some 1)] ∧
    (rateMeasures asciiTable (compileSchemaProgram asciiTable [freshSchema]) (lit "USD")
      [perToken "text_token" 10000000000, perToken "input_token_uncached" 1] oneToken).completeness = .partialEvidence ∧
    ¬ NoContainmentDoubleCharge asciiTable [freshSchema]
      (ratedOf asciiTable (compileSchemaProgram asciiTable [freshSchema]) (lit "USD")
        [perToken "text_token" 10000000000, perToken "input_token_uncached" 1] oneToken)
      (rateMeasures asciiTable (compileSchemaProgram asciiTable [freshSchema]) (lit "USD")
        [perToken "text_token" 10000000000, perToken "input_token_uncached" 1] oneToken) := by
  have hlines : (rateMeasures asciiTable (compileSchemaProgram asciiTable [freshSchema]) (lit "USD")
      [perToken "text_token" 10000000000, perToken "input_token_uncached" 1] oneToken).lines =
      [⟨inputToken "text_token", [], lit "text_token", .line, .halfAwayFromZero, .rateUnsupported,
          some 10000000000, none⟩,
        ⟨inputToken "input_token_uncached", [], lit "input_token_uncached", .line,
          .halfAwayFromZero, .rated, some 1, some 1000000000⟩] := by decide +kernel
  refine ⟨freshSchema_accepted, by rw [hlines]; rfl, by decide +kernel, fun hcharge => ?_⟩
  have hnone := hcharge.lines
  rw [hlines] at hnone
  exact hnone _ mem_cons_self _ (mem_cons_of_mem _ mem_cons_self) (by decide +kernel)
    (by decide +kernel) ⟨rfl, .inl (.single ⟨_, mem_cons_self, rfl, rfl, rfl, rfl⟩)⟩

end InteractiveProxy.Billing
