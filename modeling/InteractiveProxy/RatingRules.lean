import InteractiveProxy.GuardedRun
import InteractiveProxy.KeySort
import Mathlib.Data.List.Pairwise

/-! Tariff rules: a set of rules passes the check of overlaps just when no component and no
qualifiers are met by two rules of equal specificity. In a published tariff the rule of greatest
specificity is unique. -/
namespace InteractiveProxy.Billing

open GoText GuardedRun KeySort

/-- A name with a value; `metering.Dimension` and `economics.QualifierCondition` of the source. -/
structure Dimension where
  name : GoStr
  value : GoStr
  deriving DecidableEq

inductive FlowDirection
  | none
  | input
  | output
  | other (text : GoStr)
  deriving DecidableEq

structure ComponentKey where
  direction : FlowDirection
  component : GoStr
  unit : GoStr
  schemaID : GoStr
  dimensions : List Dimension
  deriving DecidableEq

/-- A rule; `material` stands for its prices, tiers and scopes, which resolution does not read. -/
structure RatingRule (μ : Type) where
  id : GoStr
  component : Option ComponentKey
  conditions : List Dimension
  material : μ

/-- A tariff; `header` stands for its identity, currency and schemas. -/
structure TariffSnapshot (η μ : Type) where
  header : η
  rules : List (RatingRule μ)

inductive TariffError
  | invalidHeader
  | invalidRule (id : GoStr)
  | duplicateDimension (name : GoStr)
  | duplicateCondition (name : GoStr)
  | duplicateRule (id : GoStr)
  | overlap (left right : GoStr) (component : ComponentKey)
  | qualifierMissing (names : GoStr)
  | rateMissing (component : ComponentKey)

def findDuplicate : List GoStr → List GoStr → Option GoStr
  | _, [] => none
  | seen, n :: rest => if n ∈ seen then some n else findDuplicate (n :: seen) rest

def refuseDuplicate (names : List GoStr) (e : GoStr → TariffError) : Except TariffError Unit :=
  match findDuplicate [] names with
  | some n => .error (e n)
  | none => .ok ()

/-- The loop of both overlap checks over the second list, with the values of the names that it has
met. -/
def agree : List Dimension → List Dimension → Bool
  | _, [] => true
  | values, d :: rest =>
    match values.find? fun v => v.name = d.name with
    | some prior => if prior.value ≠ d.value then false else agree (d :: values) rest
    | none => agree (d :: values) rest

-- A map keeps the last value of a name, so the first list goes in backwards.
def conditionsOverlap (left right : List Dimension) : Bool := agree left.reverse right

def componentDomainsOverlap (left right : ComponentKey) : Bool :=
  if left.direction ≠ right.direction ∨ left.component ≠ right.component ∨ left.unit ≠ right.unit ∨
      left.schemaID ≠ right.schemaID then false
  else agree left.dimensions.reverse right.dimensions

section Rules

variable {η μ : Type}

def ruleSpecificity (rule : RatingRule μ) : ℕ :=
  match rule.component with
  | none => rule.conditions.length
  | some component => component.dimensions.length + rule.conditions.length

def checkOverlap (rule : RatingRule μ) (component : ComponentKey) (other : RatingRule μ) :
    Except TariffError Unit :=
  match other.component with
  | none => .ok ()
  | some domain =>
    if componentDomainsOverlap component domain = false then .ok ()
    else if conditionsOverlap rule.conditions other.conditions = false then .ok ()
    else if ruleSpecificity rule = ruleSpecificity other then
      .error (.overlap rule.id other.id component)
    else .ok ()

def validateRatingRuleSet : List (RatingRule μ) → Except TariffError Unit
  | [] => .ok ()
  | rule :: rest =>
    match rule.component with
    | none => validateRatingRuleSet rest
    | some component => do
      rest.forM (checkOverlap rule component)
      validateRatingRuleSet rest

-- The checks of a header, and those of a rule that are not about names.
variable (admitsHeader : η → Bool) (admits : RatingRule μ → Bool)

def RatingRule.validate (rule : RatingRule μ) : Except TariffError Unit := do
  reject (admits rule = false) (.invalidRule rule.id)
  refuseDuplicate
    ((rule.component.map ComponentKey.dimensions).getD [] |>.map Dimension.name) .duplicateDimension
  refuseDuplicate (rule.conditions.map Dimension.name) .duplicateCondition

def validateRules : List GoStr → List (RatingRule μ) → Except TariffError Unit
  | _, [] => .ok ()
  | seen, rule :: rest => do
    rule.validate admits
    reject (rule.id ∈ seen) (.duplicateRule rule.id)
    validateRules (rule.id :: seen) rest

def TariffSnapshot.validate (s : TariffSnapshot η μ) : Except TariffError Unit := do
  reject (admitsHeader s.header = false) .invalidHeader
  validateRules admits [] s.rules

def dimensionOrder (d : Dimension) : List ℕ ×ₗ List ℕ := toLex (textOrder d.name, textOrder d.value)

/-- `canonicalBody` for the rules: in the order of their ids, with their conditions in order. -/
def canonicalRules (rules : List (RatingRule μ)) : List (RatingRule μ) :=
  (sortBy (textOrder ∘ RatingRule.id) rules).map fun rule =>
    { rule with conditions := sortBy dimensionOrder rule.conditions }

structure ReferenceRater (μ : Type) where
  rules : List (RatingRule μ)

def newReferenceRater (s : TariffSnapshot η μ) : Except TariffError (ReferenceRater μ) := do
  s.validate admitsHeader admits
  validateRatingRuleSet (canonicalRules s.rules)
  return ⟨canonicalRules s.rules⟩

def ruleComponentMatches (rule measure : ComponentKey) : Bool :=
  if rule.direction ≠ measure.direction ∨ rule.component ≠ measure.component ∨
      rule.unit ≠ measure.unit ∨ rule.schemaID ≠ measure.schemaID then false
  else rule.dimensions.all fun wanted => measure.dimensions.any fun actual =>
    wanted.name = actual.name && wanted.value = actual.value

variable (qualifiers : List Dimension)

def qualifierValue (name : GoStr) : Option GoStr :=
  (qualifiers.reverse.find? fun q => q.name = name).map Dimension.value

def applies (key : ComponentKey) (rule : RatingRule μ) : Bool :=
  match rule.component with
  | none => false
  | some component => ruleComponentMatches component key

def conditionsMatch (rule : RatingRule μ) : Bool :=
  rule.conditions.all fun condition => qualifierValue qualifiers condition.name =
    some condition.value

def missingConditions (rule : RatingRule μ) : List GoStr :=
  (rule.conditions.filter fun condition => qualifierValue qualifiers condition.name = none).map Dimension.name

def pickBest (key : ComponentKey) :
    RatingRule μ → List (RatingRule μ) → Except TariffError (RatingRule μ)
  | best, [] => .ok best
  | best, candidate :: rest =>
    if ruleSpecificity best < ruleSpecificity candidate then pickBest key candidate rest
    else if ruleSpecificity candidate = ruleSpecificity best ∧ candidate.id ≠ best.id then
      .error (.overlap best.id candidate.id key)
    else pickBest key best rest

def sortedKeys (names : List GoStr) : List GoStr := sortBy textOrder names.dedup

/-- The error when no rule is left: the qualifiers that some rule asked for, or else the component.
-/
def noRule (key : ComponentKey) (missing : List GoStr) : TariffError :=
  if missing ≠ [] then .qualifierMissing (join (lit ",") (sortedKeys missing)) else .rateMissing key

def resolveRule (rules : List (RatingRule μ)) (key : ComponentKey) (qualifiers : List Dimension) :
    Except TariffError (RatingRule μ) :=
  match rules.filter fun rule => applies key rule && conditionsMatch qualifiers rule with
  | best :: rest => pickBest key best rest
  | [] => .error (noRule key ((rules.filter (applies key)).flatMap (missingConditions qualifiers)))

end Rules

open List

def DistinctNames (xs : List Dimension) : Prop := (xs.map Dimension.name).Nodup
  deriving Decidable

variable {xs : List Dimension} {d : Dimension}

lemma DistinctNames.eq (h : DistinctNames xs) {e : Dimension} (hd : d ∈ xs) (he : e ∈ xs)
    (hname : d.name = e.name) : d = e := eq_of_key_of_nodup h d hd e he hname

lemma DistinctNames.find (h : DistinctNames xs) {n : GoStr} :
    (xs.find? fun x => x.name = n) = some d ↔ d ∈ xs ∧ d.name = n := by
  constructor
  · intro hfind
    exact ⟨mem_of_find?_eq_some hfind, by simpa using find?_some hfind⟩
  · rintro ⟨hd, rfl⟩
    cases hfind : xs.find? fun x => x.name = d.name with
    | none => exact absurd (find?_eq_none.mp hfind d hd) (by simp)
    | some e =>
      rw [h.eq (mem_of_find?_eq_some hfind) hd (by simpa using find?_some hfind)]

lemma DistinctNames.reverse (h : DistinctNames xs) : DistinctNames xs.reverse := by
  unfold DistinctNames
  rw [map_reverse]
  exact nodup_reverse.mpr h

lemma agree_iff {values right : List Dimension} (hright : DistinctNames right) :
    agree values right ↔
      ∀ d ∈ right, ∀ prior, (values.find? fun v => v.name = d.name) = some prior →
      prior.value = d.value := by
  induction right generalizing values with
  | nil => simp [agree]
  | cons d rest ih =>
    obtain ⟨hnew, hrest⟩ := nodup_cons.mp hright
    -- The value of `d` is met by no later name.
    have hlater : ∀ e ∈ rest, ((d :: values).find? fun v => v.name = e.name) = values.find?
        fun v => v.name = e.name := by
      intro e he
      rw [find?_cons_of_neg]
      rw [decide_eq_true_eq]
      exact fun hname => hnew (hname ▸ mem_map_of_mem he)
    have hih : agree (d :: values) rest ↔
        ∀ e ∈ rest, ∀ prior, (values.find? fun v => v.name = e.name) = some prior →
        prior.value = e.value := by
      rw [ih hrest]
      exact forall₂_congr fun e he => by rw [hlater e he]
    rw [forall_mem_cons]
    unfold agree
    cases hfind : values.find? fun v => v.name = d.name with
    | none => simp [hih]
    | some prior =>
      by_cases hvalue : prior.value = d.value
      · simp [hih]
      · simp [hvalue]

variable {left right : List Dimension}

lemma agree_reverse_iff (hleft : DistinctNames left) (hright : DistinctNames right) :
    agree left.reverse right ↔ ∀ d ∈ left, ∀ e ∈ right, d.name = e.name → d.value = e.value := by
  rw [agree_iff hright]
  simp only [hleft.reverse.find, mem_reverse]
  exact ⟨fun h d hd e he hname => h e he d ⟨hd, hname⟩, fun h e he d hd => h d hd.1 e he hd.2⟩

def union (left right : List Dimension) : List Dimension :=
  left ++ right.filter fun d => d.name ∉ left.map Dimension.name

lemma union_distinct (hleft : DistinctNames left) (hright : DistinctNames right) :
    DistinctNames (union left right) := by
  unfold union DistinctNames
  rw [map_append, nodup_append]
  refine ⟨hleft, hright.sublist (filter_sublist.map _), ?_⟩
  rintro n hn m hm rfl
  obtain ⟨d, hd, rfl⟩ := mem_map.mp hm
  exact of_decide_eq_true (mem_filter.mp hd).2 hn

lemma subset_union (h : ∀ d ∈ left, ∀ e ∈ right, d.name = e.name → d.value = e.value) :
    (∀ d ∈ left, d ∈ union left right) ∧ ∀ e ∈ right, e ∈ union left right := by
  refine ⟨fun d hd => mem_append_left _ hd, fun e he => ?_⟩
  by_cases hname : e.name ∈ left.map Dimension.name
  · obtain ⟨d, hd, hsame⟩ := mem_map.mp hname
    have hvalue := h d hd e he hsame
    have heq : d = e := by
      rw [Dimension.mk.injEq]
      exact ⟨hsame, hvalue⟩
    exact mem_append_left _ (heq ▸ hd)
  · exact mem_append_right _ (mem_filter.mpr ⟨he, decide_eq_true hname⟩)

lemma ruleComponentMatches_iff {rule measure : ComponentKey} : ruleComponentMatches rule measure ↔
      (rule.direction = measure.direction ∧ rule.component = measure.component ∧ rule.unit = measure.unit ∧
        rule.schemaID = measure.schemaID) ∧ ∀ d ∈ rule.dimensions, d ∈ measure.dimensions := by
  have hany : ∀ d : Dimension, (measure.dimensions.any fun actual =>
      decide (d.name = actual.name) && decide (d.value = actual.value)) = true ↔
        d ∈ measure.dimensions := by
    intro d
    rw [any_eq_true]
    constructor
    · rintro ⟨actual, hactual, hsame⟩
      rw [Bool.and_eq_true, decide_eq_true_eq, decide_eq_true_eq] at hsame
      have heq : d = actual := by
        rw [Dimension.mk.injEq]
        exact hsame
      exact heq ▸ hactual
    · exact fun hd => ⟨d, hd, by simp⟩
  unfold ruleComponentMatches
  split_ifs with hheader
  · simp only [false_iff]
    rintro ⟨⟨h1, h2, h3, h4⟩, -⟩
    exact hheader.elim (· h1) fun h => h.elim (· h2) fun h => h.elim (· h3) (· h4)
  · simp only [not_or, not_not] at hheader
    rw [all_eq_true]
    simp [hany, hheader]

lemma componentDomainsOverlap_iff {left right : ComponentKey}
    (hleft : DistinctNames left.dimensions) (hright : DistinctNames right.dimensions) :
    componentDomainsOverlap left right ↔ ∃ key : ComponentKey, DistinctNames key.dimensions ∧
      ruleComponentMatches left key ∧ ruleComponentMatches right key := by
  simp only [ruleComponentMatches_iff]
  unfold componentDomainsOverlap
  split_ifs with hheader
  · simp only [false_iff]
    rintro ⟨key, -, ⟨⟨h1, h2, h3, h4⟩, -⟩, ⟨⟨h1', h2', h3', h4'⟩, -⟩⟩
    exact hheader.elim (· (h1.trans h1'.symm)) fun h => h.elim (· (h2.trans h2'.symm)) fun h =>
      h.elim (· (h3.trans h3'.symm)) (· (h4.trans h4'.symm))
  · simp only [not_or, not_not] at hheader
    rw [agree_reverse_iff hleft hright]
    constructor
    · intro hagree
      obtain ⟨hsubLeft, hsubRight⟩ := subset_union hagree
      exact ⟨{ left with dimensions := union left.dimensions right.dimensions },
        union_distinct hleft hright, ⟨⟨rfl, rfl, rfl, rfl⟩, hsubLeft⟩,
        ⟨⟨hheader.1.symm, hheader.2.1.symm, hheader.2.2.1.symm, hheader.2.2.2.symm⟩, hsubRight⟩⟩
    · rintro ⟨key, hkey, ⟨-, hsubLeft⟩, ⟨-, hsubRight⟩⟩ d hd e he hname
      rw [hkey.eq (hsubLeft d hd) (hsubRight e he) hname]

def Meets (qualifiers conditions : List Dimension) : Prop :=
  ∀ c ∈ conditions, qualifierValue qualifiers c.name = some c.value

lemma conditionsOverlap_iff (hleft : DistinctNames left) (hright : DistinctNames right) :
    conditionsOverlap left right ↔ ∃ qualifiers, Meets qualifiers left ∧
    Meets qualifiers right := by
  unfold conditionsOverlap
  rw [agree_reverse_iff hleft hright]
  constructor
  · intro hagree
    obtain ⟨hsubLeft, hsubRight⟩ := subset_union hagree
    have hvalue :
        ∀ d ∈ union left right, qualifierValue (union left right) d.name = some d.value := by
      intro d hd
      unfold qualifierValue
      rw [((union_distinct hleft hright).reverse.find).mpr ⟨mem_reverse.mpr hd, rfl⟩]
      rfl
    exact ⟨union left right, fun c hc => hvalue c (hsubLeft c hc), fun c hc => hvalue c (hsubRight c hc)⟩
  · rintro ⟨qualifiers, hmeetsLeft, hmeetsRight⟩ d hd e he hname
    have hd := hmeetsLeft d hd
    rw [hname, hmeetsRight e he] at hd
    exact (Option.some.inj hd).symm

section Rules

variable {η μ : Type}

def Matches (rule : RatingRule μ) (key : ComponentKey) (qualifiers : List Dimension) : Prop :=
  ∃ component, rule.component = some component ∧ ruleComponentMatches component key ∧
    Meets qualifiers rule.conditions

structure WellNamed (rule : RatingRule μ) : Prop where
  dimensions : ∀ component, rule.component = some component → DistinctNames component.dimensions
  conditions : DistinctNames rule.conditions

def Clash (a b : RatingRule μ) : Prop :=
  ruleSpecificity a = ruleSpecificity b ∧
    ∃ key qualifiers, DistinctNames key.dimensions ∧ Matches a key qualifiers ∧
    Matches b key qualifiers

lemma Clash.symm {a b : RatingRule μ} (h : Clash a b) : Clash b a := by
  obtain ⟨hspecificity, key, qualifiers, hkey, ha, hb⟩ := h
  exact ⟨hspecificity.symm, key, qualifiers, hkey, hb, ha⟩

lemma checkOverlap_iff {a b : RatingRule μ} {component : ComponentKey}
    (hcomponent : a.component = some component)
    (ha : WellNamed a) (hb : WellNamed b) : checkOverlap a component b = .ok () ↔ ¬ Clash a b := by
  unfold checkOverlap
  cases hother : b.component with
  | none =>
    simp only [true_iff]
    rintro ⟨-, key, qualifiers, -, -, ⟨domain, hdomain, -⟩⟩
    rw [hother] at hdomain
    cases hdomain
  | some domain =>
    have hdomains := componentDomainsOverlap_iff (ha.dimensions component hcomponent)
      (hb.dimensions domain hother)
    have hconditions := conditionsOverlap_iff ha.conditions hb.conditions
    have hclash : Clash a b ↔ ruleSpecificity a = ruleSpecificity b ∧
        componentDomainsOverlap component domain = true ∧
        conditionsOverlap a.conditions b.conditions = true := by
      unfold Clash Matches
      rw [hdomains, hconditions, hcomponent, hother]
      constructor
      · rintro ⟨hspecificity, key, qualifiers, hkey, ⟨_, ⟨⟩, hma, hqa⟩, ⟨_, ⟨⟩, hmb, hqb⟩⟩
        exact ⟨hspecificity, ⟨key, hkey, hma, hmb⟩, ⟨qualifiers, hqa, hqb⟩⟩
      · rintro ⟨hspecificity, ⟨key, hkey, hma, hmb⟩, ⟨qualifiers, hqa, hqb⟩⟩
        exact ⟨hspecificity, key, qualifiers, hkey, ⟨_, rfl, hma, hqa⟩, ⟨_, rfl, hmb, hqb⟩⟩
    split_ifs with h1 h2 <;> simp_all

variable {rules rules' : List (RatingRule μ)} {rule : RatingRule μ} {names seen : List GoStr}

lemma validateRatingRuleSet_iff (hnames : ∀ rule ∈ rules, WellNamed rule) :
    validateRatingRuleSet rules = .ok () ↔ rules.Pairwise fun a b => ¬ Clash a b := by
  induction rules with
  | nil => simp [validateRatingRuleSet]
  | cons rule rest ih =>
    obtain ⟨hrule, hrest⟩ := forall_mem_cons.mp hnames
    unfold validateRatingRuleSet
    rw [pairwise_cons, ← ih hrest]
    cases hcomponent : rule.component with
    | none =>
      have hfree : ∀ b ∈ rest, ¬ Clash rule b := by
        rintro b - ⟨-, key, qualifiers, -, ⟨component, hsome, -⟩, -⟩
        rw [hcomponent] at hsome
        cases hsome
      exact ⟨fun h => ⟨hfree, h⟩, fun h => h.2⟩
    | some component =>
      simp only [seq_eq_ok, forM_eq_ok]
      exact and_congr_left fun _ => forall₂_congr fun b hb => checkOverlap_iff hcomponent hrule (hrest b hb)

structure Published (rules : List (RatingRule μ)) : Prop where
  names : ∀ rule ∈ rules, WellNamed rule
  ids : (rules.map RatingRule.id).Nodup
  noClash : ∀ a ∈ rules, ∀ b ∈ rules, a ≠ b → ¬ Clash a b

lemma validateRatingRuleSet_published (hnames : ∀ rule ∈ rules, WellNamed rule)
    (hids : (rules.map RatingRule.id).Nodup) :
    validateRatingRuleSet rules = .ok () ↔ ∀ a ∈ rules, ∀ b ∈ rules, a ≠ b → ¬ Clash a b := by
  rw [validateRatingRuleSet_iff hnames]
  have hsymm : Std.Symm fun a b : RatingRule μ => ¬ Clash a b :=
    ⟨fun _ _ hnot hclash => hnot hclash.symm⟩
  exact ⟨fun h a ha b hb hne => h.forall ha hb hne, fun h => hids.of_map.pairwise_of_forall_ne h⟩

lemma Published.perm (h : Published rules) (hperm : rules.Perm rules') : Published rules' where
  names rule hrule := h.names rule (hperm.mem_iff.mpr hrule)
  ids := (hperm.map _).nodup_iff.mp h.ids
  noClash a ha b hb := h.noClash a (hperm.mem_iff.mpr ha) b (hperm.mem_iff.mpr hb)

lemma mem_candidates {key : ComponentKey} {qualifiers : List Dimension} :
    (rule ∈ rules.filter fun rule => applies key rule && conditionsMatch qualifiers rule) ↔
      rule ∈ rules ∧ Matches rule key qualifiers := by
  rw [mem_filter]
  unfold applies conditionsMatch Matches Meets
  cases rule.component <;> simp

lemma pickBest_ok (key : ComponentKey) {best : RatingRule μ} {rest : List (RatingRule μ)}
    (h : ∀ a ∈ best :: rest, ∀ b ∈ best :: rest, ruleSpecificity a = ruleSpecificity b → a = b) :
    ∃ found ∈ best :: rest, pickBest key best rest = .ok found ∧
      ∀ rule ∈ best :: rest, ruleSpecificity rule ≤ ruleSpecificity found := by
  induction rest generalizing best with
  | nil => exact ⟨best, mem_cons_self, rfl, by simp⟩
  | cons candidate rest ih =>
    obtain ⟨hbest, hcandidate⟩ : (∀ a ∈ best :: rest, a ∈ best :: candidate :: rest) ∧
        ∀ a ∈ candidate :: rest, a ∈ best :: candidate :: rest := by
      refine ⟨fun a ha => ?_, fun a ha => mem_cons_of_mem _ ha⟩
      rcases mem_cons.mp ha with rfl | ha
      · exact mem_cons_self
      · exact mem_cons_of_mem _ (mem_cons_of_mem _ ha)
    unfold pickBest
    split_ifs with hless hequal
    · obtain ⟨found, hfound, hpick, hmax⟩ :=
        ih fun a ha b hb => h a (hcandidate a ha) b (hcandidate b hb)
      refine ⟨found, hcandidate found hfound, hpick, forall_mem_cons.mpr ⟨?_, hmax⟩⟩
      exact hless.le.trans (hmax candidate mem_cons_self)
    · exact absurd (congrArg RatingRule.id (h candidate (by simp) best (by simp) hequal.1)) hequal.2
    · obtain ⟨found, hfound, hpick, hmax⟩ := ih fun a ha b hb => h a (hbest a ha) b (hbest b hb)
      obtain ⟨hmaxBest, hmaxRest⟩ := forall_mem_cons.mp hmax
      refine ⟨found, hbest found hfound, hpick, ?_⟩
      rw [forall_mem_cons, forall_mem_cons]
      exact ⟨hmaxBest, (Nat.le_of_not_lt hless).trans hmaxBest, hmaxRest⟩

section Resolve

variable {rules : List (RatingRule μ)} {key : ComponentKey} {qualifiers : List Dimension}

lemma resolveRule_best (h : Published rules) (hkey : DistinctNames key.dimensions)
    (hsome : ∃ rule ∈ rules, Matches rule key qualifiers) :
    ∃ best ∈ rules, Matches best key qualifiers ∧ resolveRule rules key qualifiers = .ok best ∧
      ∀ rule ∈ rules, Matches rule key qualifiers → rule ≠ best →
      ruleSpecificity rule < ruleSpecificity best := by
  obtain ⟨rule, hrule, hmatches⟩ := hsome
  have hcandidate := mem_candidates.mpr ⟨hrule, hmatches⟩
  obtain ⟨first, rest, hlist⟩ := exists_cons_of_ne_nil (ne_nil_of_mem hcandidate)
  have hmem : ∀ a, a ∈ first :: rest ↔ a ∈ rules ∧ Matches a key qualifiers := by
    intro a
    rw [← hlist, mem_candidates]
  -- Two candidates of equal specificity would clash.
  have hunique :
      ∀ a ∈ first :: rest, ∀ b ∈ first :: rest, ruleSpecificity a = ruleSpecificity b → a = b := by
    intro a ha b hb hspecificity
    obtain ⟨ha, hma⟩ := (hmem a).mp ha
    obtain ⟨hb, hmb⟩ := (hmem b).mp hb
    by_contra hne
    exact h.noClash a ha b hb hne ⟨hspecificity, key, qualifiers, hkey, hma, hmb⟩
  obtain ⟨best, hbest, hpick, hmax⟩ := pickBest_ok key hunique
  refine ⟨best, ((hmem best).mp hbest).1, ((hmem best).mp hbest).2, ?_, fun a ha hma hne => ?_⟩
  · unfold resolveRule
    rw [hlist]
    exact hpick
  · have hmemA := (hmem a).mpr ⟨ha, hma⟩
    exact lt_of_le_of_ne (hmax a hmemA) fun heq => hne (hunique a hmemA best hbest heq)

lemma resolveRule_none (hnone : ¬ ∃ rule ∈ rules, Matches rule key qualifiers) :
    resolveRule rules key qualifiers =
      .error (noRule key ((rules.filter (applies key)).flatMap (missingConditions qualifiers))) := by
  have hempty :
      (rules.filter fun rule => applies key rule && conditionsMatch qualifiers rule) = [] := by
    refine eq_nil_iff_forall_not_mem.mpr fun rule hrule => ?_
    exact hnone ⟨rule, mem_candidates.mp hrule⟩
  unfold resolveRule
  rw [hempty]

lemma noRule_perm {missing missing' : List GoStr} (h : missing.Perm missing') :
    noRule key missing = noRule key missing' := by
  have hkeys : sortedKeys missing = sortedKeys missing' :=
    sortBy_eq_of_perm h.dedup fun _ _ _ _ heq => textOrder_injective heq
  by_cases hempty : missing = []
  · rw [hempty] at h ⊢
    rw [h.nil_eq]
  · unfold noRule
    rw [if_pos hempty, if_pos fun hnil => hempty (hnil ▸ h).eq_nil, hkeys]

lemma resolveRule_perm (h : Published rules) (hkey : DistinctNames key.dimensions)
    (hperm : rules.Perm rules') :
    resolveRule rules' key qualifiers = resolveRule rules key qualifiers := by
  have hiff : (∃ rule ∈ rules', Matches rule key qualifiers) ↔
      ∃ rule ∈ rules, Matches rule key qualifiers := by
    simp only [hperm.mem_iff]
  by_cases hsome : ∃ rule ∈ rules, Matches rule key qualifiers
  · obtain ⟨best, hbest, hmatches, hresolve, hmax⟩ := resolveRule_best h hkey hsome
    obtain ⟨best', hbest', hmatches', hresolve', hmax'⟩ :=
      resolveRule_best (h.perm hperm) hkey (hiff.mpr hsome)
    rw [hresolve, hresolve']
    by_contra hne
    have hne : best' ≠ best := fun heq => hne (congrArg Except.ok heq)
    have hlt := hmax best' (hperm.mem_iff.mpr hbest') hmatches' hne
    have hlt' := hmax' best (hperm.mem_iff.mp hbest) hmatches hne.symm
    omega
  · have hmissing : ((rules.filter (applies key)).flatMap (missingConditions qualifiers)).Perm
        ((rules'.filter (applies key)).flatMap (missingConditions qualifiers)) :=
      (hperm.filter _).flatMap_right _
    rw [resolveRule_none hsome, resolveRule_none (hiff.not.mpr hsome), noRule_perm hmissing]

end Resolve

lemma refuseDuplicate_eq_ok {e : GoStr → TariffError} :
    refuseDuplicate names e = .ok () ↔ names.Nodup := by
  have hcons (seen : List GoStr) (n rest) :
      findDuplicate seen (n :: rest) = none ↔ True ∧ n ∉ seen ∧
      findDuplicate (n :: seen) rest = none := by
    rw [findDuplicate]
    split_ifs <;> simp_all
  have hnone := walk_iff findDuplicate id id (fun seen n => n :: seen) (fun _ _ => rfl)
    (fun _ => rfl) hcons [] names
  unfold refuseDuplicate
  split <;> simp_all

lemma RatingRule.validate_wellNamed {admits : RatingRule μ → Bool}
    (h : rule.validate admits = .ok ()) : WellNamed rule := by
  unfold RatingRule.validate at h
  simp only [seq_eq_ok, refuseDuplicate_eq_ok] at h
  obtain ⟨-, hdimensions, hconditions⟩ := h
  refine ⟨fun component hcomponent => ?_, hconditions⟩
  rw [hcomponent] at hdimensions
  exact hdimensions

lemma validateRules_iff {admits : RatingRule μ → Bool} :
    validateRules admits seen rules = .ok () ↔
      (∀ rule ∈ rules, rule.validate admits = .ok () ∧ rule.id ∉ seen) ∧
      (rules.map RatingRule.id).Nodup := by
  refine walk_iff (validateRules admits) RatingRule.id id (fun seen rule => rule.id :: seen)
    (fun _ _ => rfl) (fun _ => rfl) (fun seen rule rest => ?_) seen rules
  simp only [validateRules, seq_eq_ok, reject_eq_ok, id]

lemma canonicalRules_names (hnames : ∀ rule ∈ rules, WellNamed rule)
    (hids : (rules.map RatingRule.id).Nodup) :
    (∀ rule ∈ canonicalRules rules, WellNamed rule) ∧
    ((canonicalRules rules).map RatingRule.id).Nodup ∧
      ∀ rules', rules'.Perm rules → canonicalRules rules' = canonicalRules rules := by
  have hsorted := sortBy_perm (textOrder ∘ RatingRule.id) rules
  refine ⟨fun rule hrule => ?_, ?_, fun rules' hperm => ?_⟩
  · obtain ⟨r, hr, rfl⟩ := mem_map.mp hrule
    have hr := hnames r (mem_sortBy.mp hr)
    exact ⟨hr.dimensions, ((sortBy_perm dimensionOrder r.conditions).map _).nodup_iff.mpr hr.conditions⟩
  · unfold canonicalRules
    rw [map_map]
    exact (hsorted.map RatingRule.id).nodup_iff.mpr hids
  · have hsort :
        sortBy (textOrder ∘ RatingRule.id) rules = sortBy (textOrder ∘ RatingRule.id) rules' :=
      sortBy_eq_of_perm hperm.symm fun a ha b hb hkey =>
        eq_of_key_of_nodup hids a ha b hb (textOrder_injective hkey)
    unfold canonicalRules
    rw [hsort]

section Rater

variable {admitsHeader : η → Bool} {admits : RatingRule μ → Bool}

lemma newReferenceRater_ok {s : TariffSnapshot η μ} {rater : ReferenceRater μ}
    (h : newReferenceRater admitsHeader admits s = .ok rater) :
    Published rater.rules ∧ ∀ rules', rules'.Perm s.rules →
      newReferenceRater admitsHeader admits { s with rules := rules' } = .ok rater := by
  unfold newReferenceRater TariffSnapshot.validate at h ⊢
  simp only [seq_eq_ok, validateRules_iff] at h ⊢
  obtain ⟨⟨hheader, hrules, hids⟩, hset, h⟩ := h
  cases h
  have hnames : ∀ rule ∈ s.rules, WellNamed rule :=
    fun rule hrule => RatingRule.validate_wellNamed (hrules rule hrule).1
  obtain ⟨hcanonical, hcanonicalIds, horder⟩ := canonicalRules_names hnames hids
  refine ⟨⟨hcanonical, hcanonicalIds, (validateRatingRuleSet_published hcanonical hcanonicalIds).mp hset⟩,
    fun rules' hperm => ⟨⟨hheader, fun rule hrule => hrules rule (hperm.mem_iff.mp hrule), ?_⟩, ?_, ?_⟩⟩
  · exact (hperm.map _).nodup_iff.mpr hids
  · rw [horder rules' hperm]
    exact hset
  · rw [horder rules' hperm]
    rfl

end Rater

/-- Publication decides the resolution of rules. Well-named rules with different ids pass the check
just when no component and no qualifiers are met by two of them of equal specificity. A rater
therefore never finds an overlap, returns the unique matching rule of greatest specificity when some
rule matches, and does not depend on the order of the rules. -/
theorem published_rules_resolve (admitsHeader : η → Bool) (admits : RatingRule μ → Bool) :
    (∀ rules : List (RatingRule μ), (∀ rule ∈ rules, WellNamed rule) →
      (rules.map RatingRule.id).Nodup → (validateRatingRuleSet rules = .ok () ↔
        ¬ ∃ (key : ComponentKey) (qualifiers : List Dimension), DistinctNames key.dimensions ∧
          ∃ a ∈ rules, ∃ b ∈ rules, a ≠ b ∧ ruleSpecificity a = ruleSpecificity b ∧
            Matches a key qualifiers ∧ Matches b key qualifiers)) ∧
    ∀ (s : TariffSnapshot η μ)
    (rater : ReferenceRater μ), newReferenceRater admitsHeader admits s = .ok rater →
      ∀ key : ComponentKey, DistinctNames key.dimensions → ∀ qualifiers : List Dimension,
      (∀ left right component, resolveRule rater.rules key qualifiers ≠ .error (.overlap left right component)) ∧
      ((∃ rule ∈ rater.rules, Matches rule key qualifiers) →
        ∃ best ∈ rater.rules, Matches best key qualifiers ∧
        resolveRule rater.rules key qualifiers = .ok best ∧
          ∀ rule ∈ rater.rules, Matches rule key qualifiers → rule ≠ best →
            ruleSpecificity rule < ruleSpecificity best) ∧
      (∀ rules', rules'.Perm rater.rules → resolveRule rules' key qualifiers = resolveRule rater.rules key qualifiers) ∧
      ∀ rules', rules'.Perm s.rules →
      newReferenceRater admitsHeader admits { s with rules := rules' } = .ok rater := by
  refine ⟨fun rules hnames hids => ?_, fun s rater h key hkey qualifiers => ?_⟩
  · rw [validateRatingRuleSet_published hnames hids]
    constructor
    · rintro hfree ⟨key, qualifiers, hkey, a, ha, b, hb, hne, hspecificity, hma, hmb⟩
      exact hfree a ha b hb hne ⟨hspecificity, key, qualifiers, hkey, hma, hmb⟩
    · rintro hfree a ha b hb hne ⟨hspecificity, key, qualifiers, hkey, hma, hmb⟩
      exact hfree ⟨key, qualifiers, hkey, a, ha, b, hb, hne, hspecificity, hma, hmb⟩
  · obtain ⟨hpublished, horder⟩ := newReferenceRater_ok h
    refine ⟨fun left right component => ?_, resolveRule_best hpublished hkey, fun rules' hperm => ?_, horder⟩
    · by_cases hsome : ∃ rule ∈ rater.rules, Matches rule key qualifiers
      · obtain ⟨best, -, -, hresolve, -⟩ := resolveRule_best hpublished hkey hsome
        rw [hresolve]
        exact nofun
      · rw [resolveRule_none hsome]
        unfold noRule
        split_ifs <;> simp
    · exact resolveRule_perm hpublished hkey hperm.symm

def inputTokens (dimensions : List Dimension) : ComponentKey :=
  ⟨.input, lit "input_token", lit "token", [], dimensions⟩

def regionalTariff : TariffSnapshot Unit ℕ where
  header := ()
  rules := [⟨lit "regional", some (inputTokens [⟨lit "region", lit "eu"⟩]), [], 2⟩,
    ⟨lit "base", some (inputTokens []), [], 1⟩]

theorem published_rules_resolve_regional :
    ∃ rater, newReferenceRater (fun _ => true) (fun _ => true) regionalTariff = .ok rater ∧
      (resolveRule rater.rules (inputTokens [⟨lit "region", lit "eu"⟩]) []).toOption.map (·.material) = some 2 ∧
      ∀ left right component,
        resolveRule rater.rules (inputTokens [⟨lit "region", lit "eu"⟩])
        [] ≠ .error (.overlap left right component) := by
  refine ⟨⟨canonicalRules regionalTariff.rules⟩, ?accepted, by decide,
    ((published_rules_resolve _ _).2 regionalTariff _ ?accepted _ (by decide) []).1⟩
  rfl

end Rules

end InteractiveProxy.Billing
