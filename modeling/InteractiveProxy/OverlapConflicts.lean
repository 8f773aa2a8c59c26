import InteractiveProxy.CompleteCovers

/-! Charges that overlap: two components of a scope that carry money, one of them inside the other
by the declared inclusions. The pairs come from the closure of the compiled graph, walked in both
directions from the lower number. -/
namespace InteractiveProxy.Billing

open GoText GuardedRun KeySort Metering GraphWalk Relation List

inductive ComponentLineRelation
  | provenDisjoint
  | definiteOverlap
  | unknownIntersection
  deriving DecidableEq

section Scope

variable (program : SchemaProgram)

/-- The components inside a component. The source keeps each walk for the scope; asked again, it is
the same. -/
def descendantsOf (node : ℕ) : List ℕ :=
  reachable program.containmentChildren (range program.count) node

def ancestorsOf (node : ℕ) : List ℕ :=
  reachable program.reverseContainment (range program.count) node

def contains (container contained : ℕ) : Bool := contained ∈ descendantsOf program container

def sharesAncestor (a b : ℕ) : Bool :=
  (range program.count).any fun node => node ∈ ancestorsOf program a && node ∈ ancestorsOf program b

def inBranch (region child : ℕ) : Bool := child = region || contains program child region

def branchOf (parent region : ℕ) : Option ℕ :=
  (program.completeIDs parent).find? (inBranch program region)

def partitionSeparates (cover : CompleteCoverVerdict) (a b : ℕ) : Bool :=
  program.coverParents.any fun parent =>
    cover.resolved parent && 2 ≤ (program.completeIDs parent).length &&
      match branchOf program parent a, branchOf program parent b with
      | some branchA, some branchB => branchA ≠ branchB
      | _, _ => false

def classifySupportRelation (cover : CompleteCoverVerdict) (a b : ℕ) : ComponentLineRelation :=
  if a = b then .provenDisjoint
  else if contains program a b then .definiteOverlap
  else if contains program b a then .definiteOverlap
  else if sharesAncestor program a b = false then .provenDisjoint
  else if partitionSeparates program cover a b then .provenDisjoint
  else .unknownIntersection

def shadowPositiveContributors (payable : List GoStr) : List ℕ :=
  (range program.count).filter fun node => program.keyString node ∈ payable

def overlapCandidates (positive : List ℕ) (lower : ℕ) : List ℕ :=
  sortBy id ((descendantsOf program lower ++ ancestorsOf program lower).filter fun candidate =>
    lower < candidate && candidate ∈ positive)

end Scope

/-- `ErrSchemaOverlapConflict` with what its text quotes. -/
inductive SchemaOverlap
  | includes (container contained : GoStr) (direction : FlowDirection) (unit : GoStr)
  | pricedSubset (parent subset : GoStr) (descendants : List GoStr) (direction : FlowDirection)
    (unit : GoStr)

structure OverlapAnalysis where
  conflicts : List (GoStr × GoStr) := []
  err : Option SchemaOverlap := none

section Analysis

variable (table : PrintTable) (program : SchemaProgram)

def overlapError (container contained : ℕ) : SchemaOverlap :=
  .includes (program.keyString container) (program.keyString contained)
    (program.key container).direction (program.key container).unit

def recordPair (cover : CompleteCoverVerdict) (scope : GoStr) (head : ℕ) (acc : OverlapAnalysis)
    (tail : ℕ) : OverlapAnalysis :=
  if classifySupportRelation program cover head tail ≠ .definiteOverlap then acc
  else
    let (container, contained) := if contains program head tail then (head, tail) else (tail, head)
    { conflicts := acc.conflicts ++ [(scope, program.keyString container), (scope, program.keyString contained)]
      err := acc.err.or (some (overlapError program container contained)) }

def recordHead (cover : CompleteCoverVerdict) (scope : GoStr) (positive : List ℕ)
    (acc : OverlapAnalysis) (head : ℕ) : OverlapAnalysis :=
  (overlapCandidates program positive head).foldl (recordPair program cover scope head) acc

def textsOf (byScope : List (GoStr × GoStr)) (scope : GoStr) : List GoStr :=
  (byScope.filter fun entry => entry.1 = scope).map Prod.snd

def recordScope (payable : List (GoStr × GoStr)) (evidence : List AggregateMeasure)
    (acc : OverlapAnalysis) (scope : GoStr) : OverlapAnalysis :=
  let positive := shadowPositiveContributors program (textsOf payable scope)
  if positive.length < 2 then acc
  else
    let cover :=
      resolveCompleteCovers table program (evidence.filter fun item => item.scopeKey = scope)
    positive.dropLast.foldl (recordHead program cover scope positive) acc

def sortedScopeKeys (byScope : List (GoStr × GoStr)) : List GoStr :=
  sortedTexts (byScope.map Prod.fst)

/-- `overlappingSchemaInclusionConflicts`. The commercial passes, which run after the structural one
and share its record, are given by what they record and by their first error. -/
def overlappingSchemaInclusionConflicts (payable rateable : List (GoStr × GoStr))
    (evidence : List AggregateMeasure) (commercial : OverlapAnalysis) : OverlapAnalysis :=
  if payable = [] ∧ rateable = [] then {}
  else
    let structural :=
      (sortedScopeKeys payable).foldl (recordScope table program payable evidence) {}
    { conflicts := structural.conflicts ++ commercial.conflicts, err := structural.err.or commercial.err }

end Analysis

section Closure

variable {program : SchemaProgram}

def Overlaps (program : SchemaProgram) (a b : ℕ) : Prop :=
  Below program.containmentChildren a b ∨ Below program.containmentChildren b a

variable {a b : ℕ}

lemma Overlaps.symm (h : Overlaps program a b) : Overlaps program b a := Or.symm h

section

variable (hwf : program.WellFormed)
include hwf

lemma below_lt (h : Below program.containmentChildren a b) :
    a < program.count ∧ b < program.count := by
  induction h with
  | single hc => exact hwf.contained_lt hc
  | tail _ hc ih => exact ⟨ih.1, (hwf.contained_lt hc).2⟩

lemma overlaps_lt (h : Overlaps program a b) : a < program.count ∧ b < program.count :=
  h.elim (below_lt hwf) fun h => (below_lt hwf h).symm

lemma not_below_self (a : ℕ) : ¬ Below program.containmentChildren a a := by
  obtain ⟨rank, hrank⟩ := hwf.ordered.exists_rank
  have hchild : ∀ {n c}, c ∈ program.containmentChildren n → rank c < rank n := fun hc =>
    (hrank _ (hwf.topo_perm.mem_iff.mpr (mem_range.mpr (hwf.contained_lt hc).1))).2 _ hc
  have hless : ∀ {b}, Below program.containmentChildren a b → rank b < rank a := by
    intro b h
    induction h with
    | single hc => exact hchild hc
    | tail _ hc ih => exact (hchild hc).trans ih
  exact fun h => lt_irrefl _ (hless h)

lemma overlaps_ne (h : Overlaps program a b) : a ≠ b := by
  rintro rfl
  exact h.elim (not_below_self hwf a) (not_below_self hwf a)

lemma mem_descendantsOf : b ∈ descendantsOf program a ↔ Below program.containmentChildren a b :=
  mem_reachable (fun _ _ _ hc => mem_range.mpr (hwf.contained_lt hc).2)
    fun _ hc => mem_range.mpr (hwf.contained_lt hc).2

lemma mem_ancestorsOf : b ∈ ancestorsOf program a ↔ Below program.containmentChildren b a := by
  have hparent : ∀ {n c}, n ∈ program.reverseContainment c → n ∈ range program.count :=
    fun hn => mem_range.mpr (hwf.contained_lt (hwf.mem_reverse.mp hn)).1
  have hwalk : b ∈ ancestorsOf program a ↔ Below program.reverseContainment a b :=
    mem_reachable (fun _ _ _ hn => hparent hn) fun _ hn => hparent hn
  rw [hwalk]
  unfold Below
  rw [← transGen_swap]
  refine ⟨TransGen.mono (fun n c hc => ?_) _ _, TransGen.mono (fun n c hc => ?_) _ _⟩
  · exact hwf.mem_reverse.mp hc
  · exact hwf.mem_reverse.mpr hc

lemma classifySupportRelation_eq_overlap (cover : CompleteCoverVerdict) :
    classifySupportRelation program cover a b = .definiteOverlap ↔ Overlaps program a b := by
  have hcontains : ∀ a b, contains program a b ↔ Below program.containmentChildren a b :=
    fun a b => decide_eq_true_iff.trans (mem_descendantsOf hwf)
  unfold classifySupportRelation Overlaps
  split_ifs with heq hab hba hshare hsep
  · exact iff_of_false (by decide) fun h => overlaps_ne hwf h heq
  · exact iff_of_true rfl (.inl ((hcontains a b).mp hab))
  · exact iff_of_true rfl (.inr ((hcontains b a).mp hba))
  all_goals
    refine iff_of_false (by decide) ?_
    rintro (h | h)
    · exact hab ((hcontains a b).mpr h)
    · exact hba ((hcontains b a).mpr h)

end

lemma mem_overlapCandidates (hwf : program.WellFormed) {positive : List ℕ} {lower c : ℕ} :
    c ∈ overlapCandidates program positive lower ↔ Overlaps program lower c ∧ lower < c ∧
    c ∈ positive := by
  unfold overlapCandidates Overlaps
  rw [mem_sortBy, mem_filter, mem_append, mem_descendantsOf hwf, mem_ancestorsOf hwf,
    Bool.and_eq_true, decide_eq_true_eq, decide_eq_true_eq]

end Closure

lemma foldl_iff_exists {σ α : Type} {P : σ → Prop} {makes : α → Prop} {step : σ → α → σ}
    (h : ∀ s x, P (step s x) ↔ P s ∨ makes x) (l : List α) (s : σ) :
    P (l.foldl step s) ↔ P s ∨ ∃ x ∈ l, makes x := by
  induction l generalizing s with
  | nil => simp
  | cons x l ih => rw [foldl_cons, ih, h, or_assoc, exists_mem_cons_iff]

section Record

variable {program : SchemaProgram} (hwf : program.WellFormed) (cover : CompleteCoverVerdict)
  (scope : GoStr)
include hwf

lemma recordPair_spec (head : ℕ) (acc : OverlapAnalysis) (tail : ℕ) :
    (∀ entry, entry ∈ (recordPair program cover scope head acc tail).conflicts ↔ entry ∈ acc.conflicts ∨
      (Overlaps program head tail ∧ (entry = (scope, program.keyString head) ∨
        entry = (scope, program.keyString tail)))) ∧
    ((recordPair program cover scope head acc tail).err.isSome ↔
      acc.err.isSome ∨ Overlaps program head tail) := by
  unfold recordPair
  split_ifs with hne hcontains
  · have hno : ¬ Overlaps program head tail :=
      fun h => hne ((classifySupportRelation_eq_overlap hwf cover).mpr h)
    exact ⟨fun entry => by simp [hno], by simp [hno]⟩
  -- Either way round, both texts are recorded.
  all_goals have hyes := (classifySupportRelation_eq_overlap hwf cover).mp (not_not.mp hne)
  · exact ⟨fun entry => by simp [hyes], by simp [hyes]⟩
  · exact ⟨fun entry => by simp [hyes, or_comm], by simp [hyes]⟩

lemma recordHead_spec (positive : List ℕ) (acc : OverlapAnalysis) (head : ℕ) :
    (∀ entry, entry ∈ (recordHead program cover scope positive acc head).conflicts ↔
      entry ∈ acc.conflicts ∨ ∃ tail ∈ positive, head < tail ∧ Overlaps program head tail ∧
        (entry = (scope, program.keyString head) ∨ entry = (scope, program.keyString tail))) ∧
    ((recordHead program cover scope positive acc head).err.isSome ↔
      acc.err.isSome ∨ ∃ tail ∈ positive, head < tail ∧ Overlaps program head tail) := by
  unfold recordHead
  refine ⟨fun entry => ?_, ?_⟩
  · rw [foldl_iff_exists (P := fun acc : OverlapAnalysis => entry ∈ acc.conflicts)
      fun acc tail => (recordPair_spec hwf cover scope head acc tail).1 entry]
    simp only [mem_overlapCandidates hwf]
    grind
  · rw [foldl_iff_exists (P := fun acc : OverlapAnalysis => acc.err.isSome = true)
      fun acc tail => (recordPair_spec hwf cover scope head acc tail).2]
    simp only [mem_overlapCandidates hwf]
    grind

end Record

lemma mem_textsOf {byScope : List (GoStr × GoStr)} {scope text : GoStr} :
    text ∈ textsOf byScope scope ↔ (scope, text) ∈ byScope := by
  unfold textsOf
  simp only [mem_map, mem_filter, decide_eq_true_eq]
  constructor
  · rintro ⟨⟨scope', text'⟩, ⟨hmem, rfl⟩, rfl⟩
    exact hmem
  · exact fun hmem => ⟨_, ⟨hmem, rfl⟩, rfl⟩

lemma mem_dropLast_of_lt {l : List ℕ} (hsorted : l.Pairwise (· < ·)) {a b : ℕ} (ha : a ∈ l)
    (hb : b ∈ l) (hab : a < b) : a ∈ l.dropLast := by
  have hne : l ≠ [] := ne_nil_of_mem ha
  rw [← dropLast_append_getLast hne] at hsorted ha hb
  obtain ⟨-, -, hlast⟩ := pairwise_append.mp hsorted
  rcases mem_append.mp ha with ha | ha
  · exact ha
  rw [mem_singleton] at ha
  rcases mem_append.mp hb with hb | hb
  · have hless := hlast b hb _ (mem_singleton_self _)
    omega
  · rw [mem_singleton] at hb
    omega

def Conflicting (program : SchemaProgram) (payable : List (GoStr × GoStr)) (scope : GoStr)
    (a b : ℕ) : Prop :=
  (scope, program.keyString a) ∈ payable ∧ (scope, program.keyString b) ∈ payable ∧
    Overlaps program a b

section Passes

variable {program : SchemaProgram} (hwf : program.WellFormed) (table : PrintTable)
  (payable : List (GoStr × GoStr)) (evidence : List AggregateMeasure)
include hwf

lemma exists_head_iff {scope : GoStr} {positive : List ℕ}
    (hpositive : positive = shadowPositiveContributors program (textsOf payable scope))
    (Q : ℕ → Prop) :
    (∃ head ∈ positive.dropLast, ∃ tail ∈ positive, head < tail ∧ Overlaps program head tail ∧ (Q head ∨ Q tail)) ↔
      ∃ a b, Conflicting program payable scope a b ∧ Q a := by
  have hmem : ∀ {n}, n ∈ positive ↔ n < program.count ∧ (scope, program.keyString n) ∈ payable := by
    intro n
    rw [hpositive, shadowPositiveContributors, mem_filter, mem_range, decide_eq_true_eq, mem_textsOf]
  have hsorted : positive.Pairwise (· < ·) := hpositive ▸ pairwise_lt_range.filter _
  constructor
  · rintro ⟨head, hhead, tail, htail, -, hover, hq⟩
    have hhead := (hmem.mp (dropLast_subset _ hhead)).2
    have htail := (hmem.mp htail).2
    rcases hq with hq | hq
    · exact ⟨head, tail, ⟨hhead, htail, hover⟩, hq⟩
    · exact ⟨tail, head, ⟨htail, hhead, hover.symm⟩, hq⟩
  · rintro ⟨a, b, ⟨ha, hb, hover⟩, hq⟩
    obtain ⟨ha', hb'⟩ := overlaps_lt hwf hover
    have ha := hmem.mpr ⟨ha', ha⟩
    have hb := hmem.mpr ⟨hb', hb⟩
    rcases lt_or_gt_of_ne (overlaps_ne hwf hover) with hlt | hlt
    · exact ⟨a, mem_dropLast_of_lt hsorted ha hb hlt, b, hb, hlt, hover, .inl hq⟩
    · exact ⟨b, mem_dropLast_of_lt hsorted hb ha hlt, a, ha, hlt, hover.symm, .inr hq⟩

lemma recordScope_spec (acc : OverlapAnalysis) (scope : GoStr) :
    (∀ entry, entry ∈ (recordScope table program payable evidence acc scope).conflicts ↔ entry ∈ acc.conflicts ∨
      ∃ a b, Conflicting program payable scope a b ∧ entry = (scope, program.keyString a)) ∧
    ((recordScope table program payable evidence acc scope).err.isSome ↔
      acc.err.isSome ∨ ∃ a b, Conflicting program payable scope a b) := by
  obtain ⟨positive, hpositive⟩ :
      ∃ positive, positive = shadowPositiveContributors program (textsOf payable scope) :=
    ⟨_, rfl⟩
  obtain ⟨cover, hfold⟩ : ∃ cover, recordScope table program payable evidence acc scope =
      positive.dropLast.foldl (recordHead program cover scope positive) acc := by
    unfold recordScope
    dsimp only
    rw [← hpositive]
    split_ifs
    · -- A scope with one component has no head.
      rw [eq_nil_of_length_eq_zero (l := positive.dropLast) (by rw [length_dropLast]; omega)]
      exact ⟨resolveCompleteCovers table program [], rfl⟩
    · exact ⟨_, rfl⟩
  rw [hfold]
  refine ⟨fun entry => ?_, ?_⟩
  · rw [foldl_iff_exists (P := fun acc : OverlapAnalysis => entry ∈ acc.conflicts)
      fun acc head => (recordHead_spec hwf cover scope positive acc head).1 entry,
      exists_head_iff hwf payable hpositive fun n => entry = (scope, program.keyString n)]
  · have hpairs := exists_head_iff hwf payable hpositive fun _ => True
    simp only [or_self, and_true] at hpairs
    rw [foldl_iff_exists (P := fun acc : OverlapAnalysis => acc.err.isSome = true)
      fun acc head => (recordHead_spec hwf cover scope positive acc head).2, hpairs]

/-- A component is withheld if another one of its scope contains it or lies inside it, both of them
paid for, or if the commercial passes say so; the first kind comes with an error. -/
lemma overlappingSchemaInclusionConflicts_spec (rateable : List (GoStr × GoStr))
    (commercial : OverlapAnalysis) (hsome : payable ≠ [] ∨ rateable ≠ []) :
    let analysis :=
      overlappingSchemaInclusionConflicts table program payable rateable evidence commercial
    (∀ scope text, (scope, text) ∈ analysis.conflicts ↔
      (∃ a b, Conflicting program payable scope a b ∧ text = program.keyString a) ∨
        (scope, text) ∈ commercial.conflicts) ∧
    ((∃ scope a b, Conflicting program payable scope a b) → analysis.err.isSome = true) := by
  have hscope :
      ∀ {scope a b}, Conflicting program payable scope a b → scope ∈ sortedScopeKeys payable :=
    fun h => mem_sortBy.mpr (mem_dedup.mpr (mem_map_of_mem h.1))
  intro analysis
  have hanalysis : analysis =
      overlappingSchemaInclusionConflicts table program payable rateable evidence commercial :=
    rfl
  unfold overlappingSchemaInclusionConflicts at hanalysis
  rw [if_neg (by tauto)] at hanalysis
  rw [hanalysis]
  refine ⟨fun scope text => ?_, ?_⟩
  · rw [mem_append, foldl_iff_exists (P := fun acc : OverlapAnalysis => (scope, text) ∈ acc.conflicts)
      fun acc scope' => (recordScope_spec hwf table payable evidence acc scope').1 (scope, text)]
    refine or_congr_left ⟨?_, ?_⟩
    · rintro (h | ⟨scope', -, a, b, hconflict, h⟩)
      · cases h
      · cases h
        exact ⟨a, b, hconflict, rfl⟩
    · rintro ⟨a, b, hconflict, rfl⟩
      exact .inr ⟨scope, hscope hconflict, a, b, hconflict, rfl⟩
  · rintro ⟨scope, a, b, hconflict⟩
    rw [Option.isSome_or, Bool.or_eq_true, foldl_iff_exists (P := fun acc : OverlapAnalysis => acc.err.isSome = true)
      fun acc scope' => (recordScope_spec hwf table payable evidence acc scope').2]
    exact .inl (.inr ⟨scope, hscope hconflict, a, b, hconflict⟩)

end Passes

section Declared

variable (table : PrintTable) (schemas : List ComponentSchema)

/-- An inclusion that a schema declares between components of one direction and unit, by their
canonical texts. -/
def DeclaredChild (outer inner : GoStr) : Prop :=
  ∃ r ∈ allRelationships schemas, r.kind.isContainment ∧ r.parent.direction = r.child.direction ∧
    r.parent.unit = r.child.unit ∧ r.ends table = (outer, inner)

def DeclaredInside : GoStr → GoStr → Prop := TransGen (DeclaredChild table schemas)

variable {table schemas} {i : ℕ} {outer inner : GoStr}

lemma validateRelationships_valid {seen : List GoStr} {rs : List ComponentRelationship}
    (h : validateRelationships table i seen rs = .ok ()) : ∀ r ∈ rs, r.validate table = .ok () := by
  induction rs generalizing i seen with
  | nil => exact fun r hr => by cases hr
  | cons r rest ih =>
    obtain ⟨hr, h⟩ := seq_eq_ok.mp h
    obtain ⟨-, h⟩ := seq_eq_ok.mp h
    exact forall_mem_cons.mpr ⟨mapError_eq_ok.mp hr, ih h⟩

lemma validateSchemaSet_valid {ids pairs : List GoStr}
    (h : validateSchemaSet table i ids pairs schemas = .ok ()) :
    ∀ r ∈ allRelationships schemas, r.validate table = .ok () := by
  induction schemas generalizing i ids pairs with
  | nil => exact fun r hr => by cases hr
  | cons schema rest ih =>
    simp only [validateSchemaSet, ComponentSchema.validate, seq_eq_ok, mapError_eq_ok] at h
    obtain ⟨⟨-, -, -, hschema⟩, -, h⟩ := h
    obtain ⟨_, -, hrest⟩ := bind_eq_ok.mp h
    intro r hr
    rcases mem_append.mp hr with hr | hr
    · exact validateRelationships_valid hschema r hr
    · exact ih hrest r hr

lemma schemaEdge_ne_nil {r : ComponentRelationship} {e : SchemaEdge}
    (h : schemaEdge table r = some e) : e.parentKey ≠ [] ∧ e.childKey ≠ [] := by
  unfold schemaEdge at h
  split_ifs at h
  split at h
  · split_ifs at h with htexts
    cases h
    exact not_or.mp htexts
  · cases h

lemma encode_ne_nil (k : ComponentKey) : k.encode ≠ [] := cons_ne_nil _ _

lemma declaredChild_iff (h : validateComponentSchemas table schemas = .ok ()) :
    DeclaredChild table schemas outer inner ↔
      ∃ e ∈ rawEdges table schemas, e.parentKey = outer ∧ e.childKey = inner := by
  constructor
  · rintro ⟨r, hr, hkind, hdirection, hunit, hends⟩
    have hvalid := validateSchemaSet_valid (validateComponentSchemas_structure h).1 r hr
    simp only [ComponentRelationship.validate, seq_eq_ok] at hvalid
    obtain ⟨-, hparent, hchild, -⟩ := hvalid
    obtain ⟨parent, hparent⟩ : ∃ n, r.parent.normalize table = .ok n :=
      ⟨_, seq_eq_ok.mpr ⟨mapError_eq_ok.mp hparent, rfl⟩⟩
    obtain ⟨child, hchild⟩ : ∃ n, r.child.normalize table = .ok n :=
      ⟨_, seq_eq_ok.mpr ⟨mapError_eq_ok.mp hchild, rfl⟩⟩
    have htexts :
        ∀ {k n : ComponentKey}, k.normalize table = .ok n → n.canonicalKey table ≠ [] := by
      intro k n hk
      rw [canonicalKey_normalize hk, canonicalKey_of_normalize hk]
      exact encode_ne_nil n
    obtain ⟨e, hedge⟩ : ∃ e, schemaEdge table r = some e := by
      unfold schemaEdge
      rw [hparent, hchild, if_neg (by simp [hkind]), if_neg (by simp [hdirection, hunit])]
      dsimp only
      rw [if_neg (not_or.mpr ⟨htexts hparent, htexts hchild⟩)]
      exact ⟨_, rfl⟩
    have hkeys := (schemaEdge_eq_some hedge).2.2.trans hends
    exact ⟨e, mem_filterMap.mpr ⟨r, hr, hedge⟩, congrArg Prod.fst hkeys, congrArg Prod.snd hkeys⟩
  · rintro ⟨e, he, rfl, rfl⟩
    obtain ⟨r, hr, hedge⟩ := mem_filterMap.mp he
    obtain ⟨-, hkind, hkeys⟩ := schemaEdge_eq_some hedge
    have hside : ¬ (r.parent.direction ≠ r.child.direction ∨ r.parent.unit ≠ r.child.unit) := by
      intro hside
      unfold schemaEdge at hedge
      rw [if_neg (by simp [hkind]), if_pos hside] at hedge
      cases hedge
    simp only [not_or, not_not] at hside
    exact ⟨r, hr, hkind, hside.1, hside.2, hkeys.symm⟩

lemma mem_compiled_children {n c : ℕ} :
    c ∈ (compileSchemaProgram table schemas).containmentChildren n ↔
      ∃ e ∈ rawEdges table schemas, (canonicalKeys (rawEdges table schemas)).idxOf e.parentKey = n ∧
        (canonicalKeys (rawEdges table schemas)).idxOf e.childKey = c := by
  refine mem_childrenOf.trans ⟨fun hmem => ?_, ?_⟩
  · obtain ⟨e, he, hends⟩ := mem_map.mp hmem
    obtain ⟨raw, hraw, rfl⟩ := mem_map.mp (mem_of_mem_firstOfPair he).1
    exact ⟨raw, hraw, congrArg Prod.fst hends, congrArg Prod.snd hends⟩
  · rintro ⟨raw, hraw, rfl, rfl⟩
    exact ends_mem_firstOfPair (mem_map_of_mem hraw) not_mem_nil

lemma declaredInside_iff (h : validateComponentSchemas table schemas = .ok ()) :
    DeclaredInside table schemas outer inner ↔
      ∃ a b, Below (compileSchemaProgram table schemas).containmentChildren a b ∧
        (compileSchemaProgram table schemas).keyString a = outer ∧
        (compileSchemaProgram table schemas).keyString b = inner := by
  have htext : ∀ {e}, e ∈ rawEdges table schemas →
      (compileSchemaProgram table schemas).keyString ((canonicalKeys (rawEdges table schemas)).idxOf e.parentKey) =
        e.parentKey ∧
      (compileSchemaProgram table schemas).keyString ((canonicalKeys (rawEdges table schemas)).idxOf e.childKey) =
        e.childKey :=
    fun he => ⟨(getD_idxOf (mem_canonicalKeys he).1).2, (getD_idxOf (mem_canonicalKeys he).2).2⟩
  constructor
  · intro hinside
    induction hinside with
    | single hchild =>
      obtain ⟨e, he, rfl, rfl⟩ := (declaredChild_iff h).mp hchild
      exact ⟨_, _, .single (mem_compiled_children.mpr ⟨e, he, rfl, rfl⟩), htext he⟩
    | tail _ hchild ih =>
      obtain ⟨a, b, hbelow, rfl, hb⟩ := ih
      obtain ⟨e, he, hparent, rfl⟩ := (declaredChild_iff h).mp hchild
      -- The number of the middle component is that of its text.
      have hmiddle : (canonicalKeys (rawEdges table schemas)).idxOf e.parentKey = b := by
        have hwf := compile_wellFormed h
        have hlt := (below_lt hwf hbelow).2
        rw [hparent, ← hb]
        unfold SchemaProgram.keyString
        rw [getD_eq_getElem?_getD, getElem?_eq_getElem hlt]
        exact hwf.keyStrings_nodup.idxOf_getElem b hlt
      exact ⟨a, _, hbelow.tail (mem_compiled_children.mpr ⟨e, he, hmiddle, rfl⟩), rfl, (htext he).2⟩
  · rintro ⟨a, b, hbelow, rfl, rfl⟩
    refine TransGen.lift (compileSchemaProgram table schemas).keyString (fun n c hc => ?_) _ _ hbelow
    obtain ⟨e, he, rfl, rfl⟩ := mem_compiled_children.mp hc
    exact (declaredChild_iff h).mpr ⟨e, he, (htext he).1.symm, (htext he).2.symm⟩

end Declared

end InteractiveProxy.Billing
