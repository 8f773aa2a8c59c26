import InteractiveProxy.RouteFailover

/-! What the planner selects, and the static enumeration of the candidates of a selector. A cycle
finds the branch of an entry by its key alone, so a thinker and an executor with one key are
confused. -/
namespace InteractiveProxy.Routing

open GoText GuardedRun List

variable {Q : Type} [QueryValues Q]

/-- A group without a thinker refuses weights that do not add up to 64 bits. Otherwise the rolls
below the total, in order, choose every eligible branch exactly as often as it weighs, and the pick
is the branch of the roll made. -/
theorem weighted_pick_exact (w : Weighted Q) (opt : PlanOptions) (position : ℕ)
    (hplain : w.thinkerAware = false) {eligible : List (WeightedBranch Q)}
    (heligible : w.branches.filter (fun b => b.target.candidate.eligible opt) = eligible)
    (hne : eligible ≠ []) (hrolls : opt.steers → ∀ b ∈ eligible, b.isFirst = false) :
    maxInt64 < totalWeight eligible ∧ pickWeighted w opt position = .error .weightedTotalTooLarge ∨
      totalWeight eligible ≤ maxInt64 ∧
        (range (totalWeight eligible).toNat).map (fun roll : ℕ => rolledBranch roll 0 eligible) =
          eligible.flatMap (fun b => replicate (effectiveWeight b.weight).toNat (some b)) ∧
        ∃ b ∈ eligible, rolledBranch (opt.rand.intn position (totalWeight eligible).toNat) 0 eligible = some b ∧
          pickWeighted w opt position =
            .ok ([b.target.candidate.tagged (b.isFirst && !opt.isRetryPath) .none []], false, none) := by
  have hbranches : w.branches.isEmpty = false := by
    rw [isEmpty_eq_false_iff]
    rintro hnil
    simp [hnil] at heligible
    exact hne heligible
  have hlegacy : pickWeightedLegacy w opt position = rollWeighted eligible opt position := by
    have hfirst : opt.steers → eligible.filter (·.isFirst) = [] := by simpa using hrolls
    simp only [pickWeightedLegacy, heligible]
    split_ifs with hempty hsteers
    · exact absurd (isEmpty_iff.mp hempty) hne
    · rw [hfirst hsteers]
    · rfl
  rw [pickWeighted, hbranches, hplain, hlegacy]
  rcases rollWeighted_eq hne opt position with ⟨hlarge, herr⟩ | ⟨hfits, b, hb, hrolled, hok⟩
  · rw [herr]
    exact .inl ⟨hlarge, rfl⟩
  · rw [hok]
    exact .inr ⟨hfits, by simpa using map_rolledBranch eligible 0, b, hb, hrolled, rfl⟩

def twoToOne : Weighted GoStr :=
  { branches := [{ weight := 2, target := targetA }, { target := targetB }] }

theorem weighted_pick_exact_twoToOne :
    (range 3).map (fun roll : ℕ => rolledBranch roll 0 twoToOne.branches) =
    [some { weight := 2, target := targetA }, some { weight := 2, target := targetA }, some { target := targetB }] := by
  rcases weighted_pick_exact twoToOne { rand := lowRolls } 0 rfl (show _ = twoToOne.branches from rfl)
    (cons_ne_nil _ _) (by simp [PlanOptions.steers]) with ⟨hlarge, -⟩ | ⟨-, hrolls, -⟩
  · exact absurd hlarge (by decide)
  · exact hrolls

section Keys

/-- The parameters of a target; a map without names is like none. -/
def Primary.paramMap (p : Primary Q) : Option Q := p.params.filter fun q => 0 < QueryValues.len q

variable {p q : Primary Q}

/-- The separators of a key stand nowhere before their place in it. -/
def Primary.Separated (p : Primary Q) : Prop := p.backend ≠ [] ∧ 0x3A ∉ p.backend ∧ 0x3F ∉ p.model

lemma Primary.key_eq (hbackend : p.backend ≠ []) : p.key =
    p.backend ++ 0x3A :: (p.model ++ p.paramMap.elim [] fun q => 0x3F :: QueryValues.encode q) := by
  have hcolon : lit ":" = [0x3A] := rfl
  have hmark : lit "?" = [0x3F] := rfl
  rw [key, if_pos hbackend, paramMap, hcolon, hmark]
  cases p.params with
  | none => simp
  | some q => by_cases hlen : 0 < QueryValues.len q <;> simp [Option.filter, hlen]

lemma Primary.Separated.key_inj (hp : p.Separated) (hq : q.Separated)
    (hencode : Function.Injective (QueryValues.encode : Q → GoStr)) (h : p.key = q.key) :
    p.backend = q.backend ∧ p.model = q.model ∧ p.paramMap = q.paramMap := by
  rw [key_eq hp.1, key_eq hq.1] at h
  have hleft := congrArg (cut 0x3A) h
  rw [cut_append_cons hp.2.1, cut_append_cons hq.2.1, Prod.mk.injEq, Prod.mk.injEq] at hleft
  obtain ⟨hbackend, hrest, -⟩ := hleft
  have hright := congrArg (cut 0x3F) hrest
  cases hpm : p.paramMap <;> cases hqm : q.paramMap <;>
    simp only [hpm, hqm, Option.elim, append_nil, cut_append_cons, cut_of_not_mem, hp.2.2, hq.2.2,
      not_false_eq_true, Prod.mk.injEq, reduceCtorEq, and_false, and_true] at hright
  · exact ⟨hbackend, hright, rfl⟩
  · exact ⟨hbackend, hright.1, congrArg some (hencode hright.2)⟩

lemma compiled_separated {raw defaultBackend : GoStr} {aliases : Option (List AliasRule)}
    {sel : Selector Q}
    (hcolon : 0x3A ∉ defaultBackend) (hsel : compileSelector raw aliases defaultBackend = .ok sel)
    (hp : p ∈ sel.targets) : p.Separated := by
  obtain ⟨hwell, hempty⟩ : sel.WellFormed (fun p => 0x3A ∉ p.backend ∧ 0x3F ∉ p.model) ∧
      selectorHasEmptyBackend sel = false := by
    refine compileSelector_leaves hsel (fun p hp => ⟨hp.backend_colon, hp.model_mark⟩)
      fun p hp => ?_
    unfold Primary.orBackend
    split_ifs
    · exact ⟨fun h => hcolon (trimSpace_subset _ h), hp.model_mark⟩
    · exact ⟨hp.backend_colon, hp.model_mark⟩
  obtain ⟨alt, halt, hmem⟩ := mem_flatMap.mp hp
  refine ⟨?_, (hwell.alternatives alt halt).targets p hmem⟩
  rintro hnil
  exact backend_ne_nil hwell hempty hp (by rw [hnil]; rfl)

/-- The key of a leaf determines its backend, its model and its parameters, and is determined by
them. -/
theorem keys_identify_leaves (hencode : Function.Injective (QueryValues.encode : Q → GoStr))
    {raw raw' defaultBackend defaultBackend' : GoStr} {aliases aliases' : Option (List AliasRule)}
    {sel sel' : Selector Q} (hcolon : 0x3A ∉ defaultBackend) (hcolon' : 0x3A ∉ defaultBackend')
    (hsel : compileSelector raw aliases defaultBackend = .ok sel)
    (hsel' : compileSelector raw' aliases' defaultBackend' = .ok sel') (hp : p ∈ sel.targets)
    (hq : q ∈ sel'.targets) :
    p.key = q.key ↔ p.backend = q.backend ∧ p.model = q.model ∧ p.paramMap = q.paramMap := by
  have hsp := compiled_separated hcolon hsel hp
  have hsq := compiled_separated hcolon' hsel' hq
  refine ⟨hsp.key_inj hsq hencode, ?_⟩
  rintro ⟨hbackend, hmodel, hparams⟩
  rw [Primary.key_eq hsp.1, Primary.key_eq hsq.1, hbackend, hmodel, hparams]

theorem keys_identify_leaves_colon :
    ({ targetA with model := lit "x:m" } : Primary GoStr).key ≠ targetA.key := by
  intro h
  have hmodel := ((keys_identify_leaves (fun _ _ h => h) (by decide : 0x3A ∉ lit "a") not_mem_nil
    (by rfl : compileSelector (lit ":x:m") none (lit "a") =
      .ok ⟨[{ primary := some { targetA with model := lit "x:m" } }], none, .none⟩)
    (by rfl : compileSelector (lit "a:m|b:n") none [] = .ok twoTargets)
      (mem_singleton_self _) mem_cons_self).mp h).2.1
  exact absurd hmodel (by decide)

end Keys

def initialBranch (w : Weighted Q) (b : WeightedBranch Q) : List (AttemptCandidate Q) :=
  match b.parallel with
  | some p =>
    p.branches.map fun leg =>
      let c := { leg.candidate with markedFirst := b.isFirst }
      if w.thinkerAware then { c with interleavedRole := .executor, selectorKey := w.selectorKey }
      else c
  | none =>
    let c := { b.target.candidate with markedFirst := b.isFirst }
    [if w.thinkerAware then { c with selectorKey := w.selectorKey, interleavedRole := b.role }
      else c]

def initialAlt (alt : FailoverAlt Q) : List (AttemptCandidate Q) :=
  match alt.primary, alt.weighted, alt.parallel with
  | some p, _, _ => [p.candidate]
  | none, some w, _ => w.branches.flatMap (initialBranch w)
  | none, none, some p => p.branches.map (·.candidate)
  | none, none, none => []

variable (sel : Selector Q)

def initialCandidates : List (AttemptCandidate Q) := sel.alternatives.flatMap initialAlt

omit [QueryValues Q] in
def candidateEqual (a b : AttemptCandidate Q) : Bool :=
  a.primary.backend == b.primary.backend && a.primary.model == b.primary.model &&
    a.primary.nativeModel == b.primary.nativeModel && a.key == b.key &&
    a.isParallel == b.isParallel &&
    a.handicap == b.handicap && a.markedFirst == b.markedFirst && a.interleavedRole == b.interleavedRole &&
    a.selectorKey == b.selectorKey

/-- An element of the enumeration is equal to the candidate up to the `[first]` mark. -/
def Enumerated (c : AttemptCandidate Q) : Prop :=
  ∃ c' ∈ initialCandidates sel, candidateEqual { c with markedFirst := c'.markedFirst } c'
  deriving Decidable

/-- What `CandidateEqual` compares of a candidate before a group marks it. -/
structure Identity where
  backend : GoStr
  model : GoStr
  nativeModel : GoStr
  key : GoStr
  isParallel : Bool
  handicap : ℤ
  deriving DecidableEq

def AttemptCandidate.identity (c : AttemptCandidate Q) : Identity :=
  ⟨c.primary.backend, c.primary.model, c.primary.nativeModel, c.key, c.isParallel, c.handicap⟩

variable {c : AttemptCandidate Q}

omit [QueryValues Q] in
lemma candidateEqual_iff {c' : AttemptCandidate Q} :
    candidateEqual { c with markedFirst := c'.markedFirst } c' ↔
      c.identity = c'.identity ∧ c.interleavedRole = c'.interleavedRole ∧
      c.selectorKey = c'.selectorKey := by
  simp only [candidateEqual, AttemptCandidate.identity, Bool.and_eq_true, beq_iff_eq, Identity.mk.injEq]
  tauto

def Selector.thinkerGroups : List (Weighted Q) :=
  (sel.alternatives.filterMap (·.weighted)).filter (·.thinkerAware)

/-- Where a branch has the key of an earlier one, the members of the earlier one are also members of
a branch with its own role, in a group with the same key. -/
def KeysTellRoles : Prop :=
  ∀ w ∈ sel.thinkerGroups, ∀ b ∈ w.branches,
    ∀ found ∈ w.branches.find? (fun b' => branchKey b' = branchKey b), ∀ m ∈ found.members,
      ∃ w' ∈ sel.thinkerGroups, w'.selectorKey = w.selectorKey ∧
        ∃ b' ∈ w'.branches, b'.role = b.role ∧ ∃ m' ∈ b'.members, m'.identity = m.identity
  deriving Decidable

section Enumeration

variable {w : Weighted Q} {b : WeightedBranch Q}

lemma initialBranch_eq (hb : b.parallel ≠ none → b.isThinker = false) :
    initialBranch w b = b.members.map (·.tagged b.isFirst
      (if w.thinkerAware then b.role else .none)
      (if w.thinkerAware then w.selectorKey else [])) := by
  unfold initialBranch
  cases hparallel : b.parallel with
  | none =>
    rw [members_of_none hparallel]
    cases w.thinkerAware <;> rfl
  | some p =>
    have hrole : b.role = .executor := by simp [hb (by simp [hparallel])]
    rw [members_of_some hparallel, map_map, hrole]
    cases w.thinkerAware <;> rfl

variable {sel : Selector Q} {leaf : Primary Q → Prop}

lemma mem_initialCandidates_branch (hsel : sel.WellFormed leaf) {alt : FailoverAlt Q}
    (halt : alt ∈ sel.alternatives)
    (hw : alt.weighted = some w) (hb : b ∈ w.branches) {m : AttemptCandidate Q}
    (hm : m ∈ b.members) : m.tagged b.isFirst (if w.thinkerAware then b.role else .none)
      (if w.thinkerAware then w.selectorKey else []) ∈ initialCandidates sel := by
  obtain ⟨hwell, rfl⟩ := (hsel.alternatives alt halt).of_weighted hw
  refine mem_flatMap.mpr ⟨_, halt, mem_flatMap.mpr ⟨b, hb, ?_⟩⟩
  rw [initialBranch_eq fun hsome => (hwell.plannable.parallel b hb hsome).1]
  exact mem_map_of_mem hm

omit [QueryValues Q] in
lemma mem_thinkerGroups :
    w ∈ sel.thinkerGroups ↔ (∃ alt ∈ sel.alternatives, alt.weighted = some w) ∧ w.thinkerAware := by
  simp [Selector.thinkerGroups]

lemma thinker_of_mem_initialCandidates (hsel : sel.WellFormed leaf) (hc : c ∈ initialCandidates sel)
    (hrole : c.interleavedRole ≠ .none) :
    ∃ w ∈ sel.thinkerGroups, ∃ b ∈ w.branches, ∃ m ∈ b.members, c =
    m.tagged b.isFirst b.role w.selectorKey := by
  obtain ⟨alt, halt, hc⟩ := mem_flatMap.mp hc
  have hwell := hsel.alternatives alt halt
  cases hwell with
  | primary =>
    rw [mem_singleton.mp hc] at hrole
    exact absurd rfl hrole
  | parallel =>
    obtain ⟨leg, -, rfl⟩ := mem_map.mp hc
    exact absurd rfl hrole
  | @weighted w hwell =>
    obtain ⟨b, hb, hc⟩ := mem_flatMap.mp hc
    rw [initialBranch_eq fun hsome => (hwell.plannable.parallel b hb hsome).1] at hc
    obtain ⟨m, hm, rfl⟩ := mem_map.mp hc
    cases haware : w.thinkerAware with
    | false =>
      rw [haware] at hrole
      exact absurd rfl hrole
    | true => exact ⟨w, mem_thinkerGroups.mpr ⟨⟨_, halt, rfl⟩, haware⟩, b, hb, m, hm, rfl⟩

end Enumeration

lemma Planned.enumerated {leaf : Primary Q → Prop} {sel : Selector Q} (hsel : sel.WellFormed leaf)
    (hkeys : KeysTellRoles sel) {opt : PlanOptions} {alt : FailoverAlt Q}
    (halt : alt ∈ sel.alternatives) (h : Planned opt alt c) : Enumerated sel c := by
  have hwell := hsel.alternatives alt halt
  cases h with
  | @primary p hp helig =>
    refine ⟨p.candidate, mem_flatMap.mpr ⟨alt, halt, ?_⟩, candidateEqual_iff.mpr ⟨rfl, rfl, rfl⟩⟩
    unfold initialAlt
    rw [hp]
    exact mem_singleton_self _
  | @leg p leg hp hleg helig =>
    refine ⟨leg.candidate, mem_flatMap.mpr ⟨alt, halt, ?_⟩, candidateEqual_iff.mpr ⟨rfl, rfl, rfl⟩⟩
    cases hwell with
    | primary | weighted => cases hp
    | parallel =>
      cases hp
      exact mem_map_of_mem hleg
  | @branch w b m first role key hw hb hm helig hmarks =>
    cases hmarks with
    | plain haware | own haware =>
      have hmem := mem_initialCandidates_branch hsel halt hw hb hm
      rw [haware] at hmem
      exact ⟨_, hmem, candidateEqual_iff.mpr ⟨rfl, rfl, rfl⟩⟩
    | entry haware hentry hfind hon =>
      obtain ⟨b1, hb1, rfl⟩ := mem_cycle hentry
      obtain ⟨w', hw', hkey, b', hb', hrole, m', hm', hsame⟩ :=
        hkeys w (mem_thinkerGroups.mpr ⟨⟨alt, halt, hw⟩, haware⟩) b1 hb1 b hfind m hm
      obtain ⟨⟨alt', halt', halt''⟩, haware'⟩ := mem_thinkerGroups.mp hw'
      have hmem := mem_initialCandidates_branch hsel halt' halt'' hb' hm'
      rw [haware'] at hmem
      exact ⟨_, hmem, candidateEqual_iff.mpr ⟨hsame.symm, hrole.symm, hkey.symm⟩⟩

section Necessary

/-- The branches of one key in a group without a thinker can be added up. -/
def SameKeyFits : Prop :=
  ∀ alt ∈ sel.alternatives, ∀ w, alt.weighted = some w → w.thinkerAware = false →
    ∀ key, totalWeight (w.branches.filter fun b => b.target.key = key) ≤ maxInt64

omit [QueryValues Q] in
lemma totalWeight_le_of_sublist {bs bs' : List (WeightedBranch Q)} (h : bs.Sublist bs') :
    totalWeight bs ≤ totalWeight bs' := by
  induction h with
  | slnil => exact le_refl _
  | cons b h ih =>
    have := effectiveWeight_pos b.weight
    simp only [totalWeight_cons]
    omega
  | cons_cons b h ih =>
    simp only [totalWeight_cons]
    omega

def aimedOptions (key : GoStr) (w : Weighted Q) (i : ℕ) : PlanOptions :=
  { excluded := sel.candidateKeys.erase key, rand := lowRolls, isRetryPath := true,
    thinkerCycle := ⟨w.selectorKey, w.cycle, i⟩ }

variable {leaf : Primary Q → Prop} {sel : Selector Q} {key : GoStr} {w : Weighted Q} {i : ℕ}

lemma aimed_key (hc : c.eligible (aimedOptions sel key w i))
    (hmem : c.key ∈ sel.candidateKeys) : c.key = key := by
  by_contra hne
  exact (candidateEligible_iff.mp hc).1 (Finset.mem_erase.mpr ⟨hne, hmem⟩)

variable {m : AttemptCandidate Q} {found : WeightedBranch Q} {alt : FailoverAlt Q}
  {entry : CycleEntry}

lemma aimed_eligible : m.eligible (aimedOptions sel m.key w i) := by
  refine candidateEligible_iff.mpr ⟨Finset.notMem_erase _ _, Finset.notMem_empty _, rfl⟩

lemma aimed_not_overweight (hsel : sel.WellFormed leaf) (hfits : SameKeyFits sel)
    (halt : alt ∈ sel.alternatives)
    {w' : Weighted Q} (hw' : alt.weighted = some w') :
    ¬ Overweight (aimedOptions sel key w i) w' := by
  rintro ⟨hplain, hlarge⟩
  have hone : w'.branches.filter (fun b => b.target.candidate.eligible (aimedOptions sel key w i)) =
      (w'.branches.filter fun b => b.target.key = key).filter fun b =>
        b.target.candidate.eligible (aimedOptions sel key w i) := by
    rw [filter_filter]
    refine filter_congr fun b hb => ?_
    cases helig : b.target.candidate.eligible (aimedOptions sel key w i) with
    | false => rfl
    | true =>
      have hkey : b.target.key = key := aimed_key helig (target_key_mem hsel halt hw' hplain hb)
      simp [hkey]
  rw [hone] at hlarge
  have hle :=
    totalWeight_le_of_sublist (filter_sublist (l := w'.branches.filter fun b => b.target.key = key)
    (p := fun b => b.target.candidate.eligible (aimedOptions sel key w i)))
  have := hfits alt halt w' hw' hplain key
  omega

lemma aimed_group (hwell : alt.WellFormed leaf) (hw : alt.weighted = some w)
    (haware : w.thinkerAware)
    (hentry : w.cycle[i]? = some entry)
    (hfind : w.branches.find? (fun b => branchKey b = entry.key) = some found)
    (hm : m ∈ found.members) (session : Option SessionRoutingState) (position : ℕ) :
    ∃ g session', planAlt { aimedOptions sel m.key w i with session } position alt =
    .ok (some g, session') ∧
      m.tagged false entry.role w.selectorKey ∈ g.candidates := by
  have hindex : cycleIndex w (aimedOptions sel m.key w i).thinkerCycle = i :=
    cycleIndex_of_lt (List.getElem?_eq_some_iff.mp hentry).1
  have hmem : m.tagged false entry.role w.selectorKey ∈
      (found.members.filter (·.eligible (aimedOptions sel m.key w i))).map
        (·.tagged false entry.role w.selectorKey) :=
    mem_map_of_mem (mem_filter.mpr ⟨hm, aimed_eligible⟩)
  have hcands : cycleCandidates w entry { aimedOptions sel m.key w i with session } =
      some ((found.members.filter (·.eligible (aimedOptions sel m.key w i))).map
        (·.tagged false entry.role w.selectorKey)) :=
    cycleCandidates_iff.mpr ⟨found, hfind, rfl, ne_nil_of_mem hmem⟩
  rw [← hindex] at hentry
  have hpick := pickThinkerCycle_eq
    (show steeredBranch w { aimedOptions sel m.key w i with session } = none from rfl)
    hentry (fun hoff => nomatch hoff.2) hcands
  obtain ⟨hgroup, rfl⟩ := hwell.of_weighted hw
  rw [← pickWeighted_of_thinker hgroup haware position] at hpick
  exact ⟨_, _, planAlt_weighted hpick, hmem⟩

lemma aimed_plan (hsel : sel.WellFormed leaf) (hfits : SameKeyFits sel) (hw : w ∈ sel.thinkerGroups)
    (hentry : w.cycle[i]? = some entry)
    (hfind : w.branches.find? (fun b => branchKey b = entry.key) = some found)
    (hm : m ∈ found.members) :
    ∃ groups, (expandFailoverGroups sel (aimedOptions sel m.key w i)).1 = .ok groups ∧
      ∃ g ∈ groups, m.tagged false entry.role w.selectorKey ∈ g.candidates := by
  obtain ⟨⟨alt, halt, hweighted⟩, haware⟩ := mem_thinkerGroups.mp hw
  cases hplan : (planAlts (aimedOptions sel m.key w i) 0 none sel.alternatives).1 with
  | error err =>
    obtain ⟨-, alt', halt', w', hw', hover⟩ := planAlts_error hsel.alternatives hplan
    exact absurd hover (aimed_not_overweight hsel hfits halt' hw')
  | ok planned =>
    obtain ⟨session, position, group, session', hgroup, hmem⟩ := planAlts_mem hplan halt
    obtain ⟨g, session'', hg, hc⟩ :=
      aimed_group (hsel.alternatives alt halt) hweighted haware hentry hfind hm session position
    obtain ⟨rfl, -⟩ := Prod.mk.inj (Except.ok.inj (hgroup.symm.trans hg))
    have hplanned := hmem g rfl
    refine ⟨planned, ?_, g, hplanned, hc⟩
    have hne : planned.isEmpty = false := by simpa using ne_nil_of_mem hplanned
    rw [expandFailoverGroups_eq rfl]
    refine bind_eq_ok.mpr ⟨planned, hplan, ?_⟩
    simp [hne, reorderPreferredGroups, aimedOptions]

end Necessary

/-- The enumeration covers every plan if keys tell roles; if the weights of each key fit, then only
if. -/
theorem enumeration_covers_plans (raw : GoStr) (aliases : Option (List AliasRule))
    (defaultBackend : GoStr)
    (sel : Selector Q) (hsel : compileSelector raw aliases defaultBackend = .ok sel) :
    (KeysTellRoles sel → ∀ opt groups, (expandFailoverGroups sel opt).1 = .ok groups →
      ∀ g ∈ groups, ∀ c ∈ g.candidates, Enumerated sel c) ∧
    (SameKeyFits sel →
      (∀ opt groups, (expandFailoverGroups sel opt).1 = .ok groups →
        ∀ g ∈ groups, ∀ c ∈ g.candidates, Enumerated sel c) → KeysTellRoles sel) := by
  have hwell := (compileSelector_ok hsel).1
  constructor
  · intro hkeys opt groups hplan g hg c hc
    obtain ⟨alt, halt, hplanned⟩ := expandFailoverGroups_ok hwell hplan g hg c hc
    exact hplanned.enumerated hwell hkeys halt
  · intro hfits hall w hw b hb found hfind m hm
    obtain ⟨⟨alt, halt, hweighted⟩, haware⟩ := mem_thinkerGroups.mp hw
    have hgroup := ((hwell.alternatives alt halt).of_weighted hweighted).1
    obtain ⟨i, hentry⟩ := mem_iff_getElem?.mp (entry_mem_cycle hgroup.one_thinker hb)
    obtain ⟨groups, hplan, g, hg, hc⟩ := aimed_plan hwell hfits hw hentry hfind hm
    obtain ⟨c', hc', hequal⟩ := hall _ groups hplan g hg _ hc
    obtain ⟨hsame, hrole, hkey⟩ := candidateEqual_iff.mp hequal
    have hmarked : c'.interleavedRole ≠ .none := by
      rw [← hrole]
      change b.role ≠ .none
      unfold WeightedBranch.role
      split_ifs <;> simp
    obtain ⟨w', hw', b', hb', m', hm', rfl⟩ := thinker_of_mem_initialCandidates hwell hc' hmarked
    exact ⟨w', hw', hkey.symm, b', hb', hrole.symm, m', hm', hsame.symm⟩

/-- The cycle of two executors and a thinker is covered. -/
theorem enumeration_covers_plans_thinkerGroup :
    compileSelector (lit "[weight=2]a:m^[thinker]b:n^c:o") none [] =
      .ok { alternatives := [{ weighted := some thinkerGroup }] } ∧
    ∀ opt groups, (expandFailoverGroups { alternatives := [{ weighted := some thinkerGroup }] } opt).1 = .ok groups →
      ∀ g ∈ groups, ∀ c ∈ g.candidates, Enumerated
      { alternatives := [{ weighted := some thinkerGroup }] } c := by
  refine ⟨?compiles, (enumeration_covers_plans _ none [] _ ?compiles).1 (by decide +kernel)⟩
  rfl

/-- A parallel executor and a thinker with one key: the backend of the default route ends the depth
of the brackets, so the text of the thinker is not split. -/
def confused : Selector GoStr :=
  { alternatives := [{ weighted := some { branches := [
      { weight := 1, parallel := some { branches := [
        { target := { backend := lit "]d", model := lit "m1" } },
        { target := { backend := lit "b2", model := lit "m2" } }] } },
      { weight := 1, isThinker := true, target := { backend := lit "parallel", model := lit "]d:m1!b2:m2" } }] } }] }

/-- The cursor at the entry of the thinker, whose key is that of the parallel branch in front of it.
-/
def confusedOptions : PlanOptions :=
  { rand := lowRolls,
    thinkerCycle := {
      selectorKey := lit "parallel:]d:m1!b2:m2^parallel:]d:m1!b2:m2"
      sequence := [⟨lit "parallel:]d:m1!b2:m2", .executor⟩, ⟨lit "parallel:]d:m1!b2:m2", .thinker⟩]
      nextIndex := 1 } }

theorem confused_plan_not_enumerated :
    compileSelector (lit "m1!b2:m2^[thinker]parallel:]d:m1!b2:m2") none (lit "]d") = .ok confused ∧
    ∃ groups, (expandFailoverGroups confused confusedOptions).1 = .ok groups ∧
      ∃ g ∈ groups, ∃ c ∈ g.candidates, c.interleavedRole = .thinker ∧ ¬ Enumerated confused c := by
  refine ⟨by rfl, _, by rfl, ?_⟩
  decide +kernel

end InteractiveProxy.Routing
