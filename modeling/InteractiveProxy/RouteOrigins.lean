import InteractiveProxy.RoutePlanner

/-! Where a planned candidate comes from. Every path of the planner (a direct target, the legs of a
parallel group, a roll, a steered branch, a cycle, the sticky backend, the preferred order) is
analysed once here. -/
namespace InteractiveProxy.Routing
open GoText GuardedRun List WeightedBranch

variable {Q : Type} [QueryValues Q]

/-- The candidates of a branch before a group marks them. -/
def WeightedBranch.members (b : WeightedBranch Q) : List (AttemptCandidate Q) :=
  match b.parallel with
  | some p => p.branches.map (·.candidate)
  | none => [b.target.candidate]

def AttemptCandidate.tagged (c : AttemptCandidate Q) (first : Bool) (role : Role)
    (selectorKey : GoStr) : AttemptCandidate Q :=
  { c with markedFirst := first, interleavedRole := role, selectorKey }

/-- The marks that a group `w` puts on the members of its branch `b`. A cycle finds the branch by
the key of an entry and takes the role from the entry. -/
inductive Marks (opt : PlanOptions) (w : Weighted Q) (b : WeightedBranch Q) : Role → GoStr → Prop
  | plain (hw : w.thinkerAware = false) : Marks opt w b .none []
  | own (hw : w.thinkerAware) (hon : ¬ (b.isThinker ∧ opt.suppressThinker)) :
      Marks opt w b b.role w.selectorKey
  | entry (hw : w.thinkerAware) {entry : CycleEntry} (hentry : entry ∈ w.cycle)
      (hfind : w.branches.find? (fun b => branchKey b = entry.key) = some b)
      (hon : ¬ (entry.role = .thinker ∧ opt.suppressThinker)) :
        Marks opt w b entry.role w.selectorKey

inductive Planned (opt : PlanOptions) (alt : FailoverAlt Q) : AttemptCandidate Q → Prop
  | primary {p : Primary Q} (hp : alt.primary = some p) (helig : p.candidate.eligible opt) :
      Planned opt alt p.candidate
  | leg {p : Parallel Q} {leg : ParallelBranch Q} (hp : alt.parallel = some p)
      (hleg : leg ∈ p.branches)
      (helig : leg.candidate.eligible opt) : Planned opt alt leg.candidate
  | branch {w : Weighted Q} {b : WeightedBranch Q} {m : AttemptCandidate Q} {first : Bool}
      {role : Role}
      {selectorKey : GoStr} (hw : alt.weighted = some w) (hb : b ∈ w.branches) (hm : m ∈ b.members)
      (helig : m.eligible opt) (hmarks : Marks opt w b role selectorKey) :
      Planned opt alt (m.tagged first role selectorKey)

variable {opt : PlanOptions} {c : AttemptCandidate Q} {alt : FailoverAlt Q}
  {session : Option SessionRoutingState}

lemma Planned.of_session (h : Planned { opt with session } alt c) : Planned opt alt c := by
  cases h with
  | primary hp helig => exact .primary hp helig
  | leg hp hleg helig => exact .leg hp hleg helig
  | branch hw hb hm helig hmarks =>
    refine .branch hw hb hm helig ?_
    cases hmarks with
    | plain hplain => exact .plain hplain
    | own haware hon => exact .own haware hon
    | entry haware hentry hfind hon => exact .entry haware hentry hfind hon

/-- What planning needs of a group: `[first]` marks a plain executor, and parallel branches stand
beside a thinker. -/
structure Weighted.Plannable (w : Weighted Q) : Prop where
  first : ∀ b ∈ w.branches, b.isFirst → b.isThinker = false ∧ b.parallel = none
  parallel : ∀ b ∈ w.branches, b.parallel ≠ none → b.isThinker = false ∧ w.thinkerAware

variable {leaf : Primary Q → Prop} {w : Weighted Q}

omit [QueryValues Q] in
lemma Weighted.WellFormed.plannable (h : w.WellFormed leaf) : w.Plannable := by
  constructor
  · intro b hb hfirst
    have hbranch := h.branches b hb
    refine ⟨by simpa [hfirst] using hbranch.not_both, ?_⟩
    cases hp : b.parallel with
    | none => rfl
    | some p =>
      obtain ⟨-, -, hnotfirst, -⟩ := hbranch.parallel p hp
      rw [hfirst] at hnotfirst
      cases hnotfirst
  · intro b hb hparallel
    obtain ⟨p, hp⟩ := Option.ne_none_iff_exists'.mp hparallel
    obtain ⟨-, hexecutor, -, thinker, hthinker, -, hw⟩ := (h.branches b hb).parallel p hp
    refine ⟨hexecutor, any_eq_true.mpr ⟨thinker, ?_, hthinker⟩⟩
    rcases hw with hw | hw
    · simp [hw]
    · simp [hw]

variable {b : WeightedBranch Q} {p : Parallel Q}

lemma members_of_none (h : b.parallel = none) : b.members = [b.target.candidate] := by
  unfold members
  rw [h]

lemma members_of_some (h : b.parallel = some p) : b.members = p.branches.map (·.candidate) := by
  unfold members
  rw [h]

lemma mem_expandParallel :
    c ∈ expandParallel p opt ↔ (∃ leg ∈ p.branches, leg.candidate = c) ∧ c.eligible opt := by
  rw [expandParallel, mem_filter, mem_map]

section Rolls

omit [QueryValues Q]

@[simp] def totalWeight (bs : List (WeightedBranch Q)) : ℤ :=
  (bs.map fun b => effectiveWeight b.weight).sum

@[simp] lemma totalWeight_cons (b : WeightedBranch Q) (bs : List (WeightedBranch Q)) :
    totalWeight (b :: bs) = effectiveWeight b.weight + totalWeight bs := by
  simp

lemma effectiveWeight_pos (weight : ℤ) : 0 < effectiveWeight weight := by
  unfold effectiveWeight
  split_ifs <;> omega

lemma totalWeight_nonneg (bs : List (WeightedBranch Q)) : 0 ≤ totalWeight bs := by
  induction bs with
  | nil => simp
  | cons b bs ih =>
    have := effectiveWeight_pos b.weight
    rw [totalWeight_cons]
    omega

variable {bs : List (WeightedBranch Q)}

/-- The rolls, in order, choose every branch as often as it weighs. -/
lemma map_rolledBranch (bs : List (WeightedBranch Q)) (start : ℤ) :
    (range (totalWeight bs).toNat).map (fun roll : ℕ => rolledBranch (start + roll) start bs) =
      bs.flatMap fun b => replicate (effectiveWeight b.weight).toNat (some b) := by
  induction bs generalizing start with
  | nil => simp
  | cons b bs ih =>
    have hpos := effectiveWeight_pos b.weight
    have hrest := totalWeight_nonneg bs
    rw [totalWeight_cons, Int.toNat_add hpos.le hrest, range_add, map_append, flatMap_cons]
    congr 1
    · refine eq_replicate_iff.mpr ⟨by simp, ?_⟩
      simp only [mem_map, mem_range]
      rintro _ ⟨roll, hroll, rfl⟩
      rw [rolledBranch, if_pos (by omega)]
    · rw [← ih (start + effectiveWeight b.weight), map_map]
      refine map_congr_left fun roll _ => ?_
      rw [Function.comp_apply, rolledBranch, if_neg (by omega)]
      congr 1
      omega

lemma foldlM_addWeight {start : ℤ} (hstart : start ≤ maxInt64) :
    bs.foldlM addWeight start = if start + totalWeight bs ≤ maxInt64 then
    .ok (start + totalWeight bs)
      else .error .weightedTotalTooLarge := by
  induction bs generalizing start with
  | nil => simp [hstart, pure, Except.pure]
  | cons b bs ih =>
    have hrest := totalWeight_nonneg bs
    rw [foldlM_cons, addWeight, totalWeight_cons, ← add_assoc]
    split_ifs with hlarge hfits hfits
    · omega
    · rfl
    · exact (ih (by omega)).trans (if_pos hfits)
    · exact (ih (by omega)).trans (if_neg hfits)

lemma sumEligibleWeights_eq (hne : bs ≠ []) : sumEligibleWeights bs =
    if totalWeight bs ≤ maxInt64 then .ok (totalWeight bs) else .error .weightedTotalTooLarge := by
  obtain ⟨b, rest, rfl⟩ := exists_cons_of_ne_nil hne
  have hpos := effectiveWeight_pos b.weight
  have hrest := totalWeight_nonneg rest
  rw [sumEligibleWeights, foldlM_addWeight (by decide), zero_add]
  split_ifs with hfits
  · rw [totalWeight_cons] at hfits ⊢
    exact (if_neg (by omega)).trans (if_neg (by omega))
  · rfl

end Rolls

variable {position : ℕ} {consume : Bool}

/-- A roll is refused where the weights do not add up to 64 bits, and chooses a branch everywhere
else. -/
lemma rollWeighted_eq {eligible : List (WeightedBranch Q)} (hne : eligible ≠ []) (opt : PlanOptions)
    (position : ℕ) :
    maxInt64 < totalWeight eligible ∧
    rollWeighted eligible opt position = .error .weightedTotalTooLarge ∨
      totalWeight eligible ≤ maxInt64 ∧
        ∃ b ∈ eligible, rolledBranch (opt.rand.intn position (totalWeight eligible).toNat) 0 eligible = some b ∧
          rollWeighted eligible opt position =
            .ok (b.target.candidate.tagged (b.isFirst && !opt.isRetryPath) .none [], false) := by
  rw [rollWeighted, sumEligibleWeights_eq hne]
  split_ifs with hfits
  · refine .inr ⟨hfits, ?_⟩
    have hpos : 0 < (totalWeight eligible).toNat := by
      obtain ⟨b, rest, rfl⟩ := exists_cons_of_ne_nil hne
      have := effectiveWeight_pos b.weight
      have := totalWeight_nonneg rest
      rw [totalWeight_cons]
      omega
    have hmem := mem_map_of_mem (f := fun roll : ℕ => rolledBranch (0 + roll) 0 eligible)
      (mem_range.mpr (opt.rand.intn_lt position _ hpos))
    rw [map_rolledBranch, mem_flatMap] at hmem
    obtain ⟨b, hb, hrolled⟩ := hmem
    rw [mem_replicate, zero_add] at hrolled
    refine ⟨b, hb, hrolled.2, ?_⟩
    change Except.ok _ = _
    rw [hrolled.2]
    rfl
  · exact .inl ⟨not_le.mp hfits, rfl⟩

lemma rollWeighted_ok {eligible : List (WeightedBranch Q)} (hne : eligible ≠ [])
    (h : rollWeighted eligible opt position = .ok (c, consume)) :
    ∃ b ∈ eligible, ∃ first, c = b.target.candidate.tagged first .none [] := by
  rcases rollWeighted_eq hne opt position with ⟨-, herr⟩ | ⟨-, b, hb, -, hok⟩
  · cases herr.symm.trans h
  · cases hok.symm.trans h
    exact ⟨b, hb, _, rfl⟩

lemma pickWeightedLegacy_ok (h : pickWeightedLegacy w opt position = .ok (c, consume)) :
    ∃ b ∈ w.branches, b.target.candidate.eligible opt ∧
      ∃ first, c = b.target.candidate.tagged first .none [] := by
  unfold pickWeightedLegacy at h
  dsimp only at h
  have horigin : ∃ b ∈ w.branches.filter fun b => b.target.candidate.eligible opt,
      ∃ first, c = b.target.candidate.tagged first .none [] := by
    split_ifs at h with hempty
    · split at h
      · exact rollWeighted_ok (by simpa using hempty) h
      · rename_i first hfirst
        cases h
        have hmem : first ∈ (w.branches.filter fun b => b.target.candidate.eligible opt).filter (·.isFirst) := by
          rw [hfirst]
          exact mem_singleton_self first
        exact ⟨first, (mem_filter.mp hmem).1, true, rfl⟩
      · cases h
    · exact rollWeighted_ok (by simpa using hempty) h
  obtain ⟨b, hb, first, rfl⟩ := horigin
  obtain ⟨hmem, helig⟩ := mem_filter.mp hb
  exact ⟨b, hmem, helig, first, rfl⟩

variable {cands : List (AttemptCandidate Q)}

lemma cycleCandidates_iff {entry : CycleEntry} :
    cycleCandidates w entry opt = some cands ↔
      ∃ b, w.branches.find? (fun b => branchKey b = entry.key) = some b ∧
        cands = (b.members.filter (·.eligible opt)).map (·.tagged false entry.role w.selectorKey) ∧
        cands ≠ [] := by
  unfold cycleCandidates
  cases hfind : w.branches.find? (fun b => branchKey b = entry.key) with
  | none => simp
  | some b =>
    have hkey : branchKey b = entry.key := by simpa using find?_some hfind
    simp only [Option.some.injEq, exists_eq_left']
    cases hb : b.parallel with
    | some p =>
      have hlegs : (expandParallel p opt).map (fun c =>
          { c with interleavedRole := entry.role, selectorKey := w.selectorKey }) =
          (b.members.filter (·.eligible opt)).map (·.tagged false entry.role w.selectorKey) := by
        rw [members_of_some hb]
        refine map_congr_left fun c hc => ?_
        obtain ⟨⟨leg, -, rfl⟩, -⟩ := mem_expandParallel.mp hc
        rfl
      simp only [List.isEmpty_iff]
      rw [← hlegs]
      by_cases hempty : expandParallel p opt = []
      · simp [hempty]
      rw [if_neg hempty, Option.some.injEq]
      constructor
      · rintro rfl
        exact ⟨rfl, by simpa using hempty⟩
      · rintro ⟨rfl, -⟩
        rfl
    | none =>
      have hplain : b.target.key = entry.key := by
        rw [← hkey, branchKey, hb]
      have helig : candidateEligible b.target entry.key opt = b.target.candidate.eligible opt := by
        rw [← hplain]
        rfl
      simp only [helig]
      rw [members_of_none hb, filter_singleton, ← hplain]
      cases b.target.candidate.eligible opt with
      | false => simp
      | true =>
        simp only [Bool.not_true, Bool.false_eq_true, if_false, Option.some.injEq]
        constructor
        · rintro rfl
          exact ⟨rfl, cons_ne_nil _ _⟩
        · rintro ⟨rfl, -⟩
          rfl

lemma cyclePick_ok {state next : CycleState} {i : ℕ}
    (h : cyclePick w opt state i = some (cands, next)) :
    ∃ entry ∈ w.cycle, ¬ (entry.role = .thinker ∧ opt.suppressThinker) ∧
      cycleCandidates w entry opt = some cands := by
  unfold cyclePick at h
  dsimp only at h
  cases hentry : w.cycle[(state.nextIndex.toNat + i) % w.cycle.length]? with
  | none =>
    rw [hentry] at h
    cases h
  | some entry =>
    rw [hentry] at h
    dsimp only at h
    split_ifs at h with hon
    obtain ⟨found, hfound, hpair⟩ := Option.map_eq_some_iff.mp h
    cases hpair
    exact ⟨entry, mem_of_getElem? hentry, hon, hfound⟩

variable {next : Option CycleState}

lemma pickThinkerCycle_ok (hw : alt.weighted = some w) (hplan : w.Plannable)
    (haware : w.thinkerAware)
    (h : pickThinkerCycle w opt = .ok (cands, consume, next)) :
    cands ≠ [] ∧ ∀ c ∈ cands, Planned opt alt c := by
  unfold pickThinkerCycle at h
  cases hsteer : steeredBranch w opt with
  | some b =>
    rw [hsteer] at h
    cases h
    unfold steeredBranch at hsteer
    split_ifs at hsteer
    have hb := mem_of_find?_eq_some hsteer
    have hfound := find?_some hsteer
    rw [Bool.and_eq_true] at hfound
    obtain ⟨hexecutor, hnone⟩ := hplan.first b hb hfound.1
    refine ⟨cons_ne_nil _ _, fun c hc => ?_⟩
    obtain rfl := mem_singleton.mp hc
    have hmarks : Marks opt w b b.role w.selectorKey := .own haware (by simp [hexecutor])
    have hrole : b.role = .executor := by simp [hexecutor]
    rw [hrole] at hmarks
    exact .branch hw hb (by rw [members_of_none hnone]; exact mem_singleton_self _) hfound.2 hmarks
  | none =>
    rw [hsteer] at h
    dsimp only at h
    split at h
    · rename_i found next' hfound
      cases h
      obtain ⟨i, -, hpick⟩ := exists_of_findSome?_eq_some hfound
      obtain ⟨entry, hentry, hon, hcands⟩ := cyclePick_ok hpick
      obtain ⟨b, hfind, rfl, hne⟩ := cycleCandidates_iff.mp hcands
      refine ⟨hne, fun c hc => ?_⟩
      obtain ⟨m, hm, rfl⟩ := mem_map.mp hc
      obtain ⟨hm, helig⟩ := mem_filter.mp hm
      exact .branch hw (mem_of_find?_eq_some hfind) hm helig (.entry haware hentry hfind hon)
    · cases h

lemma pickWeighted_ok (hw : alt.weighted = some w)
    (hplan : w.Plannable) (h : pickWeighted w opt position = .ok (cands, consume, next)) :
    cands ≠ [] ∧ ∀ c ∈ cands, Planned opt alt c := by
  unfold pickWeighted at h
  split_ifs at h with hempty haware
  · exact pickThinkerCycle_ok hw hplan haware h
  obtain ⟨⟨c, consume'⟩, hpick, h⟩ := bind_eq_ok.mp h
  cases h
  obtain ⟨b, hb, helig, first, rfl⟩ := pickWeightedLegacy_ok hpick
  refine ⟨cons_ne_nil _ _, fun c hc => ?_⟩
  obtain rfl := mem_singleton.mp hc
  have hnone : b.parallel = none := by
    by_contra hsome
    exact haware (hplan.parallel b hb hsome).2
  exact .branch hw hb (by rw [members_of_none hnone]; exact mem_singleton_self _) helig
    (.plain (by simpa using haware))

section Sticky

variable {backend : GoStr} {m : AttemptCandidate Q}

lemma stickyTarget_ok {role : Role} (hw : alt.weighted = some w) (hb : b ∈ w.branches)
    (hm : m ∈ b.members)
    (hrole : b.role = role) (hplain : m.interleavedRole = .none ∧ m.selectorKey = [])
    (hon : ¬ (b.isThinker ∧ opt.suppressThinker))
    (h : stickyTarget w b role backend opt m = some (c, next)) : Planned opt alt c := by
  unfold stickyTarget at h
  split_ifs at h with hsticky haware
  · cases h
    subst hrole
    have hbranch : Planned opt alt (m.tagged (b.isFirst && opt.steers) b.role w.selectorKey) :=
      .branch hw hb hm hsticky.2 (.own haware hon)
    exact hbranch
  · cases h
    have hbranch : Planned opt alt (m.tagged (b.isFirst && opt.steers) .none []) :=
      .branch hw hb hm hsticky.2 (.plain (by simpa using haware))
    rw [← hplain.1, ← hplain.2] at hbranch
    exact hbranch

lemma stickyBranch_ok (hw : alt.weighted = some w)
    (hplan : w.Plannable) (hb : b ∈ w.branches)
    (h : stickyBranch w backend opt b = some (c, next)) : Planned opt alt c := by
  unfold stickyBranch at h
  split_ifs at h with hon
  cases hp : b.parallel with
  | some p =>
    rw [hp] at h
    obtain ⟨leg, hleg, h⟩ := exists_of_findSome?_eq_some h
    have hexecutor := (hplan.parallel b hb (by simp [hp])).1
    refine stickyTarget_ok hw hb ?_ (by simp [hexecutor]) ⟨rfl, rfl⟩ hon h
    rw [members_of_some hp]
    exact mem_map_of_mem hleg
  | none =>
    rw [hp] at h
    refine stickyTarget_ok hw hb ?_ rfl ⟨rfl, rfl⟩ hon h
    rw [members_of_none hp]
    exact mem_singleton_self _

omit [QueryValues Q] in
lemma stickyPlain_ok (h : stickyPlain backend opt m = some (c, next)) : c = m ∧ m.eligible opt := by
  unfold stickyPlain at h
  split_ifs at h with hsticky
  cases h
  exact ⟨rfl, hsticky.2⟩

lemma stickyAlt_ok (halt : alt.WellFormed leaf)
    (h : stickyAlt backend opt alt = some (c, next)) : Planned opt alt c := by
  cases halt with
  | primary hp =>
    obtain ⟨rfl, helig⟩ := stickyPlain_ok h
    exact .primary rfl helig
  | weighted hw =>
    obtain ⟨b, hb, h⟩ := exists_of_findSome?_eq_some h
    exact stickyBranch_ok rfl hw.plannable hb h
  | parallel hp =>
    obtain ⟨leg, hleg, h⟩ := exists_of_findSome?_eq_some h
    obtain ⟨rfl, helig⟩ := stickyPlain_ok h
    exact .leg rfl hleg helig

lemma stickyCandidate_ok {sel : Selector Q} (hsel : sel.WellFormed leaf)
    (h : stickyCandidate sel opt = some (c, next)) :
    ∃ alt ∈ sel.alternatives, Planned opt alt c := by
  unfold stickyCandidate at h
  dsimp only at h
  split_ifs at h
  obtain ⟨alt, halt, h⟩ := exists_of_findSome?_eq_some h
  exact ⟨alt, halt, stickyAlt_ok (hsel.alternatives alt halt) h⟩

end Sticky

section Preferred

omit [QueryValues Q]

variable {preferred : List GoStr}

lemma mem_of_mem_reorderPreferredCandidates {list : List (AttemptCandidate Q)}
    (h : c ∈ reorderPreferredCandidates list preferred) : c ∈ list := by
  unfold reorderPreferredCandidates at h
  split_ifs at h
  · exact h
  rcases mem_append.mp h with h | h
  · -- The front is built from candidates that were found in the list.
    revert h
    refine foldlRecOn preferred _ (motive := fun out => c ∈ out → c ∈ list) nofun ?_
    intro out ih k _ hmem
    split_ifs at hmem
    · exact ih hmem
    split at hmem
    · rename_i found hfound
      split_ifs at hmem
      · exact ih hmem
      · rcases mem_append.mp hmem with hmem | hmem
        · exact ih hmem
        · rw [mem_singleton.mp hmem]
          exact mem_of_find?_eq_some hfound
    · exact ih hmem
  · exact (mem_filter.mp h).1

lemma reorderPreferredCandidates_ne_nil {list : List (AttemptCandidate Q)} (preferred : List GoStr)
    (h : list ≠ []) : reorderPreferredCandidates list preferred ≠ [] := by
  unfold reorderPreferredCandidates
  split_ifs
  · exact h
  intro hnil
  obtain ⟨hfront, hrest⟩ := append_eq_nil_iff.mp hnil
  rw [hfront] at hrest
  simp at hrest
  exact h hrest

variable {groups : List (AttemptGroup Q)} {g : AttemptGroup Q}

lemma mem_of_mem_reorderPreferredGroups (h : g ∈ reorderPreferredGroups groups preferred) :
    g ∈ groups := by
  unfold reorderPreferredGroups at h
  split_ifs at h
  · exact h
  rcases mem_append.mp h with h | h
  · obtain ⟨i, -, hi⟩ := mem_filterMap.mp h
    exact mem_of_getElem? hi
  · obtain ⟨⟨g', i⟩, hg, rfl⟩ := mem_map.mp h
    exact fst_mem_of_mem_zipIdx (mem_filter.mp hg).1

lemma mem_reorderPreferredGroups (preferred : List GoStr) (h : g ∈ groups) :
    g ∈ reorderPreferredGroups groups preferred := by
  unfold reorderPreferredGroups
  split_ifs
  · exact h
  set front := preferred.foldl _ _
  obtain ⟨i, hi⟩ := mem_iff_getElem?.mp h
  refine mem_append.mpr ?_
  by_cases hfront : i ∈ front
  · exact .inl (mem_filterMap.mpr ⟨i, hfront, hi⟩)
  · refine .inr (mem_map.mpr ⟨(g, i), mem_filter.mpr ⟨?_, by simpa using hfront⟩, rfl⟩)
    exact mk_mem_zipIdx_iff_getElem?.mpr hi

end Preferred

variable {groups : List (AttemptGroup Q)} {sel : Selector Q}

lemma planAlt_ok {g : AttemptGroup Q} (halt : alt.WellFormed leaf)
    (h : planAlt opt position alt = .ok (some g, session)) :
    g.candidates ≠ [] ∧ ∀ c ∈ g.candidates, Planned opt alt c := by
  cases halt with
  | @primary p hp =>
    simp only [planAlt, Except.ok.injEq, Prod.mk.injEq, Option.ite_none_right_eq_some, Option.some.injEq] at h
    obtain ⟨⟨helig, rfl⟩, -⟩ := h
    refine ⟨cons_ne_nil _ _, fun c hc => ?_⟩
    obtain rfl := mem_singleton.mp hc
    exact .primary rfl helig
  | @weighted w hw =>
    unfold planAlt at h
    dsimp only at h
    split at h
    · cases h
    · cases h
    · rename_i cands consume next hpick
      cases h
      exact pickWeighted_ok rfl hw.plannable hpick
  | @parallel p hp =>
    unfold planAlt at h
    dsimp only at h
    split_ifs at h with hempty
    · cases h
    · cases h
      refine ⟨reorderPreferredCandidates_ne_nil _ (by simpa using hempty), fun c hc => ?_⟩
      obtain ⟨⟨leg, hleg, rfl⟩, helig⟩ :=
        mem_expandParallel.mp (mem_of_mem_reorderPreferredCandidates hc)
      exact .leg rfl hleg helig

lemma planAlt_weighted (h : pickWeighted w opt position = .ok (cands, false, next)) :
    planAlt opt position { weighted := some w } =
      .ok (some { candidates := cands, nextThinkerCycle := next }, opt.session) := by
  unfold planAlt
  dsimp only
  rw [h]
  rfl

variable {alts : List (FailoverAlt Q)}

lemma planAlts_cons : (planAlts opt position session (alt :: alts)).1 =
    planAlt { opt with session } position alt >>= fun r =>
      (planAlts opt (position + 1) r.2 alts).1 >>= fun rest => .ok (r.1.toList ++ rest) := by
  rw [planAlts]
  cases planAlt { opt with session } position alt with
  | error => rfl
  | ok r =>
    obtain ⟨group, session'⟩ := r
    change Except.map _ (planAlts opt (position + 1) session' alts).1 =
      (planAlts opt (position + 1) session' alts).1 >>= fun rest => .ok (group.toList ++ rest)
    cases (planAlts opt (position + 1) session' alts).1 <;> rfl

lemma planAlts_cons_ok (h : (planAlts opt position session (alt :: alts)).1 = .ok groups) :
    ∃ group session' rest, planAlt { opt with session } position alt = .ok (group, session') ∧
      (planAlts opt (position + 1) session' alts).1 = .ok rest ∧ groups = group.toList ++ rest := by
  rw [planAlts_cons] at h
  obtain ⟨⟨group, session'⟩, hplan, h⟩ := bind_eq_ok.mp h
  obtain ⟨rest, hrest, h⟩ := bind_eq_ok.mp h
  cases h
  exact ⟨group, session', rest, hplan, hrest, rfl⟩

/-- Every group that is planned has a candidate, and all its candidates are planned for an
alternative. -/
lemma planAlts_ok (halts : ∀ alt ∈ alts, alt.WellFormed leaf)
    (h : (planAlts opt position session alts).1 = .ok groups) :
    ∀ g ∈ groups, g.candidates ≠ [] ∧ ∀ c ∈ g.candidates, ∃ alt ∈ alts, Planned opt alt c := by
  induction alts generalizing position session groups with
  | nil =>
    cases h
    nofun
  | cons alt alts ih =>
    obtain ⟨group, session', rest, hplan, hrest, rfl⟩ := planAlts_cons_ok h
    intro g hg
    rcases mem_append.mp hg with hg | hg
    · obtain rfl : group = some g := Option.mem_toList.mp hg
      obtain ⟨hne, hall⟩ := planAlt_ok (halts alt mem_cons_self) hplan
      exact ⟨hne, fun c hc => ⟨alt, mem_cons_self, (hall c hc).of_session⟩⟩
    · obtain ⟨hne, hall⟩ := ih (fun alt' h' => halts alt' (mem_cons_of_mem alt h')) hrest g hg
      refine ⟨hne, fun c hc => ?_⟩
      obtain ⟨alt', halt', hplanned⟩ := hall c hc
      exact ⟨alt', mem_cons_of_mem alt halt', hplanned⟩

lemma planAlts_mem (h : (planAlts opt position session alts).1 = .ok groups) (halt : alt ∈ alts) :
    ∃ session' position' group session'',
      planAlt { opt with session := session' } position' alt = .ok (group, session'') ∧
      ∀ g, group = some g → g ∈ groups := by
  induction alts generalizing position session groups with
  | nil => cases halt
  | cons alt' alts ih =>
    obtain ⟨group, session', rest, hplan, hrest, rfl⟩ := planAlts_cons_ok h
    rcases mem_cons.mp halt with rfl | halt
    · refine ⟨session, position, group, session', hplan, fun g hg => ?_⟩
      rw [hg]
      exact mem_cons_self
    · obtain ⟨session1, position1, group1, session2, hplan1, hmem⟩ := ih hrest halt
      exact ⟨session1, position1, group1, session2, hplan1, fun g hg => mem_append_right _ (hmem g hg)⟩

lemma expandFailoverGroups_eq (h : stickyCandidate sel opt = none) :
    (expandFailoverGroups sel opt).1 = (planAlts opt 0 opt.session sel.alternatives).1 >>=
    fun planned => if planned.isEmpty then .error .noEligibleCandidate
      else .ok (reorderPreferredGroups planned opt.preferredCandidateKeys) := by
  rw [expandFailoverGroups, h]
  rfl

lemma expandFailoverGroups_cases (h : (expandFailoverGroups sel opt).1 = .ok groups) :
    (∃ c next, stickyCandidate sel opt = some (c, next) ∧ groups = [{ candidates := [c], nextThinkerCycle := next }]) ∨
    ∃ planned, stickyCandidate sel opt = none ∧
      (planAlts opt 0 opt.session sel.alternatives).1 = .ok planned ∧ planned ≠ [] ∧
      groups = reorderPreferredGroups planned opt.preferredCandidateKeys := by
  cases hsticky : stickyCandidate sel opt with
  | some found =>
    rw [expandFailoverGroups, hsticky] at h
    cases h
    exact .inl ⟨found.1, found.2, rfl, rfl⟩
  | none =>
    rw [expandFailoverGroups_eq hsticky] at h
    obtain ⟨planned, hplan, h⟩ := bind_eq_ok.mp h
    split_ifs at h with hempty
    cases h
    exact .inr ⟨planned, rfl, hplan, by simpa using hempty, rfl⟩

lemma expandFailoverGroups_ok (hsel : sel.WellFormed leaf)
    (h : (expandFailoverGroups sel opt).1 = .ok groups) :
    ∀ g ∈ groups, ∀ c ∈ g.candidates, ∃ alt ∈ sel.alternatives, Planned opt alt c := by
  intro g hg c hc
  obtain ⟨sticky, next, hsticky, rfl⟩ | ⟨planned, -, hplan, -, rfl⟩ := expandFailoverGroups_cases h
  · obtain rfl := mem_singleton.mp hg
    obtain rfl := mem_singleton.mp hc
    exact stickyCandidate_ok hsel hsticky
  · exact (planAlts_ok hsel.alternatives hplan g (mem_of_mem_reorderPreferredGroups hg)).2 c hc

lemma requestSizeEligible_iff {c : RequestSizeConstraint} {est : RequestSizeEstimate} :
    requestSizeEligible c est ↔ est.available →
      (∀ high, c.maxContextTokens = some high → est.tokens ≤ high) ∧
      (∀ low, c.minContextTokens = some low → low < est.tokens) := by
  unfold requestSizeEligible
  cases est.available with
  | false => simp
  | true => cases c.maxContextTokens <;> cases c.minContextTokens <;> simp

omit [QueryValues Q] in
lemma candidateEligible_iff {p : Primary Q} {key : GoStr} : candidateEligible p key opt ↔
      key ∉ opt.excluded ∧ key ∉ opt.unhealthy ∧ requestSizeEligible p.size opt.requestSize := by
  unfold candidateEligible
  by_cases hkey : key ∈ opt.excluded ∨ key ∈ opt.unhealthy
  · rcases hkey with hkey | hkey <;> simp [hkey]
  · rw [not_or] at hkey
    simp [hkey]

lemma Planned.eligible (h : Planned opt alt c) : candidateEligible c.primary c.key opt := by
  cases h with
  | primary _ helig | leg _ _ helig | branch _ _ _ helig => exact helig

lemma Planned.not_suppressed
    (h : Planned opt alt c) (hrole : c.interleavedRole = .thinker) :
    opt.suppressThinker = false := by
  cases h with
  | primary | leg => cases hrole
  | @branch w b m first role key hw hb hm helig hmarks =>
    cases hmarks with
    | plain => cases hrole
    | own haware hon =>
      have hthinker : b.isThinker := by
        by_contra hexecutor
        have hrole : b.role = .thinker := hrole
        simp [hexecutor] at hrole
      simpa [hthinker] using hon
    | @entry haware entry hentry hfind hon =>
      have hrole : entry.role = .thinker := hrole
      simpa [hrole] using hon

/-- Whatever path a candidate takes through the planner, it is eligible, and a suppressed thinker is
not planned. -/
theorem planned_candidates_sound (raw : GoStr) (aliases : Option (List AliasRule))
    (defaultBackend : GoStr)
    (sel : Selector Q) (hsel : compileSelector raw aliases defaultBackend = .ok sel)
    (opt : PlanOptions)
    (groups : List (AttemptGroup Q)) (hplan : (expandFailoverGroups sel opt).1 = .ok groups) :
    ∀ g ∈ groups, ∀ c ∈ g.candidates,
      c.key ∉ opt.excluded ∧ c.key ∉ opt.unhealthy ∧
      (opt.requestSize.available →
        (∀ high, c.primary.size.maxContextTokens = some high → opt.requestSize.tokens ≤ high) ∧
        ∀ low, c.primary.size.minContextTokens = some low → low < opt.requestSize.tokens) ∧
      (opt.suppressThinker → c.interleavedRole ≠ .thinker) := by
  intro g hg c hc
  obtain ⟨alt, -, hplanned⟩ := expandFailoverGroups_ok (compileSelector_ok hsel).1 hplan g hg c hc
  obtain ⟨hexcluded, hhealthy, hsize⟩ := candidateEligible_iff.mp hplanned.eligible
  refine ⟨hexcluded, hhealthy, requestSizeEligible_iff.mp hsize, ?_⟩
  intro hsuppress hrole
  rw [hplanned.not_suppressed hrole] at hsuppress
  cases hsuppress

def lowRolls : Rng := ⟨fun _ _ => 0, fun _ _ h => h⟩

theorem planned_candidates_sound_suppressed :
    ∃ (sel : Selector GoStr) (groups : List (AttemptGroup GoStr)),
      compileSelector (lit "[thinker]a:m^[max_context=8K]b:n|c:o") none [] = .ok sel ∧
      (expandFailoverGroups sel { rand := lowRolls, suppressThinker := true }).1 = .ok groups ∧
      ∀ g ∈ groups, ∀ c ∈ g.candidates, true → c.interleavedRole ≠ .thinker :=
  ⟨_, _, by rfl, by rfl, fun g hg c hc =>
    (planned_candidates_sound (lit "[thinker]a:m^[max_context=8K]b:n|c:o") none [] _ (by rfl)
      { rand := lowRolls, suppressThinker := true } _ (by rfl) g hg c hc).2.2.2⟩

lemma members_primary (b : WeightedBranch Q) : b.members.map (·.primary) = b.targets := by
  unfold members targets
  cases b.parallel with
  | none => rfl
  | some p => exact map_map

lemma Planned.key_eq (h : Planned opt alt c) : c.key = c.primary.key := by
  cases h with
  | primary | leg => rfl
  | @branch w b m first role key hw hb hm helig hmarks =>
    cases hparallel : b.parallel with
    | none =>
      rw [members_of_none hparallel] at hm
      rw [mem_singleton.mp hm]
      rfl
    | some p =>
      rw [members_of_some hparallel] at hm
      obtain ⟨leg, -, rfl⟩ := mem_map.mp hm
      rfl

lemma Planned.primary_mem (halt : alt.WellFormed leaf) (h : Planned opt alt c) :
    c.primary ∈ alt.targets := by
  cases h with
  | primary hp helig =>
    cases halt with
    | primary =>
      cases hp
      exact mem_singleton_self _
    | weighted | parallel => cases hp
  | leg hp hleg helig =>
    cases halt with
    | primary | weighted => cases hp
    | parallel =>
      cases hp
      exact mem_map_of_mem hleg
  | @branch w b m first role key hw hb hm helig hmarks =>
    obtain ⟨-, rfl⟩ := halt.of_weighted hw
    refine mem_flatMap.mpr ⟨b, hb, ?_⟩
    rw [← members_primary]
    exact mem_map.mpr ⟨m, hm, rfl⟩

omit [QueryValues Q] in
lemma rejectUnknownBackends_ok {known : Finset GoStr}
    (h : rejectUnknownBackends sel (some known) = .ok ()) :
    ∀ id ∈ backendIDsReferenced sel, id ∈ known := by
  intro id hid
  by_contra hunknown
  unfold rejectUnknownBackends at h
  cases hfind : (backendIDsReferenced sel).find? (· ∉ known) with
  | none => exact find?_eq_none.mp hfind id hid (by simpa using hunknown)
  | some other =>
    dsimp only at h
    rw [hfind] at h
    cases h

omit [QueryValues Q] in
lemma backend_ne_nil (hsel : sel.WellFormed leaf)
    (hempty : selectorHasEmptyBackend sel = false) {p : Primary Q} (hp : p ∈ sel.targets) :
    trimSpace p.backend ≠ [] := by
  obtain ⟨alt, halt, hp⟩ := mem_flatMap.mp hp
  unfold selectorHasEmptyBackend at hempty
  rw [any_eq_false] at hempty
  have hone := hempty alt halt
  cases hsel.alternatives alt halt with
  | primary =>
    rw [mem_singleton.mp hp]
    simpa using hone
  | @weighted w hw =>
    obtain ⟨b, hb, hp⟩ := mem_flatMap.mp hp
    simp only [Option.any_none, Option.any_some, Bool.false_or, Bool.or_false, any_eq_true, not_exists, not_and] at hone
    have hbranch := hone b hb
    unfold targets at hp
    unfold weightedBranchHasEmptyBackend at hbranch
    cases hparallel : b.parallel with
    | none =>
      rw [hparallel] at hp hbranch
      rw [mem_singleton.mp hp]
      simpa using hbranch
    | some group =>
      rw [hparallel] at hp hbranch
      obtain ⟨leg, hleg, rfl⟩ := mem_map.mp hp
      intro hnil
      exact hbranch (any_eq_true.mpr ⟨leg, hleg, by simpa using hnil⟩)
  | @parallel group hgroup =>
    obtain ⟨leg, hleg, rfl⟩ := mem_map.mp hp
    intro hnil
    apply hone
    exact any_eq_true.mpr ⟨leg, hleg, by simpa using hnil⟩

/-- The allow list of a generation holds for every candidate that planning can produce. -/
theorem validated_backends_known (v : GenerationValidator) (known : Finset GoStr)
    (hknown : v.knownBackends = some known) (raw : GoStr)
    (hvalid : validateSelector Q (some v) raw = .ok ())
    (sel : Selector Q) (hsel : compileSelector raw v.aliases v.defaultBackend = .ok sel)
    (opt : PlanOptions)
    (groups : List (AttemptGroup Q)) (hplan : (expandFailoverGroups sel opt).1 = .ok groups) :
    ∀ g ∈ groups, ∀ c ∈ g.candidates, c.primary.backend ∈ known := by
  obtain ⟨sel', hsel', hvalid⟩ := bind_eq_ok.mp hvalid
  obtain ⟨_, hreject, -⟩ := bind_eq_ok.mp hvalid
  cases hsel'.symm.trans hsel
  rw [hknown] at hreject
  obtain ⟨hwell, hempty⟩ := compileSelector_ok hsel
  intro g hg c hc
  obtain ⟨alt, halt, hplanned⟩ := expandFailoverGroups_ok hwell hplan g hg c hc
  have hmem := hplanned.primary_mem (hwell.alternatives alt halt)
  have htrimmed := (hwell.alternatives alt halt).targets c.primary hmem
  have hne := backend_ne_nil hwell hempty (mem_flatMap.mpr ⟨alt, halt, hmem⟩)
  apply rejectUnknownBackends_ok hreject
  rw [← htrimmed]
  refine mem_filter.mpr ⟨mem_map.mpr ⟨c.primary, mem_flatMap.mpr ⟨alt, halt, hmem⟩, rfl⟩, ?_⟩
  simpa using hne

def smallGeneration : GenerationValidator where
  aliases := none
  defaultBackend := lit "a"
  knownBackends := some {lit "a", lit "b"}
  resolver := some fun _ => some .inference
  policy := .safe

theorem validated_backends_known_hybrid :
    ∃ (sel : Selector GoStr) (groups : List (AttemptGroup GoStr)),
      validateSelector GoStr (some smallGeneration) (lit "[thinker]m^n!b:o") = .ok () ∧
      compileSelector (lit "[thinker]m^n!b:o") none (lit "a") = .ok sel ∧
      (expandFailoverGroups sel { rand := lowRolls }).1 = .ok groups ∧
      ∀ g ∈ groups, ∀ c ∈ g.candidates, c.primary.backend ∈ ({lit "a", lit "b"} : Finset GoStr) :=
  ⟨_, _, by rfl, by rfl, by rfl, validated_backends_known smallGeneration _ rfl (lit "[thinker]m^n!b:o")
    (by rfl) _ (by rfl) { rand := lowRolls } _ (by rfl)⟩

end InteractiveProxy.Routing
