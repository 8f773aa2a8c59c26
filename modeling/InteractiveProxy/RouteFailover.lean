import InteractiveProxy.CyclicCount
import InteractiveProxy.RouteOrigins

/-! The cycle of a group with a thinker, which picks every entry once a turn, and failover: the
executor plans, attempts a candidate of the plan, excludes its key and plans again, until the
planner finds nothing eligible. -/
namespace InteractiveProxy.Routing

open GoText GuardedRun CyclicCount List WeightedBranch

variable {Q : Type} [QueryValues Q] {leaf : Primary Q → Prop} {opt : PlanOptions} {w : Weighted Q}
  {sel : Selector Q}
  {groups : List (AttemptGroup Q)} {alt : FailoverAlt Q} {entry : CycleEntry} {b : WeightedBranch Q}
  {cands : List (AttemptCandidate Q)}

section Cycle

lemma mem_cycle (h : entry ∈ w.cycle) :
    ∃ b ∈ w.branches, entry = { key := branchKey b, role := b.role } := by
  rcases mem_append.mp h with h | h
  · obtain ⟨b, hb, h⟩ := mem_flatMap.mp h
    obtain ⟨hmem, hexecutor⟩ := mem_filter.mp hb
    refine ⟨b, hmem, ?_⟩
    rw [eq_of_mem_replicate h]
    simp at hexecutor
    simp [hexecutor]
  · obtain ⟨b, hb, rfl⟩ := Option.map_eq_some_iff.mp (Option.mem_toList.mp h)
    refine ⟨b, mem_of_find?_eq_some hb, ?_⟩
    have hthinker : b.isThinker := by simpa using find?_some hb
    simp [hthinker]

lemma thinkerCycleWeight_pos (weight : ℤ) : 0 < thinkerCycleWeight weight := by
  have := effectiveWeight_pos weight
  unfold thinkerCycleWeight maxThinkerCycleWeightRepeats
  split_ifs <;> omega

omit [QueryValues Q] in
lemma find_thinker {bs : List (WeightedBranch Q)} (hone : bs.countP (·.isThinker) ≤ 1) (hb : b ∈ bs)
    (hthinker : b.isThinker) : bs.find? (·.isThinker) = some b := by
  induction bs with
  | nil => cases hb
  | cons b' bs ih =>
    rw [countP_cons] at hone
    by_cases hb' : b'.isThinker
    · rw [find?_cons_of_pos hb']
      rcases mem_cons.mp hb with rfl | hb
      · rfl
      · have : 0 < bs.countP (·.isThinker) := countP_pos_iff.mpr ⟨b, hb, hthinker⟩
        rw [if_pos hb'] at hone
        omega
    · rw [find?_cons_of_neg hb']
      rcases mem_cons.mp hb with rfl | hb
      · exact absurd hthinker hb'
      · exact ih (by rw [if_neg hb'] at hone; omega) hb

lemma entry_mem_cycle (hone : w.branches.countP (·.isThinker) ≤ 1) (hb : b ∈ w.branches) :
    { key := branchKey b, role := b.role } ∈ w.cycle := by
  refine mem_append.mpr ?_
  by_cases hthinker : b.isThinker
  · rw [find_thinker hone hb hthinker]
    simp [hthinker]
  · refine .inl (mem_flatMap.mpr ⟨b, mem_filter.mpr ⟨hb, by simpa using hthinker⟩, ?_⟩)
    have := thinkerCycleWeight_pos b.weight
    refine mem_replicate.mpr ⟨by omega, ?_⟩
    simp [hthinker]

end Cycle

section Cursor

def cycleIndex (w : Weighted Q) (state : CycleState) : ℕ := (cycleStart w state).nextIndex.toNat

lemma cycleStart_eq (state : CycleState) (hne : w.cycle ≠ []) :
    cycleStart w state = ⟨w.selectorKey, w.cycle, cycleIndex w state⟩ ∧
    cycleIndex w state < w.cycle.length := by
  have hpos := length_pos_iff.mpr hne
  unfold cycleIndex cycleStart
  by_cases hvalid : cycleValid w state
  · rw [if_pos hvalid]
    simp only [cycleValid, Bool.and_eq_true, beq_iff_eq] at hvalid
    obtain ⟨⟨-, hkey⟩, hseq⟩ := hvalid
    split_ifs with hrange
    · exact ⟨by rw [hkey, hseq]; rfl, hpos⟩
    · rw [not_or, not_lt] at hrange
      refine ⟨?_, by omega⟩
      rw [Int.toNat_of_nonneg hrange.1, ← hkey, ← hseq]
  · rw [if_neg hvalid]
    exact ⟨rfl, hpos⟩

lemma pickThinkerCycle_eq (hsteer : steeredBranch w opt = none)
    (hentry : w.cycle[cycleIndex w opt.thinkerCycle]? = some entry)
    (hon : ¬ (entry.role = .thinker ∧ opt.suppressThinker))
    (hcands : cycleCandidates w entry opt = some cands) :
    pickThinkerCycle w opt = .ok (cands, false, some
      ⟨w.selectorKey, w.cycle, ((cycleIndex w opt.thinkerCycle + 1) % w.cycle.length : ℕ)⟩) := by
  have hne : w.cycle ≠ [] := ne_nil_of_mem (mem_of_getElem? hentry)
  obtain ⟨hstart, hlt⟩ := cycleStart_eq opt.thinkerCycle hne
  obtain ⟨n, hn⟩ := Nat.exists_eq_succ_of_ne_zero (by simpa using hne : w.cycle.length ≠ 0)
  unfold pickThinkerCycle
  rw [hsteer, hstart]
  have hpick : cyclePick w opt ⟨w.selectorKey, w.cycle, cycleIndex w opt.thinkerCycle⟩ 0 =
      some (cands, ⟨w.selectorKey, w.cycle, ((cycleIndex w opt.thinkerCycle + 1) % w.cycle.length : ℕ)⟩) := by
    unfold cyclePick
    simp [Nat.mod_eq_of_lt hlt, hentry, if_neg hon, hcands]
  have hrange : range w.cycle.length = 0 :: (range n).map Nat.succ := by
    rw [hn, range_succ_eq_map]
  rw [hrange, findSome?_cons, hpick]

lemma cycleIndex_of_lt {i : ℕ} (h : i < w.cycle.length) :
    cycleIndex w ⟨w.selectorKey, w.cycle, i⟩ = i := by
  have hne : w.cycle ≠ [] := length_pos_iff.mp (by omega)
  have hvalid : cycleValid w ⟨w.selectorKey, w.cycle, i⟩ := by simp [cycleValid, hne]
  have hrange : ¬ ((i : ℤ) < 0 ∨ (i : ℤ) ≥ w.cycle.length) := by omega
  unfold cycleIndex cycleStart
  rw [if_pos hvalid, if_neg hrange]
  exact Int.toNat_natCast i

end Cursor

section Runs

/-- Each pick stores its cursor for the next. -/
def cycleStates (w : Weighted Q) (opts : ℕ → PlanOptions) (position : ℕ) (start : CycleState) :
    ℕ → CycleState
  | 0 => start
  | k + 1 =>
    match pickWeighted w { opts k with thinkerCycle := cycleStates w opts position start k } position with
    | .ok (_, _, some next) => next
    | _ => cycleStates w opts position start k

def cycleRun (w : Weighted Q) (opts : ℕ → PlanOptions) (position : ℕ) (start : CycleState) (k : ℕ) :
    Except RouteError (List (AttemptCandidate Q) × Bool × Option CycleState) :=
  pickWeighted w { opts k with thinkerCycle := cycleStates w opts position start k } position

/-- A pick takes a branch: every candidate has the role of the branch, and for an executor with one
target also its key. A parallel branch is the only executor of its group. -/
def chooses (b : WeightedBranch Q) :
    Except RouteError (List (AttemptCandidate Q) × Bool × Option CycleState) → Bool
  | .ok (cands, _, _) =>
    !cands.isEmpty && cands.all fun c =>
      c.interleavedRole == b.role && (b.isThinker || b.parallel.isSome || c.key == branchKey b)
  | .error _ => false

def EntryOf (b : WeightedBranch Q) (entry : CycleEntry) : Prop :=
  entry.role = b.role ∧ (b.isThinker = false → b.parallel = none → entry.key = branchKey b)
  deriving Decidable

variable (hw : w.WellFormed leaf)
include hw

variable {b' : WeightedBranch Q}

omit [QueryValues Q] in
lemma parallel_none (hb : b ∈ w.branches) (hexecutor : b.isThinker = false)
    (hplain : b.parallel = none) (hb' : b' ∈ w.branches) : b'.parallel = none := by
  by_contra hsome
  have honly := (hw.branches b' hb').only_executor (Option.isSome_iff_ne_none.mpr hsome)
  have hmem : b ∈ w.branches.filter (!·.isThinker) := mem_filter.mpr ⟨hb, by simp [hexecutor]⟩
  rw [honly.2.2, mem_singleton] at hmem
  rw [hmem] at hplain
  exact hsome hplain

lemma pickWeighted_of_thinker (haware : w.thinkerAware) (position : ℕ) :
    pickWeighted w opt position = pickThinkerCycle w opt := by
  unfold pickWeighted
  rw [if_neg (by simpa using hw.nonempty), if_pos haware]

lemma chooses_iff {next : Option CycleState}
    (hcands : cycleCandidates w entry opt = some cands) (hb : b ∈ w.branches) :
    chooses b (.ok (cands, false, next)) ↔ EntryOf b entry := by
  obtain ⟨found, hfind, hcands, hne⟩ := cycleCandidates_iff.mp hcands
  have hfound : found ∈ w.branches := mem_of_find?_eq_some hfind
  have hkey : branchKey found = entry.key := by simpa using find?_some hfind
  have hrole : ∀ c ∈ cands, c.interleavedRole = entry.role := by
    intro c hc
    obtain ⟨m, -, rfl⟩ := mem_map.mp (hcands ▸ hc)
    rfl
  have hplain : b.isThinker = false → b.parallel = none → ∀ c ∈ cands, c.key = entry.key := by
    intro hexecutor hnone c hc
    have hnone' := parallel_none hw hb hexecutor hnone hfound
    obtain ⟨m, hm, rfl⟩ := mem_map.mp (hcands ▸ hc)
    have hm := (mem_filter.mp hm).1
    rw [members_of_none hnone', mem_singleton] at hm
    rw [hm, ← hkey, branchKey, hnone']
    rfl
  obtain ⟨c0, hc0⟩ := exists_mem_of_ne_nil cands hne
  simp only [chooses, Bool.and_eq_true, Bool.not_eq_true', isEmpty_eq_false_iff, all_eq_true,
    beq_iff_eq, Bool.or_eq_true]
  constructor
  · rintro ⟨-, hall⟩
    refine ⟨(hrole c0 hc0).symm.trans (hall c0 hc0).1, fun hexecutor hnone => ?_⟩
    rcases (hall c0 hc0).2 with (hthinker | hsome) | hkey'
    · rw [hexecutor] at hthinker
      cases hthinker
    · rw [hnone] at hsome
      cases hsome
    · exact (hplain hexecutor hnone c0 hc0).symm.trans hkey'
  · rintro ⟨hsame, hentry⟩
    refine ⟨hne, fun c hc => ⟨(hrole c hc).trans hsame, ?_⟩⟩
    by_cases hthinker : b.isThinker
    · exact .inl (.inl hthinker)
    by_cases hnone : b.parallel = none
    · refine .inr ?_
      rw [hplain (by simpa using hthinker) hnone c hc]
      exact hentry (by simpa using hthinker) hnone
    · exact .inl (.inr (Option.isSome_iff_ne_none.mpr hnone))

lemma entryOf_executor_iff (hb : b ∈ w.branches) (hexecutor : b.isThinker = false)
    (hb' : b' ∈ w.branches.filter (!·.isThinker)) :
    EntryOf b { key := branchKey b', role := .executor } ↔ branchKey b' = branchKey b := by
  have hrole : b.role = .executor := by simp [hexecutor]
  constructor
  · rintro ⟨-, hkey⟩
    by_cases hnone : b.parallel = none
    · exact hkey hexecutor hnone
    · rw [((hw.branches b hb).only_executor (Option.isSome_iff_ne_none.mpr hnone)).2.2, mem_singleton] at hb'
      rw [hb']
  · intro hkey
    exact ⟨hrole.symm, fun _ _ => hkey⟩

lemma countP_entryOf (hkeys : ((w.branches.filter (!·.isThinker)).map branchKey).Nodup)
    (hb : b ∈ w.branches) : w.cycle.countP (fun entry => decide (EntryOf b entry)) =
      if b.isThinker then 1 else (thinkerCycleWeight b.weight).toNat := by
  unfold Weighted.cycle
  rw [countP_append, countP_flatMap]
  simp only [Function.comp_def, countP_replicate, decide_eq_true_eq]
  by_cases hthinker : b.isThinker
  · have hexecutors : ∀ key, ¬ EntryOf b { key, role := .executor } := by simp [EntryOf, hthinker]
    have hone : EntryOf b { key := branchKey b, role := .thinker } := by simp [EntryOf, hthinker]
    rw [if_pos hthinker, find_thinker hw.one_thinker hb hthinker]
    simp [hexecutors, hone]
  · have hexecutor : b.isThinker = false := by simpa using hthinker
    have hthinkers : ∀ key, ¬ EntryOf b { key, role := .thinker } := by simp [EntryOf, hthinker]
    have hsum : ((w.branches.filter (!·.isThinker)).map fun b' =>
        if EntryOf b { key := branchKey b', role := .executor } then
          (thinkerCycleWeight b'.weight).toNat else 0).sum =
        (thinkerCycleWeight b.weight).toNat := by
      rw [← sum_of_key (fun b' => (thinkerCycleWeight b'.weight).toNat) hkeys
        (mem_filter.mpr ⟨hb, by simp [hexecutor]⟩)]
      refine congrArg sum (map_congr_left fun b' hb' => ?_)
      simp only [entryOf_executor_iff hw hb hexecutor hb']
    rw [if_neg hthinker, hsum]
    cases w.branches.find? (·.isThinker) with
    | none => simp
    | some t => simp [hthinkers]

omit hw

/-- Runs in which every branch of a group with a thinker stays eligible and no branch is preferred.
-/
structure Steady (leaf : Primary Q → Prop) (w : Weighted Q) (opts : ℕ → PlanOptions) : Prop where
  wellFormed : w.WellFormed leaf
  first : ∀ b ∈ w.branches, b.isFirst = false
  elig : ∀ k, ∀ b ∈ w.branches, ∃ m ∈ b.members, m.eligible (opts k)
  on : ∀ k, (opts k).suppressThinker = false
  aware : w.thinkerAware

variable {opts : ℕ → PlanOptions} (h : Steady leaf w opts)
include h

lemma Steady.cycle_ne_nil : w.cycle ≠ [] := by
  obtain ⟨t, ht, -⟩ := any_eq_true.mp h.aware
  exact ne_nil_of_mem (entry_mem_cycle h.wellFormed.one_thinker ht)

lemma Steady.pick (state : CycleState) (position k : ℕ) :
    ∃ entry cands, w.cycle[cycleIndex w state]? = some entry ∧
    cycleCandidates w entry (opts k) = some cands ∧
      pickWeighted w { opts k with thinkerCycle := state } position =
        .ok (cands, false, some ⟨w.selectorKey, w.cycle, ((cycleIndex w state + 1) % w.cycle.length : ℕ)⟩) := by
  have hentry := getElem?_eq_getElem (cycleStart_eq state h.cycle_ne_nil).2
  obtain ⟨b, hb, hbranch⟩ := mem_cycle (mem_of_getElem? hentry)
  rw [hbranch] at hentry
  obtain ⟨found, hfind⟩ :
      ∃ found, w.branches.find? (fun b' => branchKey b' = branchKey b) = some found :=
    Option.isSome_iff_exists.mp (find?_isSome.mpr ⟨b, hb, by simp⟩)
  obtain ⟨m, hm, hmelig⟩ := h.elig k found (mem_of_find?_eq_some hfind)
  have hcands : cycleCandidates w ⟨branchKey b, b.role⟩ (opts k) = some _ :=
    cycleCandidates_iff.mpr ⟨found, hfind, rfl, ne_nil_of_mem (mem_map_of_mem (mem_filter.mpr ⟨hm, hmelig⟩))⟩
  have hsteer : steeredBranch w { opts k with thinkerCycle := state } = none := by
    unfold steeredBranch
    split_ifs
    · rw [find?_eq_none]
      intro b' hb'
      simp [h.first b' hb']
    · rfl
  refine ⟨_, _, hentry, hcands, ?_⟩
  rw [pickWeighted_of_thinker h.wellFormed h.aware]
  exact pickThinkerCycle_eq hsteer hentry (by simp [h.on k]) hcands

variable (start : CycleState) (position : ℕ)

lemma cycleIndex_run (k : ℕ) :
    cycleIndex w (cycleStates w opts position start k) =
    (cycleIndex w start + k) % w.cycle.length := by
  induction k with
  | zero =>
    rw [Nat.add_zero, Nat.mod_eq_of_lt (cycleStart_eq start h.cycle_ne_nil).2]
    rfl
  | succ k ih =>
    obtain ⟨entry, cands, -, -, hpick⟩ := h.pick (cycleStates w opts position start k) position k
    rw [cycleStates, hpick]
    rw [cycleIndex_of_lt (Nat.mod_lt _ (length_pos_iff.mpr h.cycle_ne_nil)), ih, Nat.mod_add_mod, Nat.add_assoc]

lemma chooses_run (hb : b ∈ w.branches) (k : ℕ) :
    chooses b (cycleRun w opts position start k) ↔
      ∃ entry, w.cycle[(cycleIndex w start + k) % w.cycle.length]? = some entry ∧
      EntryOf b entry := by
  obtain ⟨entry, cands, hentry, hcands, hpick⟩ :=
    h.pick (cycleStates w opts position start k) position k
  rw [cycleIndex_run h] at hentry
  rw [cycleRun, hpick, chooses_iff h.wellFormed hcands hb, hentry]
  simp

lemma count_chooses (hkeys : ((w.branches.filter (!·.isThinker)).map branchKey).Nodup)
    (hb : b ∈ w.branches) (j : ℕ) :
    Nat.count (fun k => chooses b (cycleRun w opts position start (j + k)) = true) w.cycle.length =
      if b.isThinker then 1 else (min b.weight 100).toNat := by
  have hweight : thinkerCycleWeight b.weight = min b.weight 100 := by
    have := (h.wellFormed.branches b hb).weight
    unfold thinkerCycleWeight effectiveWeight maxThinkerCycleWeightRepeats
    split_ifs <;> omega
  rw [← hweight, ← countP_entryOf h.wellFormed hkeys hb, ← count_cycle (EntryOf b) w.cycle (cycleIndex w start + j)]
  simp only [chooses_run h start position hb, Nat.add_assoc]

lemma nextIndex_run (k : ℕ) : 0 ≤ (cycleStates w opts position start (k + 1)).nextIndex ∧
      (cycleStates w opts position start (k + 1)).nextIndex < w.cycle.length := by
  obtain ⟨entry, cands, -, -, hpick⟩ := h.pick (cycleStates w opts position start k) position k
  have hpos := length_pos_iff.mpr h.cycle_ne_nil
  rw [cycleStates, hpick]
  exact ⟨by dsimp only; omega, by dsimp only; exact_mod_cast Nat.mod_lt _ hpos⟩

lemma run_of_keys (hkeys : (w.branches.map branchKey).Nodup) (k : ℕ) :
    ∃ b ∈ w.branches, chooses b (cycleRun w opts position start k) ∧
      cycleRun w opts position start k = .ok
        ((b.members.filter (·.eligible (opts k))).map (·.tagged false b.role w.selectorKey), false,
          some (cycleStates w opts position start (k + 1))) := by
  obtain ⟨entry, cands, hentry, hcands, hpick⟩ :=
    h.pick (cycleStates w opts position start k) position k
  obtain ⟨b, hb, rfl⟩ := mem_cycle (mem_of_getElem? hentry)
  obtain ⟨found, hfind, rfl, -⟩ := cycleCandidates_iff.mp hcands
  have hfound : found = b :=
    inj_on_of_nodup_map hkeys (mem_of_find?_eq_some hfind) hb (by simpa using find?_some hfind)
  subst hfound
  refine ⟨found, hb, ?_, ?_⟩
  · rw [cycleRun, hpick, chooses_iff h.wellFormed hcands hb]
    exact ⟨rfl, fun _ _ => rfl⟩
  · rw [cycleStates, cycleRun, hpick]

lemma run_mem_plan (halt : alt ∈ sel.alternatives)
    (hwell : alt.WellFormed leaf) (hweighted : alt.weighted = some w) (k : ℕ)
    (hsticky : stickyCandidate sel { opts k with thinkerCycle := cycleStates w opts position start k } = none)
    (hplan : (expandFailoverGroups sel
      { opts k with thinkerCycle := cycleStates w opts position start k }).1 = .ok groups) :
    ∃ cands, cycleRun w opts position start k =
      .ok (cands, false, some (cycleStates w opts position start (k + 1))) ∧
      { candidates := cands, nextThinkerCycle := some (cycleStates w opts position start (k + 1)) } ∈ groups := by
  obtain ⟨c, next, hsome, -⟩ | ⟨planned, -, hplanned, -, rfl⟩ := expandFailoverGroups_cases hplan
  · rw [hsticky] at hsome
    cases hsome
  obtain ⟨session, position', group, session', hgroup, hmem⟩ := planAlts_mem hplanned halt
  obtain ⟨entry, cands, hentry, hcands, hpick⟩ :=
    h.pick (cycleStates w opts position start k) position k
  -- The pick depends neither on the flags of the session nor on the position of the alternative.
  have h' : Steady leaf w fun k => { opts k with session } := { h with }
  obtain ⟨entry', cands', hentry', hcands', hpick'⟩ :=
    h'.pick (cycleStates w opts position start k) position' k
  cases hentry.symm.trans hentry'
  cases hcands.symm.trans hcands'
  refine ⟨_, by rw [cycleRun, cycleStates, hpick], mem_reorderPreferredGroups _ (hmem _ ?_)⟩
  obtain ⟨-, rfl⟩ := hwell.of_weighted hweighted
  rw [planAlt_weighted hpick'] at hgroup
  cases hgroup
  rw [cycleStates, hpick]

end Runs

/-- The cycle of a compiled group is fair. From any stored state, as long as every branch stays
eligible, each turn of picks takes the thinker once and every executor as often as its weight, up to
100; the cursor that is stored stays in range. The picks of the run are those of the plans, and
where all branches have their own key, a pick is the eligible members of one branch. -/
theorem thinker_cycle_fair (raw : GoStr) (aliases : Option (List AliasRule))
    (defaultBackend : GoStr)
    (sel : Selector Q) (hsel : compileSelector raw aliases defaultBackend = .ok sel)
    (alt : FailoverAlt Q)
    (halt : alt ∈ sel.alternatives) (w : Weighted Q) (hw : alt.weighted = some w)
    (haware : w.thinkerAware) (hkeys : ((w.branches.filter (!·.isThinker)).map branchKey).Nodup)
    (hfirst : ∀ b ∈ w.branches, b.isFirst = false) (opts : ℕ → PlanOptions)
    (helig : ∀ k, ∀ b ∈ w.branches, ∃ m ∈ b.members, m.eligible (opts k))
    (hon : ∀ k, (opts k).suppressThinker = false) (start : CycleState) (position : ℕ) :
    (∀ j, ∀ b ∈ w.branches,
      Nat.count (fun k => chooses b (cycleRun w opts position start (j + k)) = true) w.cycle.length =
        if b.isThinker then 1 else (min b.weight 100).toNat) ∧
    (∀ k, 0 ≤ (cycleStates w opts position start (k + 1)).nextIndex ∧
      (cycleStates w opts position start (k + 1)).nextIndex < w.cycle.length) ∧
    (∀ k, stickyCandidate sel { opts k with thinkerCycle := cycleStates w opts position start k } = none →
      ∀ groups, (expandFailoverGroups sel
          { opts k with thinkerCycle := cycleStates w opts position start k }).1 = .ok groups →
        ∃ cands, cycleRun w opts position start k =
            .ok (cands, false, some (cycleStates w opts position start (k + 1))) ∧
          { candidates := cands, nextThinkerCycle := some (cycleStates w opts position start (k + 1)) } ∈ groups) ∧
    ((w.branches.map branchKey).Nodup → ∀ k, ∃ b ∈ w.branches,
      chooses b (cycleRun w opts position start k) ∧
      cycleRun w opts position start k = .ok
        ((b.members.filter (·.eligible (opts k))).map (·.tagged false b.role w.selectorKey), false,
          some (cycleStates w opts position start (k + 1)))) := by
  have hwell := (compileSelector_ok hsel).1.alternatives alt halt
  have hrun : Steady _ w opts := ⟨(hwell.of_weighted hw).1, hfirst, helig, hon, haware⟩
  refine ⟨?_, ?_, ?_, ?_⟩
  · intro j b hb
    exact count_chooses hrun start position hkeys hb j
  · exact nextIndex_run hrun start position
  · intro k hsticky groups hplan
    exact run_mem_plan hrun start position halt hwell hw k hsticky hplan
  · intro hdistinct k
    exact run_of_keys hrun start position hdistinct k

def thinkerGroup : Weighted GoStr :=
  { branches := [
      { weight := 2, target := { backend := lit "a", model := lit "m" } },
      { weight := 1, isThinker := true, target := { backend := lit "b", model := lit "n" } },
      { weight := 1, target := { backend := lit "c", model := lit "o" } }] }

def staleState : CycleState := ⟨lit "x", [⟨lit "x", .executor⟩], 7⟩

theorem thinker_cycle_fair_stale : compileSelector (lit "[weight=2]a:m^[thinker]b:n^c:o") none [] =
      .ok { alternatives := [{ weighted := some thinkerGroup }] } ∧
    ∀ j, ∀ b ∈ thinkerGroup.branches,
      Nat.count (fun k =>
          chooses b (cycleRun thinkerGroup (fun _ => { rand := lowRolls }) 0 staleState (j + k)) = true)
        thinkerGroup.cycle.length = if b.isThinker then 1 else (min b.weight 100).toNat := by
  refine ⟨?compiles, (thinker_cycle_fair _ none [] _ ?compiles _ (mem_singleton_self _) thinkerGroup rfl rfl
    (by decide +kernel) (by decide +kernel) _ (fun _ => by decide +kernel)
    (fun _ => rfl) staleState 0).1⟩
  rfl

lemma exists_candidate (hsel : sel.WellFormed leaf)
    (h : (expandFailoverGroups sel opt).1 = .ok groups) : ∃ g ∈ groups, ∃ c, c ∈ g.candidates := by
  obtain ⟨c, next, -, rfl⟩ | ⟨planned, -, hplan, hne, rfl⟩ := expandFailoverGroups_cases h
  · exact ⟨_, mem_singleton_self _, c, mem_singleton_self c⟩
  · obtain ⟨g, hg⟩ := exists_mem_of_ne_nil planned hne
    obtain ⟨hcands, -⟩ := planAlts_ok hsel.alternatives hplan g hg
    exact ⟨g, mem_reorderPreferredGroups _ hg, exists_mem_of_ne_nil _ hcands⟩

section Errors

def Overweight (opt : PlanOptions) (w : Weighted Q) : Prop :=
  w.thinkerAware = false ∧
    maxInt64 < totalWeight (w.branches.filter fun b => b.target.candidate.eligible opt)

variable {err : RouteError} {position : ℕ}

lemma rollWeighted_error {eligible : List (WeightedBranch Q)} (hne : eligible ≠ [])
    (h : rollWeighted eligible opt position = .error err) :
    err = .weightedTotalTooLarge ∧ maxInt64 < totalWeight eligible := by
  rcases rollWeighted_eq hne opt position with ⟨hlarge, herr⟩ | ⟨-, b, -, -, hok⟩
  · cases herr.symm.trans h
    exact ⟨rfl, hlarge⟩
  · cases hok.symm.trans h

lemma pickWeightedLegacy_error (hone : w.branches.countP (·.isFirst) ≤ 1)
    (h : pickWeightedLegacy w opt position = .error err) :
    err = .noEligibleCandidate ∨ err = .weightedTotalTooLarge ∧
      maxInt64 < totalWeight (w.branches.filter fun b => b.target.candidate.eligible opt) := by
  unfold pickWeightedLegacy at h
  dsimp only at h
  split_ifs at h with hempty
  · cases h
    exact .inl rfl
  · split at h
    · exact .inr (rollWeighted_error (by simpa using hempty) h)
    · cases h
    rename_i hnil hsingle
    have hcount : ((w.branches.filter fun b => b.target.candidate.eligible opt).filter (·.isFirst)).length ≤ 1 := by
      rw [← countP_eq_length_filter]
      exact (filter_sublist.countP_le).trans hone
    exfalso
    rcases hlist :
        (w.branches.filter fun b => b.target.candidate.eligible opt).filter (·.isFirst) with
      _ | ⟨b, _ | ⟨b', rest⟩⟩
    · exact hnil hlist
    · exact hsingle b hlist
    · simp [hlist] at hcount
  · exact .inr (rollWeighted_error (by simpa using hempty) h)

lemma pickWeighted_error (hw : w.WellFormed leaf) (h : pickWeighted w opt position = .error err) :
    err = .noEligibleCandidate ∨ err = .weightedTotalTooLarge ∧ Overweight opt w := by
  unfold pickWeighted at h
  split_ifs at h with hempty haware
  · cases h
    exact .inl rfl
  · unfold pickThinkerCycle at h
    split at h
    · cases h
    · split at h
      · cases h
      · cases h
        exact .inl rfl
  · rcases bind_eq_error.mp h with hpick | ⟨found, -, h⟩
    · exact (pickWeightedLegacy_error hw.one_first hpick).imp_right fun hlarge =>
        ⟨hlarge.1, by simpa using haware, hlarge.2⟩
    · cases h

lemma planAlt_error (halt : alt.WellFormed leaf) (h : planAlt opt position alt = .error err) :
    err = .weightedTotalTooLarge ∧ ∃ w, alt.weighted = some w ∧ Overweight opt w := by
  cases halt with
  | primary => cases h
  | @weighted w hw =>
    unfold planAlt at h
    dsimp only at h
    split at h
    · cases h
    · rename_i err' hne hpick
      cases h
      rcases pickWeighted_error hw hpick with rfl | ⟨rfl, hover⟩
      · exact absurd rfl hne
      · exact ⟨rfl, w, rfl, hover⟩
    · cases h
  | parallel =>
    unfold planAlt at h
    dsimp only at h
    split_ifs at h

lemma planAlts_error {session : Option SessionRoutingState} {alts : List (FailoverAlt Q)}
    (halts : ∀ alt ∈ alts, alt.WellFormed leaf)
    (h : (planAlts opt position session alts).1 = .error err) :
    err = .weightedTotalTooLarge ∧ ∃ alt ∈ alts, ∃ w, alt.weighted = some w ∧ Overweight opt w := by
  induction alts generalizing position session with
  | nil => cases h
  | cons alt alts ih =>
    rw [planAlts_cons] at h
    rcases bind_eq_error.mp h with hplan | ⟨⟨group, session'⟩, -, h⟩
    · obtain ⟨rfl, hover⟩ := planAlt_error (halts alt mem_cons_self) hplan
      exact ⟨rfl, alt, mem_cons_self, hover⟩
    rcases bind_eq_error.mp h with hrest | ⟨rest, -, h⟩
    · obtain ⟨rfl, alt', halt', hover⟩ :=
        ih (fun alt' h' => halts alt' (mem_cons_of_mem alt h')) hrest
      exact ⟨rfl, alt', mem_cons_of_mem alt halt', hover⟩
    · cases h

lemma expandFailoverGroups_error
    (hsel : sel.WellFormed leaf) (h : (expandFailoverGroups sel opt).1 = .error err) :
    err = .noEligibleCandidate ∨
      err = .weightedTotalTooLarge ∧ ∃ alt ∈ sel.alternatives, ∃ w, alt.weighted = some w ∧
      Overweight opt w := by
  cases hsticky : stickyCandidate sel opt with
  | some found =>
    rw [expandFailoverGroups, hsticky] at h
    cases h
  | none =>
    rw [expandFailoverGroups_eq hsticky] at h
    rcases bind_eq_error.mp h with hplan | ⟨planned, -, h⟩
    · exact .inr (planAlts_error hsel.alternatives hplan)
    · split_ifs at h
      cases h
      exact .inl rfl

end Errors

def Selector.candidateKeys (sel : Selector Q) : Finset GoStr :=
  (sel.targets.map (·.key)).toFinset

lemma target_key_mem (hsel : sel.WellFormed leaf) (halt : alt ∈ sel.alternatives)
    (hw : alt.weighted = some w)
    (hplain : w.thinkerAware = false) (hb : b ∈ w.branches) : b.target.key ∈ sel.candidateKeys := by
  obtain ⟨hgroup, rfl⟩ := (hsel.alternatives alt halt).of_weighted hw
  have hnone : b.parallel = none := by
    by_contra hsome
    have haware := (hgroup.plannable.parallel b hb hsome).2
    rw [hplain] at haware
    cases haware
  refine mem_toFinset.mpr (mem_map_of_mem (mem_flatMap.mpr ⟨_, halt, mem_flatMap.mpr ⟨b, hb, ?_⟩⟩))
  rw [WeightedBranch.targets, hnone]
  exact mem_singleton_self _

/-- Rounds of planning, the last one first. Each round plans with at least the keys of the rounds
before it excluded, and adds the key of a candidate of its plan; the other options are free. -/
inductive Rounds (sel : Selector Q) : List GoStr → Prop
  | start : Rounds sel []
  | next {keys : List GoStr} {opt : PlanOptions} {groups : List (AttemptGroup Q)}
      {g : AttemptGroup Q}
      {c : AttemptCandidate Q} (h : Rounds sel keys) (hexcluded : ∀ k ∈ keys, k ∈ opt.excluded)
      (hplan : (expandFailoverGroups sel opt).1 = .ok groups) (hg : g ∈ groups)
        (hc : c ∈ g.candidates) :
      Rounds sel (c.key :: keys)

section Rounds

variable {keys : List GoStr}

variable (hsel : sel.WellFormed leaf) {c : AttemptCandidate Q} {g : AttemptGroup Q}
include hsel

section

variable (hplan : (expandFailoverGroups sel opt).1 = .ok groups) (hg : g ∈ groups)
  (hc : c ∈ g.candidates)

include hplan hg hc

lemma key_not_excluded : c.key ∉ opt.excluded := by
  obtain ⟨alt, -, hplanned⟩ := expandFailoverGroups_ok hsel hplan g hg c hc
  exact (candidateEligible_iff.mp hplanned.eligible).1

lemma key_mem_candidateKeys : c.key ∈ sel.candidateKeys := by
  obtain ⟨alt, halt, hplanned⟩ := expandFailoverGroups_ok hsel hplan g hg c hc
  rw [hplanned.key_eq]
  exact mem_toFinset.mpr (mem_map_of_mem
    (mem_flatMap.mpr ⟨alt, halt, hplanned.primary_mem (hsel.alternatives alt halt)⟩))

end

section

variable (h : Rounds sel keys)
include h

lemma Rounds.subset : ∀ k ∈ keys, k ∈ sel.candidateKeys := by
  induction h with
  | start => nofun
  | next h hexcluded hplan hg hc ih =>
    intro k hk
    rcases mem_cons.mp hk with rfl | hk
    · exact key_mem_candidateKeys hsel hplan hg hc
    · exact ih k hk

lemma Rounds.nodup : keys.Nodup := by
  induction h with
  | start => exact nodup_nil
  | next h hexcluded hplan hg hc ih =>
    refine nodup_cons.mpr ⟨fun hmem => ?_, ih⟩
    exact key_not_excluded hsel hplan hg hc (hexcluded _ hmem)

lemma Rounds.length_le : keys.length ≤ sel.candidateKeys.card := by
  rw [← toFinset_card_of_nodup (h.nodup hsel)]
  exact Finset.card_le_card fun k hk => h.subset hsel k (mem_toFinset.mp hk)

lemma Rounds.length_lt (hexcluded : ∀ k ∈ keys, k ∈ opt.excluded)
    (hplan : (expandFailoverGroups sel opt).1 = .ok groups) :
    keys.length < sel.candidateKeys.card := by
  obtain ⟨g, hg, c, hc⟩ := exists_candidate hsel hplan
  exact (h.next hexcluded hplan hg hc).length_le hsel

/-- After as many rounds as there are keys nothing is eligible, so no weights are added up either.
-/
lemma Rounds.exhausted (hexcluded : ∀ k ∈ keys, k ∈ opt.excluded)
    (hall : keys.length = sel.candidateKeys.card) :
    (expandFailoverGroups sel opt).1 = .error .noEligibleCandidate := by
  have hkeys : keys.toFinset = sel.candidateKeys := by
    refine Finset.eq_of_subset_of_card_le (fun k hk => h.subset hsel k (mem_toFinset.mp hk)) ?_
    rw [toFinset_card_of_nodup (h.nodup hsel), hall]
  cases hplan : (expandFailoverGroups sel opt).1 with
  | ok groups =>
    have := h.length_lt hsel hexcluded hplan
    omega
  | error err =>
    rcases expandFailoverGroups_error hsel hplan with rfl | ⟨rfl, alt, halt, w, hw, haware, hlarge⟩
    · rfl
    have hnone : w.branches.filter (fun b => b.target.candidate.eligible opt) = [] := by
      rw [filter_eq_nil_iff]
      intro b hb helig
      apply (candidateEligible_iff.mp helig).1
      apply hexcluded
      rw [← mem_toFinset, hkeys]
      exact target_key_mem hsel halt hw haware hb
    rw [hnone] at hlarge
    simp [maxInt64] at hlarge

end

end Rounds

/-- Failover makes no round twice and ends. A round that does not plan finds nothing eligible,
except where the eligible branches of a weighted group weigh more than fits in 64 bits; when every
key has had its round, it finds nothing eligible. -/
theorem failover_terminates (raw : GoStr) (aliases : Option (List AliasRule))
    (defaultBackend : GoStr)
    (sel : Selector Q) (hsel : compileSelector raw aliases defaultBackend = .ok sel)
    (keys : List GoStr)
    (hrounds : Rounds sel keys) (opt : PlanOptions) (hexcluded : ∀ k ∈ keys, k ∈ opt.excluded) :
    keys.Nodup ∧ keys.length ≤ sel.candidateKeys.card ∧
    (∀ groups, (expandFailoverGroups sel opt).1 = .ok groups →
      keys.length < sel.candidateKeys.card ∧
      ∀ g ∈ groups, ∀ c ∈ g.candidates, c.key ∉ opt.excluded) ∧
    (∀ err, (expandFailoverGroups sel opt).1 = .error err →
      err = .noEligibleCandidate ∨ err = .weightedTotalTooLarge ∧
        ∃ alt ∈ sel.alternatives, ∃ w, alt.weighted = some w ∧ Overweight opt w) ∧
    (keys.length = sel.candidateKeys.card → (expandFailoverGroups sel opt).1 = .error .noEligibleCandidate) := by
  have hwell := (compileSelector_ok hsel).1
  refine ⟨hrounds.nodup hwell, hrounds.length_le hwell, ?_, ?_, hrounds.exhausted hwell hexcluded⟩
  · intro groups hplan
    exact ⟨hrounds.length_lt hwell hexcluded hplan, fun g hg c hc => key_not_excluded hwell hplan hg hc⟩
  · intro err herr
    exact expandFailoverGroups_error hwell herr

def targetA : Primary GoStr := { backend := lit "a", model := lit "m" }
def targetB : Primary GoStr := { backend := lit "b", model := lit "n" }

def twoTargets : Selector GoStr :=
  { alternatives := [{ primary := some targetA }, { primary := some targetB }] }

theorem failover_terminates_twoTargets :
    compileSelector (lit "a:m|b:n") none [] = .ok twoTargets ∧
      Rounds twoTargets [lit "b:n", lit "a:m"] ∧ (expandFailoverGroups twoTargets
        { rand := lowRolls, excluded := {lit "a:m", lit "b:n"} }).1 = .error .noEligibleCandidate := by
  have hfirst : (expandFailoverGroups twoTargets { rand := lowRolls }).1 =
      .ok [{ candidates := [targetA.candidate] }, { candidates := [targetB.candidate] }] := by rfl
  have hsecond : (expandFailoverGroups twoTargets { rand := lowRolls, excluded := {lit "a:m"} }).1 =
      .ok [{ candidates := [targetB.candidate] }] := by rfl
  have hone : Rounds twoTargets [lit "a:m"] :=
    .next .start nofun hfirst (mem_cons_self) (mem_singleton_self targetA.candidate)
  have htwo : Rounds twoTargets [lit "b:n", lit "a:m"] :=
    .next hone (by simp) hsecond (mem_singleton_self _) (mem_singleton_self targetB.candidate)
  refine ⟨?compiles, htwo, (failover_terminates _ none [] _ ?compiles _ htwo _ (by simp)).2.2.2.2 (by rfl)⟩
  rfl

/-- The weights of a group can be too large for a roll, and then planning fails although both
targets are eligible. -/
theorem overweight_not_exhausted : ∃ sel : Selector GoStr,
      compileSelector (lit "[weight=9223372036854775807]a:m^b:n") none [] = .ok sel ∧
      sel.candidateKeys.card = 2 ∧
      (expandFailoverGroups sel { rand := lowRolls }).1 = .error .weightedTotalTooLarge :=
  ⟨_, by rfl, by rfl, by rfl⟩

end InteractiveProxy.Routing
