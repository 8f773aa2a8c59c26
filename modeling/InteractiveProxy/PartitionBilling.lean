import InteractiveProxy.ForestSum
import InteractiveProxy.QuantityTurns
import Mathlib.Algebra.BigOperators.Group.Finset.Basic

/-! A covered parent is billed by components below it: they are reported, have rules, and add up to
its quantity. -/
namespace InteractiveProxy.Billing

open GoText GuardedRun Metering TopologicalOrder DepthFirst GraphWalk ForestSum Relation List Evidence

section Cover

variable (program : SchemaProgram) (state : ℕ → QuantityEvidenceState) (evidence : ℕ → Evidence)
  (cover : ℕ → NodeCover) (v : CompleteCoverVerdict) (n : ℕ)

def shares : List ℕ := ((program.completeChildren n).filter (counted state)).map PartitionMember.id

lemma shares_sublist : (shares program state n).Sublist (program.completeIDs n) :=
  filter_sublist.map _

def Settles : Prop := ∀ n, v.cover n = resolveCover program v.evidence v.cover n

def anyAmbiguous : Bool :=
  (program.completeChildren n).any
    fun m => program.sharedCompleteOwner m.id || (cover m.id).ambiguous

lemma resolveCover_cases : (resolveCover program evidence cover n).represented = (evidence n).own ∧
        (resolveCover program evidence cover n).coverSum = none ∧
        (resolveCover program evidence cover n).resolved = false ∨
      ∃ total, coverShareSum evidence cover (program.completeChildren n) 0 false = some total ∧
        resolveCover program evidence cover n =
          { represented := if (evidence n).state = .exact then (evidence n).own else some total
            coverSum := some total
            resolved := !anyAmbiguous program cover n
            ambiguous := anyAmbiguous program cover n } := by
  unfold resolveCover anyAmbiguous
  by_cases hmembers : program.completeChildren n = []
  · exact .inl (by simp only [if_pos hmembers, and_self])
  · simp only [if_neg hmembers]
    cases hsum : coverShareSum evidence cover (program.completeChildren n) 0 false with
    | none => exact .inl ⟨rfl, rfl, rfl⟩
    | some total => exact .inr ⟨total, rfl, rfl⟩

structure ResolvedCover (total : ℚ) : Prop where
  sum : v.coverSum n = some total
  total_eq : total = ((shares program v.state n).map fun c => (v.represented c).getD 0).sum
  share : ∀ c ∈ shares program v.state n, v.state c = .exact ∨ v.state c = .absent ∧ v.resolved c
  unshared : ∀ c ∈ program.completeIDs n, program.sharedCompleteOwner c = false
  represented : v.state n ≠ .exact → v.represented n = some total

variable {program evidence v n}

lemma coverShareSum_congr {v w : ℕ → NodeCover} {members : List PartitionMember}
    (h : ∀ m ∈ members, v m.id = w m.id) (sum : ℚ) (carrying : Bool) :
    coverShareSum evidence v members sum carrying =
    coverShareSum evidence w members sum carrying := by
  induction members generalizing sum carrying with
  | nil => rfl
  | cons m rest ih =>
    have hrest := ih fun a ha => h a (mem_cons_of_mem m ha)
    unfold coverShareSum
    simp only [h m mem_cons_self, hrest]

lemma resolveCover_congr {v w : ℕ → NodeCover} (h : ∀ c ∈ program.completeIDs n, v c = w c) :
    resolveCover program evidence v n = resolveCover program evidence w n := by
  have hmembers : ∀ m ∈ program.completeChildren n, v m.id = w m.id := fun m hm =>
    h m.id (mem_map_of_mem hm)
  have hambiguous : ((program.completeChildren n).any fun m =>
      program.sharedCompleteOwner m.id || (v m.id).ambiguous) =
        (program.completeChildren n).any
        fun m => program.sharedCompleteOwner m.id || (w m.id).ambiguous := by
    rw [Bool.eq_iff_iff, any_eq_true, any_eq_true]
    exact exists_congr fun m => and_congr_right fun hm => by rw [hmembers m hm]
  unfold resolveCover
  simp only [coverShareSum_congr hmembers, hambiguous]

lemma cover_eq (hwf : program.WellFormed) (table : PrintTable) (items : List AggregateMeasure)
    (n : ℕ) : let verdict := resolveCompleteCovers table program items
    verdict.cover n = resolveCover program verdict.evidence verdict.cover n := by
  intro verdict
  by_cases hn : n ∈ program.topo
  · have hlocal : ∀ v w m, (∀ c ∈ program.containmentChildren m, v c = w c) →
        resolveCover program verdict.evidence v m =
        resolveCover program verdict.evidence w m := fun v w m h =>
      resolveCover_congr fun c hc => h c (hwf.complete_contained hc)
    exact fill_eq hlocal hwf.ordered (hwf.topo_perm.nodup_iff.mpr nodup_range) _ hn
  · have hmembers : program.completeChildren n = [] := by
      by_contra hne
      obtain ⟨m, hm⟩ := exists_mem_of_ne_nil _ hne
      have hlt := (hwf.contained_lt (hwf.complete_contained (mem_map_of_mem hm))).1
      exact hn (hwf.topo_perm.mem_iff.mpr (mem_range.mpr hlt))
    have hinit : verdict.cover n = { represented := (verdict.evidence n).own } :=
      fill_of_notMem _ hn
    rw [hinit]
    unfold resolveCover
    rw [if_pos hmembers]

lemma coverShareSum_eq_some {cover : ℕ → NodeCover} {members : List PartitionMember} {sum total : ℚ}
    {carrying : Bool} (h : coverShareSum evidence cover members sum carrying = some total) :
    let state := fun n => (evidence n).state
    let ids := (members.filter (counted state)).map PartitionMember.id
    (∀ c ∈ ids, state c = .exact ∨ state c = .absent ∧ (cover c).resolved = true) ∧
      total = sum + (ids.map fun c => (cover c).represented.getD 0).sum := by
  induction members generalizing sum carrying with
  | nil =>
    unfold coverShareSum at h
    split_ifs at h
    cases h
    exact ⟨nofun, by simp⟩
  | cons m rest ih =>
    unfold coverShareSum at h
    cases hstate : (evidence m.id).state with
    | absent =>
      simp only [hstate] at h
      split_ifs at h with hoptional hresolved
      · have hnot :
          ¬ counted (fun n => (evidence n).state) m = true := by simp [counted, hstate, hoptional]
        simpa only [filter_cons_of_neg hnot] using ih h
      · have hyes : counted (fun n => (evidence n).state) m := by simp [counted, hoptional]
        obtain ⟨hshares, htotal⟩ := ih h
        simp only [filter_cons_of_pos hyes, map_cons, sum_cons, forall_mem_cons]
        exact ⟨⟨.inr ⟨hstate, hresolved⟩, hshares⟩, by rw [htotal]; ring⟩
    | exact =>
      simp only [hstate] at h
      have hyes : counted (fun n => (evidence n).state) m := by simp [counted, hstate]
      obtain ⟨hshares, htotal⟩ := ih h
      simp only [filter_cons_of_pos hyes, map_cons, sum_cons, forall_mem_cons]
      exact ⟨⟨.inl hstate, hshares⟩, by rw [htotal]; ring⟩
    | unavailable =>
      simp only [hstate] at h
      cases h

lemma represented_of_exact (h : Settles program v) (hn : v.state n = .exact) :
    v.represented n = some (v.exact n) := by
  have hown : (v.evidence n).own = some (v.exact n) := if_pos hn
  have hstate : (v.evidence n).state = .exact := hn
  unfold CompleteCoverVerdict.represented
  rw [h n]
  rcases resolveCover_cases program v.evidence v.cover n with ⟨hrepresented, -⟩ | ⟨total, -, hcover⟩
  · rw [hrepresented, hown]
  · rw [hcover]
    exact (if_pos hstate).trans hown

lemma resolvedCover (h : Settles program v) (hn : v.resolved n) :
    ∃ total, ResolvedCover program v n total := by
  rcases resolveCover_cases program v.evidence v.cover n with ⟨-, -, hnot⟩ | ⟨total, htotal, hcover⟩
  · rw [← h n] at hnot
    exact absurd hn (Bool.eq_false_iff.mp hnot)
  rw [← h n] at hcover
  obtain ⟨hshare, hsum⟩ := coverShareSum_eq_some htotal
  refine ⟨total, congrArg NodeCover.coverSum hcover, hsum.trans (zero_add _), hshare, ?_, ?_⟩
  · intro c hc
    obtain ⟨m, hm, rfl⟩ := mem_map.mp hc
    have hfree : anyAmbiguous program v.cover n = false := by
      rw [← Bool.not_eq_true']
      exact (congrArg NodeCover.resolved hcover).symm.trans hn
    have hmember := any_eq_false.mp hfree m hm
    rw [Bool.not_eq_true, Bool.or_eq_false_iff] at hmember
    exact hmember.1
  · intro hstate
    exact (congrArg NodeCover.represented hcover).trans (if_neg hstate)

lemma resolved_of_summed (h : Settles program v) (hsummed : v.summed n)
    (hambiguous : v.ambiguous n = false) : v.resolved n := by
  rcases resolveCover_cases program v.evidence v.cover n with ⟨-, hnone, -⟩ | ⟨total, -, hcover⟩
  · rw [← h n] at hnone
    have hsome : (v.cover n).coverSum.isSome := hsummed
    rw [hnone] at hsome
    cases hsome
  · rw [← h n] at hcover
    have hfree : anyAmbiguous program v.cover n = false :=
      (congrArg NodeCover.ambiguous hcover).symm.trans hambiguous
    exact (congrArg NodeCover.resolved hcover).trans (by rw [hfree]; rfl)

end Cover

section Proof

variable {μ : Type} {table : PrintTable} {program : SchemaProgram} {rules : List (RatingRule μ)}
  {qualifiers : List Dimension} {v : CompleteCoverVerdict} {n : ℕ}

/-- A coverage whose share is billed: its members add up to what was reported, and those without a
rule are billed through their own coverages. -/
inductive Proven (program : SchemaProgram) (rules : List (RatingRule μ))
    (qualifiers : List Dimension) (v : CompleteCoverVerdict) : ℕ → Prop
  | intro {n : ℕ} : v.resolved n → (v.state n = .exact → v.exact n = (v.coverSum n).getD 0) →
      (∀ c ∈ shares program v.state n, priced program rules qualifiers c = false →
        Proven program rules qualifiers v c) → Proven program rules qualifiers v n

lemma mem_unpriced {c : ℕ} : c ∈ (partitionEvidence program rules qualifiers v n).unpriced ↔
    c ∈ shares program v.state n ∧ priced program rules qualifiers c = false := by
  unfold partitionEvidence shares
  rw [mem_filter, Bool.not_eq_true']

variable {covered : List ℕ}

lemma billable_iff : billable (partitionEvidence program rules qualifiers v n) covered ↔
      ∀ c ∈ shares program v.state n, priced program rules qualifiers c = false → c ∈ covered := by
  unfold billable
  simp [mem_unpriced]

lemma proven_of_provesCover (hcovered : ∀ c ∈ covered, Proven program rules qualifiers v c)
    (h : provesCover (partitionEvidence program rules qualifiers v n) covered) :
    Proven program rules qualifiers v n := by
  simp only [provesCover, Bool.and_eq_true, Bool.not_eq_true', Bool.or_eq_false_iff, Bool.not_eq_false'] at h
  obtain ⟨⟨⟨-, hproven⟩, hconserved⟩, hbillable⟩ := h
  refine .intro hproven ?_ fun c hc hprice => hcovered c (billable_iff.mp hbillable c hc hprice)
  intro hexact
  rw [Bool.and_eq_false_iff] at hconserved
  rcases hconserved with hunusable | hequal
  · exact absurd (decide_eq_true hexact) (Bool.eq_false_iff.mp hunusable)
  · exact not_not.mp (of_decide_eq_false hequal)

lemma proven_of_mem_fixpoint {evidence : List PartitionEvidence}
    (hevidence : ∀ ev ∈ evidence, ev = partitionEvidence program rules qualifiers v ev.parent)
    (fuel : ℕ) (hcovered : ∀ c ∈ covered, Proven program rules qualifiers v c) :
    ∀ c ∈ coveredFixpoint evidence fuel covered, Proven program rules qualifiers v c := by
  induction fuel generalizing covered with
  | zero => exact hcovered
  | succ fuel ih =>
    have hgrown :
        ∀ c ∈ evidence.foldl growCovered covered, Proven program rules qualifiers v c := by
      refine foldlRecOn (motive := fun covered => ∀ c ∈ covered, Proven program rules qualifiers v c)
        evidence growCovered hcovered fun covered hcovered ev hev => ?_
      unfold growCovered
      split_ifs with hold hproves
      · exact hcovered
      · refine forall_mem_cons.mpr ⟨?_, hcovered⟩
        rw [hevidence ev hev] at hproves
        exact proven_of_provesCover hcovered hproves
      · exact hcovered
    unfold coveredFixpoint
    dsimp only
    split_ifs
    · exact hgrown
    · exact ih hgrown

lemma classifyPartition_covered {ev : PartitionEvidence}
    (h : classifyPartition ev covered = some .covered) :
    ev.missingMember = false ∧ (ev.anyMemberPresent ∨ ev.coverSummed) ∧ ev.parentUsable ∧
      ev.tainted = false ∧ ev.parentRat = ev.childSum ∧ billable ev covered := by
  unfold classifyPartition at h
  split_ifs at h with hreported hmissing hempty husable htainted hsum hbillable <;> try cases h
  rw [not_and_or, Bool.not_eq_false, Bool.not_eq_false] at hempty
  exact ⟨Bool.eq_false_iff.mpr hmissing, hempty, eq_true_of_ne_false husable,
    Bool.eq_false_iff.mpr htainted, not_not.mp hsum, hbillable⟩

lemma summed_of_complete (hmissing : (partitionEvidence program rules qualifiers v n).missingMember = false)
    (hany : (partitionEvidence program rules qualifiers v n).anyMemberPresent) : v.summed n := by
  obtain ⟨m, hm, hpresent⟩ := any_eq_true.mp hany
  have hsome :
      ((program.completeChildren n).all fun m => v.state m.id = .absent && m.optional) = false :=
    all_eq_false.mpr ⟨m, hm, fun habsent =>
      of_decide_eq_true hpresent (of_decide_eq_true (Bool.and_eq_true_iff.mp habsent).1)⟩
  unfold partitionEvidence at hmissing
  dsimp only at hmissing
  rw [hsome, Bool.not_false, Bool.true_and] at hmissing
  rwa [Bool.not_eq_false'] at hmissing

lemma proven_of_covered (hwf : program.WellFormed) {aggregates : List AggregateMeasure}
    {scope : GoStr}
    (h : (n, .covered) ∈ completeChildPartitionCoverage table program rules qualifiers aggregates scope) :
    let v := resolveCompleteCovers table program (scopeItems table aggregates scope)
    v.state n = .exact ∧ Proven program rules qualifiers v n := by
  intro v
  have hsettles : Settles program v := cover_eq hwf table _
  obtain ⟨ev, hev, hclass⟩ := mem_filterMap.mp h
  obtain ⟨parent, -, rfl⟩ := mem_map.mp hev
  obtain ⟨cls, hclass, hpair⟩ := Option.map_eq_some_iff.mp hclass
  cases hpair
  obtain ⟨hmissing, hpresent, husable, htainted, hsum, hbillable⟩ :=
    classifyPartition_covered hclass
  have hsummed : v.summed parent := hpresent.elim (summed_of_complete hmissing) id
  refine ⟨of_decide_eq_true husable, .intro (resolved_of_summed hsettles hsummed htainted) (fun _ => hsum) ?_⟩
  intro c hc hprice
  refine proven_of_mem_fixpoint ?_ _ (fun c hc => absurd hc not_mem_nil) c
    (billable_iff.mp hbillable c hc hprice)
  intro ev hev
  obtain ⟨p, -, rfl⟩ := mem_map.mp hev
  rfl

end Proof

section Reported

variable (table : PrintTable) (program : SchemaProgram) (items : List AggregateMeasure)

def reportedQuantity (n : ℕ) : Option ℚ :=
  items.findSome? fun item => if measuredNode table program item = some n ∧ item.complete then
    item.rat else none

variable {table program} {e : Evidence} {item : AggregateMeasure}

lemma add_of_exact (h : e.state = .exact) (item : AggregateMeasure) : e.add item = e := if_pos h

lemma foldl_add_of_exact (h : e.state = .exact) (items : List AggregateMeasure) :
    items.foldl add e = e := by
  induction items with
  | nil => rfl
  | cons item rest ih => rw [foldl_cons, add_of_exact h, ih]

lemma foldl_readItem (evidence : ℕ → Evidence) (n : ℕ) :
    items.foldl (readItem table program) evidence n =
      (items.filter fun item => measuredNode table program item = some n).foldl add (evidence n) := by
  induction items generalizing evidence with
  | nil => rfl
  | cons item rest ih =>
    rw [foldl_cons, ih]
    unfold readItem
    cases hnode : measuredNode table program item with
    | none => rw [filter_cons_of_neg (by simp [hnode])]
    | some id =>
      by_cases hid : id = n
      · subst hid
        dsimp only
        rw [filter_cons_of_pos (by simp [hnode]), Function.update_self, foldl_cons]
      · dsimp only
        rw [filter_cons_of_neg (by simp [hnode, hid]), Function.update_of_ne (Ne.symm hid)]

lemma add_of_rat (he : e.state ≠ .exact) {q : ℚ}
    (hitem : (if item.complete then item.rat else none) = some q) :
    (e.add item).state = .exact ∧ (e.add item).exact = max 0 q := by
  rw [Option.ite_none_right_eq_some] at hitem
  unfold add
  rw [if_neg he, hitem.1, hitem.2]
  refine ⟨rfl, ?_⟩
  dsimp only
  split_ifs with hneg
  · exact (max_eq_left hneg.le).symm
  · exact (max_eq_right (not_lt.mp hneg)).symm

lemma add_of_none (he : e.state ≠ .exact)
    (hitem : (if item.complete then item.rat else none) = none) : (e.add item).state ≠ .exact := by
  unfold add
  rw [if_neg he]
  split
  · next hcomplete hrat =>
    rw [hcomplete, hrat] at hitem
    cases hitem
  · exact nofun

lemma foldl_add_eq (he : e.state ≠ .exact) (items : List AggregateMeasure) :
    match items.findSome? fun item => if item.complete then item.rat else none with
    | some q => (items.foldl add e).state = .exact ∧ (items.foldl add e).exact = max 0 q
    | none => (items.foldl add e).state ≠ .exact := by
  induction items generalizing e with
  | nil => exact he
  | cons item rest ih =>
    rw [foldl_cons, findSome?_cons]
    cases hitem : (if item.complete then item.rat else none) with
    | none => exact ih (add_of_none he hitem)
    | some q =>
      have hadd := add_of_rat he hitem
      rwa [foldl_add_of_exact hadd.1]

lemma reportedQuantity_eq (n : ℕ) : reportedQuantity table program items n =
    (items.filter fun item => measuredNode table program item = some n).findSome?
      fun item => if item.complete then item.rat else none := by
  unfold reportedQuantity
  induction items with
  | nil => rfl
  | cons item rest ih =>
    rw [findSome?_cons, ih]
    by_cases hnode : measuredNode table program item = some n
    · rw [filter_cons_of_pos (by simp [hnode]), findSome?_cons]
      simp [hnode]
    · rw [filter_cons_of_neg (by simp [hnode]), if_neg fun h => hnode h.1]

lemma exact_iff_reported (n : ℕ) : let v := resolveCompleteCovers table program items
    v.state n = .exact ↔ ∃ q, reportedQuantity table program items n = some q ∧
    v.exact n = max 0 q := by
  intro v
  have hread : v.evidence n =
      (items.filter fun item => measuredNode table program item = some n).foldl add {} :=
    foldl_readItem items _ n
  have hfound : reportedQuantity table program items n = _ := reportedQuantity_eq items n
  have hadd := foldl_add_eq (e := {}) nofun
    (items.filter fun item => measuredNode table program item = some n)
  rw [← hread, ← hfound] at hadd
  cases hq : reportedQuantity table program items n with
  | none =>
    rw [hq] at hadd
    exact ⟨fun h => absurd h hadd, nofun⟩
  | some q =>
    rw [hq] at hadd
    exact ⟨fun _ => ⟨q, rfl, hadd.2⟩, fun _ => hadd.1⟩

end Reported

section Billing

variable {μ : Type} (table : PrintTable) (program : SchemaProgram) (rules : List (RatingRule μ))
  (qualifiers : List Dimension) (items : List AggregateMeasure) (state : ℕ → QuantityEvidenceState)
  (v : CompleteCoverVerdict) (parent n : ℕ)

def Share : ℕ → ℕ → Prop := Child (shares program state)

/-- A member that the billing of a component passes on to the member's own members: it has no rule,
or it is not reported and so has no line that its rule could rate. -/
def Passed (n c : ℕ) : Prop :=
  Share program state n c ∧ (priced program rules qualifiers c = false ∨ state c = .absent)

/-- A rule for an unreported member that the coverage of a parent goes through stands in for no
quantity: each reported component without a rule that is passed to behind it is covered itself. -/
def UnreportedBilled (coverage : List (ℕ × PartitionClass)) : Prop :=
  ∀ c, ReflTransGen (Passed program rules qualifiers state) parent c → state c = .absent →
    priced program rules qualifiers c →
    ∀ n d, ReflTransGen (Passed program rules qualifiers state) c n → Share program state n d →
      state d = .exact → priced program rules qualifiers d = false → (d, .covered) ∈ coverage

def provenShares : List ℕ :=
  if v.resolved n then shares program v.state n else []

/-- An unreported component behind an unreported member with a rule, its coverage resolved. -/
def StoodFor : Prop :=
  v.state n = .absent ∧ v.resolved n ∧
    ∃ c, ReflTransGen (Passed program rules qualifiers v.state) parent c ∧ v.state c = .absent ∧
      priced program rules qualifiers c ∧ ReflTransGen (Passed program rules qualifiers v.state) c n

def Traced : Prop :=
  ReflTransGen (Passed program rules qualifiers v.state) parent n ∧
    (Proven program rules qualifiers v n ∨ StoodFor program rules qualifiers v parent n)

/-- Components below a parent that bill it: each is reported and has a rule, and they add up to the
quantity that was reported for the parent. -/
def BilledBelow : Prop :=
  ∃ billed : Finset ℕ,
    (∀ n ∈ billed, Below program.completeIDs parent n ∧
      (reportedQuantity table program items n).isSome ∧ priced program rules qualifiers n) ∧
    reportedQuantity table program items parent =
      some (∑ n ∈ billed, (reportedQuantity table program items n).getD 0)

variable {table program rules qualifiers items v parent n}

lemma provenShares_of_resolved (h : v.resolved n) :
    provenShares program v n = shares program v.state n := if_pos h

lemma mem_provenShares {c : ℕ} (h : c ∈ provenShares program v n) :
    v.resolved n ∧ c ∈ shares program v.state n := by
  unfold provenShares at h
  split_ifs at h with hresolved
  · exact ⟨hresolved, h⟩
  · cases h

lemma provenShares_forest (hwf : program.WellFormed) (hsettles : Settles program v) :
    ∃ rank, Forest (provenShares program v) rank := by
  obtain ⟨rank, hrank⟩ := hwf.ordered.exists_rank
  have hmember : ∀ {n c}, c ∈ provenShares program v n → c ∈ program.completeIDs n := fun hc =>
    (shares_sublist program v.state _).subset (mem_provenShares hc).2
  refine ⟨rank, ?_, ?_, ?_⟩
  · intro n c hc
    have hcontained := hwf.complete_contained (hmember hc)
    have hn : n ∈ program.topo :=
      hwf.topo_perm.mem_iff.mpr (mem_range.mpr (hwf.contained_lt hcontained).1)
    exact (hrank n hn).2 c hcontained
  · intro a b c ha hb
    obtain ⟨total, hcover⟩ := resolvedCover hsettles (mem_provenShares ha).1
    exact hwf.owner_unique (hmember ha) (hmember hb) (hcover.unshared c (hmember ha))
  · intro n
    unfold provenShares
    split_ifs
    · exact (hwf.complete_nodup n).sublist (shares_sublist program v.state n)
    · exact nodup_nil

lemma Traced.resolved (h : Traced program rules qualifiers v parent n) : v.resolved n := by
  rcases h with ⟨-, hproven | ⟨-, hresolved, -⟩⟩
  · cases hproven with
    | intro hresolved _ _ => exact hresolved
  · exact hresolved

lemma Traced.value_eq (hsettles : Settles program v)
    (h : Traced program rules qualifiers v parent n) :
    (v.represented n).getD 0 =
    ((provenShares program v n).map fun c => (v.represented c).getD 0).sum := by
  obtain ⟨total, hcover⟩ := resolvedCover hsettles h.resolved
  rw [provenShares_of_resolved h.resolved, ← hcover.total_eq]
  by_cases hexact : v.state n = .exact
  · rw [represented_of_exact hsettles hexact, Option.getD_some]
    rcases h with ⟨-, hproven | ⟨habsent, -⟩⟩
    · cases hproven with
      | intro _ hconserved _ => rw [hconserved hexact, hcover.sum, Option.getD_some]
    · rw [habsent] at hexact
      cases hexact
  · rw [hcover.represented hexact, Option.getD_some]

/-- The members of a traced component are reported and have rules, or are traced themselves. -/
lemma Traced.members (hsettles : Settles program v) {coverage : List (ℕ × PartitionClass)}
    (hcoverage : ∀ c, (c, .covered) ∈ coverage → Proven program rules qualifiers v c)
    (hbilled : UnreportedBilled program rules qualifiers v.state parent coverage)
    (h : Traced program rules qualifiers v parent n) : ∀ c ∈ provenShares program v n,
      v.state c = .exact ∧ priced program rules qualifiers c ∨
      Traced program rules qualifiers v parent c := by
  intro c hc
  obtain ⟨hpath, htraced⟩ := h
  obtain ⟨hresolved, hshare⟩ := mem_provenShares hc
  obtain ⟨total, hcover⟩ := resolvedCover hsettles hresolved
  rcases Bool.eq_false_or_eq_true (priced program rules qualifiers c) with hprice | hprice
  · rcases hcover.share c hshare with hexact | ⟨habsent, hmember⟩
    · exact .inl ⟨hexact, hprice⟩
    · have hpassed := hpath.tail ⟨hshare, .inr habsent⟩
      exact .inr ⟨hpassed, .inr ⟨habsent, hmember, c, hpassed, habsent, hprice, .refl⟩⟩
  · have hpassed : Passed program rules qualifiers v.state n c := ⟨hshare, .inl hprice⟩
    refine .inr ⟨hpath.tail hpassed, ?_⟩
    rcases htraced with hproven | ⟨-, -, first, hfirst, hunreported, hrule, hbehind⟩
    · cases hproven with
      | intro _ _ hunpriced => exact .inl (hunpriced c hshare hprice)
    · rcases hcover.share c hshare with hexact | ⟨habsent, hmember⟩
      · exact .inl (hcoverage c (hbilled first hfirst hunreported hrule n c hbehind hshare hexact hprice))
      · exact .inr ⟨habsent, hmember, first, hfirst, hunreported, hrule, hbehind.tail hpassed⟩

lemma sum_max_zero {leaves : List ℕ} (hnodup : leaves.Nodup) (q : ℕ → ℚ) :
    (leaves.map fun n => max 0 (q n)).sum = ∑ n ∈ leaves.toFinset with 0 ≤ q n, q n := by
  rw [Finset.sum_filter, sum_toFinset _ hnodup]
  refine congrArg sum (map_congr_left fun n _ => ?_)
  split_ifs with hsign
  · exact max_eq_right hsign
  · exact max_eq_left (not_le.mp hsign).le

lemma billedBelow_of_proven (hwf : program.WellFormed)
    (hexact : (resolveCompleteCovers table program items).state parent = .exact)
    (hproven : Proven program rules qualifiers (resolveCompleteCovers table program items) parent)
    {coverage : List (ℕ × PartitionClass)}
    (hcoverage : ∀ c, (c, .covered) ∈ coverage →
      Proven program rules qualifiers (resolveCompleteCovers table program items) c)
    (hbilled : UnreportedBilled program rules qualifiers (resolveCompleteCovers table program items).state parent
      coverage)
    (hsign : ∀ q, reportedQuantity table program items parent = some q → 0 ≤ q) :
    BilledBelow table program rules qualifiers items parent := by
  set v := resolveCompleteCovers table program items with hv
  have hsettles : Settles program v := cover_eq hwf table items
  obtain ⟨rank, hforest⟩ := provenShares_forest hwf hsettles
  obtain ⟨leaves, hnodup, hleaves, hsum⟩ := hforest.exists_leaves
    (fun n => (v.represented n).getD 0)
    (fun n => v.state n = .exact ∧ priced program rules qualifiers n = true)
    (fun n hn => ⟨Traced.value_eq hsettles hn, Traced.members hsettles hcoverage hbilled hn⟩)
    (show Traced program rules qualifiers v parent parent from ⟨.refl, .inl hproven⟩)
  -- An exact component is worth its reported quantity, or zero for a negative one.
  have hworth : ∀ n, v.state n = .exact →
      (v.represented n).getD 0 = max 0 ((reportedQuantity table program items n).getD 0) := by
    intro n hn
    obtain ⟨q, hq, hread⟩ := (exact_iff_reported items n).mp hn
    rw [represented_of_exact hsettles hn, hq, hread]
    rfl
  obtain ⟨q, hq, -⟩ := (exact_iff_reported items parent).mp hexact
  refine ⟨{n ∈ leaves.toFinset | 0 ≤ (reportedQuantity table program items n).getD 0}, fun n hn => ?_, ?_⟩
  · obtain ⟨hpath, hleaf, hprice⟩ := hleaves n (mem_toFinset.mp (Finset.mem_filter.mp hn).1)
    refine ⟨TransGen.mono (fun a b hab => ?_) parent n hpath, ?_, hprice⟩
    · exact (shares_sublist program v.state a).subset (mem_provenShares hab).2
    · obtain ⟨r, hr, -⟩ := (exact_iff_reported items n).mp hleaf
      exact Option.isSome_iff_exists.mpr ⟨r, hr⟩
  · have hvalue := hworth parent hexact
    rw [hq, Option.getD_some, max_eq_right (hsign q hq)] at hvalue
    rw [hq, ← sum_max_zero hnodup, ← hvalue, ← hsum]
    exact congrArg (fun l => some (sum l)) (map_congr_left fun n hn => hworth n (hleaves n hn).2.1)

/-- A parent that is excused because its members are billed is billed: reported components below it,
each with a rule, add up to its quantity. -/
theorem covered_parent_billed (table : PrintTable) (schemas : List ComponentSchema)
    (rules : List (RatingRule μ))
    (qualifiers : List Dimension) (aggregates : List AggregateMeasure) (scope : GoStr)
    (parent : ℕ) (haccepted : validateComponentSchemas table schemas = .ok ()) :
    let program := compileSchemaProgram table schemas
    let items := scopeItems table aggregates scope
    let coverage := completeChildPartitionCoverage table program rules qualifiers aggregates scope
    (parent, .covered) ∈ coverage →
    (∀ q, reportedQuantity table program items parent = some q → 0 ≤ q) →
    UnreportedBilled program rules qualifiers (fun n => (readEvidence table program items n).state)
      parent coverage →
    BilledBelow table program rules qualifiers items parent := by
  intro program items coverage hcovered hsign hbilled
  have hwf : program.WellFormed := compile_wellFormed haccepted
  obtain ⟨hexact, hproven⟩ := proven_of_covered hwf hcovered
  exact billedBelow_of_proven hwf hexact hproven
    (fun c hc => (proven_of_covered hwf hc).2) hbilled hsign

/-- A total of text tokens, and of image tokens if there are any; text tokens are fresh or cached.
-/
def nestedSchema : ComponentSchema where
  id := lit "nested"
  version := lit "1"
  relationships :=
    [{ kind := .partition, parent := inputToken "input_token_total", child := inputToken "text_token" },
      { kind := .partition, parent := inputToken "input_token_total",
        child := inputToken "image_token", optional := true },
      { kind := .partition, parent := inputToken "text_token", child := inputToken "input_token_uncached" },
      { kind := .partition, parent := inputToken "text_token", child := inputToken "cache_read_input_token" }]

def nestedProgram : SchemaProgram := compileSchemaProgram asciiTable [nestedSchema]

def tokenRule (component : String) : RatingRule Unit :=
  ⟨lit component, some (inputToken component), [], ()⟩

def tokenMeasure (component : String) (quantity : ℚ) : AggregateMeasure :=
  ⟨inputToken component, [], some quantity, true, false⟩

lemma nestedSchema_accepted : validateComponentSchemas asciiTable [nestedSchema] = .ok () :=
  eq_ok_of_isOk (by decide +kernel)

lemma nestedProgram_count : nestedProgram.count = 5 := by decide +kernel

def nestedMeasures : List AggregateMeasure :=
  [tokenMeasure "input_token_total" 10, tokenMeasure "input_token_uncached" 6, tokenMeasure "cache_read_input_token" 4]

/-- Text tokens have a rule and are not reported; the tokens that they stand for have rules too. -/
def nestedRules : List (RatingRule Unit) :=
  [tokenRule "text_token", tokenRule "input_token_uncached", tokenRule "cache_read_input_token"]

lemma nestedProgram_lt {n c : ℕ} (h : c ∈ nestedProgram.completeIDs n) : n < 5 ∧ c < 5 := by
  have hwf : nestedProgram.WellFormed := compile_wellFormed nestedSchema_accepted
  have hlt := hwf.contained_lt (hwf.complete_contained h)
  rwa [nestedProgram_count] at hlt

lemma nestedRules_reported (coverage : List (ℕ × PartitionClass)) :
    UnreportedBilled nestedProgram nestedRules []
    (fun n => (readEvidence asciiTable nestedProgram (scopeItems asciiTable nestedMeasures []) n).state)
    2 coverage := by
  intro c _ _ _ n d _ hshare hexact hprice
  have hmember : d ∈ nestedProgram.completeIDs n := (shares_sublist nestedProgram _ n).subset hshare
  have hrules : ∀ n < 5, ∀ d ∈ nestedProgram.completeIDs n,
      (readEvidence asciiTable nestedProgram (scopeItems asciiTable nestedMeasures []) d).state =
        .exact →
        priced nestedProgram nestedRules [] d = true := by decide +kernel
  rw [hrules n (nestedProgram_lt hmember).1 d hmember hexact] at hprice
  cases hprice

theorem covered_parent_billed_of_nested :
    BilledBelow asciiTable nestedProgram nestedRules []
    (scopeItems asciiTable nestedMeasures []) 2 :=
  have hreported : reportedQuantity asciiTable nestedProgram
      (scopeItems asciiTable nestedMeasures []) 2 = some 10 := by
    decide +kernel
  covered_parent_billed asciiTable [nestedSchema] nestedRules [] nestedMeasures
    [] 2 nestedSchema_accepted
    (by decide +kernel) (fun q hq => by rw [← Option.some.inj (hreported.symm.trans hq)]; norm_num)
    (nestedRules_reported _)

def negativeMeasures : List AggregateMeasure :=
  [tokenMeasure "input_token_total" (-5), tokenMeasure "text_token" 0]

lemma not_billedBelow {items : List AggregateMeasure} {rules : List (RatingRule Unit)} {q : ℚ}
    (hreported : reportedQuantity asciiTable nestedProgram items 2 = some q) (hq : q ≠ 0)
    (hzero : ∀ n < 5, priced nestedProgram rules [] n →
      (reportedQuantity asciiTable nestedProgram items n).getD 0 = 0) :
    ¬ BilledBelow asciiTable nestedProgram rules [] items 2 := by
  rintro ⟨billed, hbilled, hsum⟩
  refine hq (Option.some.inj ((hreported.symm.trans hsum).trans (congrArg some (Finset.sum_eq_zero fun n hn => ?_))))
  obtain ⟨hbelow, -, hprice⟩ := hbilled n hn
  obtain ⟨m, -, hmember⟩ := TransGen.tail'_iff.mp hbelow
  exact hzero n (nestedProgram_lt hmember).2 hprice

/-- Two covered parents that nothing bills. A negative total is read as zero, which no text token
accounts for. And a rule for text tokens that nobody reported covers a total of tokens without
rules. -/
theorem covered_parent_unbilled : validateComponentSchemas asciiTable [nestedSchema] = .ok () ∧
    ∀ measures ∈ [negativeMeasures, nestedMeasures],
      (2, .covered) ∈ completeChildPartitionCoverage asciiTable
      (compileSchemaProgram asciiTable [nestedSchema])
        [tokenRule "text_token"] [] measures [] ∧
      ¬ BilledBelow asciiTable (compileSchemaProgram asciiTable [nestedSchema])
        [tokenRule "text_token"] [] (scopeItems asciiTable measures []) 2 := by
  refine ⟨nestedSchema_accepted, forall_mem_cons.mpr ⟨⟨by decide +kernel, ?_⟩,
    forall_mem_singleton.mpr ⟨by decide +kernel, ?_⟩⟩⟩
  · exact not_billedBelow (q := -5) (by decide +kernel) (by norm_num) (by decide +kernel)
  · exact not_billedBelow (q := 10) (by decide +kernel) (by norm_num) (by decide +kernel)

end Billing

end InteractiveProxy.Billing
