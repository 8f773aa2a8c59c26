import InteractiveProxy.AllocationNormal

/-! Allocations conserve their source: the rounded shares of a canonical record sum to its rounded
amount. The canonical form is its own canonical form and does not depend on the order of the lists
of a record. -/
namespace InteractiveProxy.Economics

open GoText Utf8Runes GuardedRun SignedWord Metering KeySort JsonEncoding List AllocationTarget AllocationSource

def AllocationTarget.nanoUnits (t : AllocationTarget) : ℤ :=
  (t.roundedAmount.map (·.nanoUnits.toInt)).getD 0

lemma addAllocationInt64_ok {a b c : Int64} (h : addAllocationInt64 a b = .ok c) :
    c.toInt = a.toInt + b.toInt := by
  unfold addAllocationInt64 at h
  split_ifs at h with hover
  cases h
  obtain ⟨ha, ha'⟩ := fits_toInt a
  obtain ⟨hb, hb'⟩ := fits_toInt b
  rw [not_or, not_and, not_and, Int64.lt_iff_toInt_lt, Int64.lt_iff_toInt_lt, Int64.lt_iff_toInt_lt,
    Int64.lt_iff_toInt_lt, toInt_zero] at hover
  apply toInt_add
  constructor
  · by_cases hneg : b.toInt < 0
    · have hbound := hover.2 hneg
      rw [toInt_sub (by constructor <;> simp only [Int64.toInt_minValue] <;> omega), Int64.toInt_minValue] at hbound
      omega
    · omega
  · by_cases hpos : 0 < b.toInt
    · have hbound := hover.1 hpos
      rw [toInt_sub (by constructor <;> simp only [Int64.toInt_maxValue] <;> omega), Int64.toInt_maxValue] at hbound
      omega
    · omega

lemma subtractAllocationInt64_ok {a b c : Int64} (h : subtractAllocationInt64 a b = .ok c) :
    c.toInt = a.toInt - b.toInt := by
  unfold subtractAllocationInt64 at h
  split_ifs at h with hfits
  cases h
  exact Int64.toInt_ofInt_of_le hfits.1 hfits.2

structure SameShares (ts out : List AllocationTarget) : Prop where
  cleared : out.map cleared = ts.map cleared
  rounded : ∀ t ∈ out, ∃ amount, t.roundedAmount = some amount

variable {ts out : List AllocationTarget} {s : AllocationSource} {r : AllocationRecord}

lemma roundTargets_ok {source : ℚ} {total total' : Int64}
    (h : roundTargets s source total ts = .ok (out, total')) :
    SameShares ts out ∧ total'.toInt = total.toInt + (out.map (·.nanoUnits)).sum := by
  induction ts generalizing total out with
  | nil =>
    cases h
    exact ⟨⟨rfl, by simp⟩, by simp⟩
  | cons t ts ih =>
    simp only [roundTargets, bind_eq_ok] at h
    obtain ⟨share, -, rounded, -, sum, hsum, ⟨rest, total''⟩, hrest, h⟩ := h
    cases h
    obtain ⟨⟨hcleared, hrounded⟩, htotal⟩ := ih hrest
    refine ⟨⟨by rw [map_cons, hcleared]; rfl, ?_⟩, ?_⟩
    · rw [forall_mem_cons]
      exact ⟨⟨_, rfl⟩, hrounded⟩
    · rw [map_cons, sum_cons, ← add_assoc, htotal, addAllocationInt64_ok hsum]
      rfl

lemma assignResidual_ok {residual : Int64} {i : ℕ}
    (hts : ∀ t ∈ ts, ∃ amount, t.roundedAmount = some amount)
    (h : assignResidual residual i ts = .ok out) :
    SameShares ts out ∧
    (out.map (·.nanoUnits)).sum = (ts.map (·.nanoUnits)).sum + residual.toInt := by
  unfold assignResidual at h
  split at h
  · cases h
  next t ht =>
  split at h
  · cases h
  next amount hamount =>
  obtain ⟨updated, hupdated, h⟩ := bind_eq_ok.mp h
  cases h
  obtain ⟨hi, ht⟩ := List.getElem?_eq_some_iff.mp ht
  subst ht
  refine ⟨⟨?_, fun o ho => ?_⟩, ?_⟩
  · rw [List.map_set]
    apply ext_getElem?
    intro j
    by_cases hj : i = j
    · subst hj
      simp [hi, cleared]
    · rw [List.getElem?_set_ne hj]
  · rcases mem_or_eq_of_mem_set ho with hmem | rfl
    · exact hts o hmem
    · exact ⟨_, rfl⟩
  · have hold : (ts[i]).nanoUnits = amount.nanoUnits.toInt := by
      unfold nanoUnits
      rw [hamount]
      rfl
    have hnew := addAllocationInt64_ok hupdated
    rw [List.map_set, sum_set', dif_pos (by rwa [length_map]), getElem_map, hold]
    simp only [nanoUnits, Option.map_some, Option.getD_some]
    omega

lemma applyAllocationRounding_money {out : AllocationRecord} {amount : Decimal}
    (hmoney : r.sourceAmount = some amount)
    (hnormal : amount.normalize = .ok amount) (h : applyAllocationRounding r = .ok out) :
    ∃ rounded targets residual, out = { r with
        roundedSourceAmount := some ⟨rounded, r.currency, true, r.roundingPolicy⟩, targets
        roundingResidualNano := residual } ∧
      roundToInt64 (amount.value * 10 ^ ledgerNanoScale) r.roundingPolicy = .ok rounded ∧
      SameShares r.targets targets ∧ (targets.map (·.nanoUnits)).sum = rounded.toInt := by
  simp only [applyAllocationRounding, hmoney, bind_eq_ok] at h
  obtain ⟨normalized, hnormalized, rounded, hrounded, ⟨targets, total⟩, htargets, residual, hresidual, h⟩ := h
  rw [← Except.ok.inj (hnormal.symm.trans (wrap_eq_ok.mp hnormalized))] at hrounded
  obtain ⟨hsame, htotal⟩ := roundTargets_ok htargets
  rw [toInt_zero] at htotal
  have hresidual : residual.toInt = rounded.toInt - total.toInt :=
    subtractAllocationInt64_ok hresidual
  split_ifs at h with hzero
  · cases h
    refine ⟨rounded, targets, residual, rfl, wrap_eq_ok.mp hrounded, hsame, ?_⟩
    rw [hzero, toInt_zero] at hresidual
    omega
  · obtain ⟨index, -, h⟩ := bind_eq_ok.mp h
    obtain ⟨assigned, hassigned, h⟩ := bind_eq_ok.mp h
    cases h
    obtain ⟨⟨hcleared, hsome⟩, hsum⟩ := assignResidual_ok hsame.rounded hassigned
    refine ⟨rounded, assigned, residual, rfl, wrap_eq_ok.mp hrounded, ⟨hcleared.trans hsame.cleared, hsome⟩, ?_⟩
    omega

lemma applyAllocationRounding_quantity (h : r.sourceAmount = none) :
    applyAllocationRounding r = .ok { r with roundingResidualNano := 0 } := by
  unfold applyAllocationRounding
  simp only [h]

lemma applyAllocationRounding_frame {out : AllocationRecord}
    (hnormal : ∀ amount, r.sourceAmount = some amount → amount.normalize = .ok amount)
    (h : applyAllocationRounding r = .ok out) :
    ∃ rounded targets residual, out = { r with
        roundedSourceAmount := rounded, targets, roundingResidualNano := residual } ∧
      targets.map cleared = r.targets.map cleared ∧
      (r.sourceAmount = none → rounded = r.roundedSourceAmount ∧ targets = r.targets ∧ residual = 0) := by
  cases hmoney : r.sourceAmount with
  | none =>
    rw [applyAllocationRounding_quantity hmoney] at h
    cases h
    exact ⟨_, _, _, rfl, rfl, fun _ => ⟨rfl, rfl, rfl⟩⟩
  | some amount =>
    obtain ⟨rounded, targets, residual, rfl, -, hsame, -⟩ :=
      applyAllocationRounding_money hmoney (hnormal amount hmoney) h
    exact ⟨_, _, _, rfl, hsame.cleared, fun hnone => nomatch hnone⟩

lemma map_bind_eq {ε α β γ : Type} (x : Except ε α) (g : α → Except ε β) (f : β → γ) :
    (x >>= g).map f = x >>= fun a => (g a).map f := by
  cases x <;> rfl

lemma applyAllocationRounding_createdAt (t : Timestamp) :
    applyAllocationRounding { r with createdAt := t } =
    (applyAllocationRounding r).map fun out => { out with createdAt := t } := by
  unfold applyAllocationRounding
  cases r.sourceAmount with
  | none => rfl
  | some amount =>
    simp only [map_bind_eq]
    refine bind_congr fun normalized => bind_congr fun rounded => bind_congr
      fun (targets, total) => ?_
    refine bind_congr fun residual => ?_
    split_ifs
    · rfl
    · simp only [map_bind_eq]
      rfl

def unrounded (r : AllocationRecord) (source : AllocationSource) (targets : List AllocationTarget) :
    AllocationRecord :=
  { sortRefs { r with toAllocationSource := source } with
    targets := sortBy (textOrder ∘ allocationTargetSortKey) targets }

variable {table : PrintTable} {key : AllocationTarget → List ℕ} {c : AllocationRecord}

lemma canonical_iff :
    canonical table r = .ok c ↔
    ∃ source targets out, r.toAllocationSource.normalize table = .ok source ∧
      checkLists table { r with toAllocationSource := source } = .ok () ∧
      r.targets.mapM (fun t => normalizeAllocationTarget table t source) = .ok targets ∧
      (targets.map (·.weight.value)).sum = 1 ∧ (targets.map (·.targetID)).Nodup ∧
        (targets.map subjectKey).Nodup ∧
      applyAllocationRounding (unrounded r source targets) = .ok out ∧ ¬ out.createdAt.isZero ∧
      c = { out with createdAt := out.createdAt.utc } := by
  constructor
  · intro h
    obtain ⟨source, hsource, h⟩ := bind_eq_ok.mp h
    simp only [seq_eq_ok] at h
    obtain ⟨hlists, h⟩ := h
    obtain ⟨⟨targets, total⟩, htargets, h⟩ := bind_eq_ok.mp h
    simp only [seq_eq_ok, reject_eq_ok, not_not] at h
    obtain ⟨rfl, h⟩ := h
    obtain ⟨out, hout, h⟩ := bind_eq_ok.mp h
    simp only [seq_eq_ok, reject_eq_ok] at h
    obtain ⟨hzero, h⟩ := h
    cases h
    obtain ⟨hmap, hsum, -, hids, hsubjects⟩ :=
      (normalizeTargets_iff (normalize_facts hsource).1).mp htargets
    exact ⟨source, targets, out, hsource, hlists, hmap, by linarith, hids, hsubjects, hout, hzero, rfl⟩
  · rintro ⟨source, targets, out, hsource, hlists, hmap, hsum, hids, hsubjects, hout, hzero, rfl⟩
    refine bind_eq_ok.mpr ⟨source, hsource, ?_⟩
    simp only [seq_eq_ok]
    refine ⟨hlists, bind_eq_ok.mpr ⟨(targets, 1), ?_, ?_⟩⟩
    · rw [normalizeTargets_iff (normalize_facts hsource).1]
      exact ⟨hmap, by rw [hsum, zero_add], by simp, hids, hsubjects⟩
    · simp only [seq_eq_ok, reject_eq_ok, not_not, true_and]
      refine bind_eq_ok.mpr ⟨out, hout, ?_⟩
      simp only [seq_eq_ok, reject_eq_ok]
      exact ⟨hzero, rfl⟩

lemma normalize_amount {source : AllocationSource} (h : s.normalize table = .ok source) :
    ∀ amount, source.sourceAmount = some amount → amount.normalize = .ok amount := by
  intro amount hmoney
  obtain ⟨-, -, -, -, hamount⟩ := normalize_facts (normalize_normalize h)
  obtain ⟨n, hn, hsome⟩ := hamount amount hmoney
  rw [hmoney] at hsome
  rwa [Option.some.inj hsome] at hn ⊢

lemma canonical_of_perm {r' : AllocationRecord} (hperm : Permuted r r')
    (h : canonical table r = .ok c) : canonical table r' = .ok c := by
  obtain ⟨source, targets, out, hsource, hlists, hmap, hsum, hids, hsubjects, hout, hzero, rfl⟩ :=
    canonical_iff.mp h
  obtain ⟨targets', hmap', hp⟩ := mapM_perm hmap hperm.targets.symm
  have hnormal : Permuted { r with toAllocationSource := source }
      { r' with toAllocationSource := source } :=
    ⟨rfl, hperm.roundedSourceAmount, hperm.roundingResidualNano, hperm.createdAt,
      hperm.observations, hperm.valuations, hperm.supersedes, hperm.targets⟩
  have hunrounded : unrounded r' source targets' = unrounded r source targets := by
    unfold unrounded
    rw [sortRefs_of_perm hlists hnormal, sortTargets_of_perm hids hp.symm]
  refine canonical_iff.mpr
    ⟨source, targets', out, hperm.source ▸ hsource, ?_, hmap', ?_, ?_, ?_, ?_, hzero, rfl⟩
  · exact checkLists_of_perm hnormal.source hnormal.observations hnormal.valuations hnormal.supersedes
      hnormal.targets.length_eq.symm (fun _ hnone hzero => ⟨hnormal.roundedSourceAmount.trans hnone,
        hnormal.roundingResidualNano.trans hzero⟩) hlists
  · rw [(hp.map _).sum_eq, hsum]
  · exact (hp.map _).nodup_iff.mpr hids
  · exact (hp.map _).nodup_iff.mpr hsubjects
  · rw [hunrounded, hout]

lemma map_cleared_sorted (htexts : s.NormalTexts table)
    (h : ts.mapM (fun t => normalizeAllocationTarget table t s) = .ok out) :
    (sortBy key out).map cleared = sortBy key out := by
  refine (map_congr_left fun o ho => ?_).trans (map_id _)
  obtain ⟨t, -, ht⟩ := (mapM_ok h).2 o (mem_sortBy.mp ho)
  exact (normalizeAllocationTarget_share htexts ht).2.2

lemma mapM_normalize_again {given : List AllocationTarget} (htexts : s.NormalTexts table)
    (hsource : s.sourceSubject.validate table = .ok ())
    (h : ts.mapM (fun t => normalizeAllocationTarget table t s) = .ok out)
    (hgiven : given.map cleared = sortBy key out)
    (hquantity : s.sourceAmount = none → given = sortBy key out) :
    given.mapM (fun t => normalizeAllocationTarget table t s) = .ok (sortBy key out) := by
  rw [mapM_eq_ok, ← hgiven, forall₂_map_right_iff, forall₂_same]
  intro t ht
  have hmem : t.cleared ∈ sortBy key out := hgiven ▸ mem_map_of_mem ht
  obtain ⟨t0, -, ht0⟩ := (mapM_ok h).2 _ (mem_sortBy.mp hmem)
  refine normalizeAllocationTarget_again htexts hsource ht0 rfl fun hnone => ?_
  obtain ⟨t1, -, ht1⟩ := (mapM_ok h).2 t (mem_sortBy.mp (hquantity hnone ▸ ht))
  exact (normalizeAllocationTarget_share htexts ht1).2.2.symm

lemma canonical_canonical (h : canonical table r = .ok c) : canonical table c = .ok c := by
  obtain ⟨source, targets, out, hsource, hlists, hmap, hsum, hids, hsubjects, hout, hzero, rfl⟩ :=
    canonical_iff.mp h
  obtain ⟨htexts, hsubject, -⟩ := normalize_facts hsource
  have hagain :=
    applyAllocationRounding_createdAt (r := unrounded r source targets) out.createdAt.utc
  rw [hout] at hagain
  obtain ⟨rounded, given, residual, rfl, hcleared, hquantity⟩ :=
    applyAllocationRounding_frame (normalize_amount hsource) hout
  have hsorted := sortBy_perm (textOrder ∘ allocationTargetSortKey) targets
  have hgiven := hcleared.trans (map_cleared_sorted htexts hmap)
  refine canonical_iff.mpr ⟨source, sortBy (textOrder ∘ allocationTargetSortKey) targets,
    { unrounded r source targets with
      roundedSourceAmount := rounded, targets := given, roundingResidualNano := residual
      createdAt := (unrounded r source targets).createdAt.utc },
    normalize_normalize hsource, ?_, ?_, ?_, ?_, ?_, ?_, ?_, rfl⟩
  · refine checkLists_of_perm ?_ ?_ ?_ ?_ ?_ ?_ hlists
    · rfl
    · exact (sortBy_perm _ _).symm
    · exact (sortBy_perm _ _).symm
    · exact (sortBy_perm _ _).symm
    · have hlength := congrArg length hgiven
      rw [length_map, hsorted.length_eq] at hlength
      exact hlength.trans (mapM_eq_ok.mp hmap).length_eq.symm
    · intro hnone _ _
      exact ⟨(hquantity hnone).1, (hquantity hnone).2.2⟩
  · exact mapM_normalize_again htexts hsubject hmap hgiven fun hnone => (hquantity hnone).2.1
  · rw [(hsorted.map _).sum_eq, hsum]
  · exact (hsorted.map _).nodup_iff.mpr hids
  · exact (hsorted.map _).nodup_iff.mpr hsubjects
  · refine Eq.trans (congrArg applyAllocationRounding ?_) hagain
    unfold unrounded sortRefs
    simp only [sortBy_sortBy]
  · exact hzero

/-- Allocation conserves its source. When a monetary record has a canonical form, the source is
rounded once under the policy of the record, the rounded shares of the targets sum to just that, and
the shares themselves sum to one. The canonical form is its own, and that of every record with the
same lists in another order. -/
theorem allocation_conserves_source (table : PrintTable) {r c : AllocationRecord} {amount : Decimal}
    (hmoney : r.sourceAmount = some amount) (h : canonical table r = .ok c) :
    ∃ rounded : AllocationRoundedAmount, c.roundedSourceAmount = some rounded ∧
      IsRounded r.roundingPolicy (amount.value * 10 ^ ledgerNanoScale) rounded.nanoUnits.toInt ∧
      (∀ t ∈ c.targets, ∃ share, t.roundedAmount = some share) ∧
      (c.targets.map (·.nanoUnits)).sum = rounded.nanoUnits.toInt ∧
      (c.targets.map (·.share.value)).sum = 1 ∧
      canonical table c = .ok c ∧
      ∀ r', Permuted r r' → canonical table r' = .ok c := by
  have hfix := canonical_canonical h
  have hperm : ∀ r', Permuted r r' → canonical table r' = .ok c :=
    fun r' hp => canonical_of_perm hp h
  obtain ⟨source, targets, out, hsource, hlists, hmap, hsum, -, -, hout, -, rfl⟩ :=
    canonical_iff.mp h
  obtain ⟨htexts, -, -, hpolicy, hamount⟩ := normalize_facts hsource
  obtain ⟨n, hn, hsome⟩ := hamount amount hmoney
  obtain ⟨rounded, given, residual, rfl, hround, hsame, htotal⟩ :=
    applyAllocationRounding_money hsome (normalize_amount hsource n hsome) hout
  have hshares : (given.map (·.share.value)).sum = 1 := by
    have hgiven := hsame.cleared.trans (map_cleared_sorted htexts hmap)
    have hshare : given.map (·.share.value) =
        (sortBy (textOrder ∘ allocationTargetSortKey) targets).map (·.weight.value) := by
      rw [← hgiven, map_map]
      refine map_congr_left fun t ht => ?_
      have hmem := hgiven ▸ mem_map_of_mem ht
      obtain ⟨t₀, -, ht₀⟩ := (mapM_ok hmap).2 _ (mem_sortBy.mp hmem)
      exact congrArg AllocationFraction.value (normalizeAllocationTarget_share htexts ht₀).2.1
    rw [hshare, ((sortBy_perm _ _).map _).sum_eq, hsum]
  refine ⟨_, rfl, ?_, hsame.rounded, htotal, hshares, hfix, hperm⟩
  rw [← hpolicy, ← (Decimal.normalize_value hn).2]
  exact roundToInt64_isRounded hround

def thirdFor (leg : String) : AllocationTarget where
  targetID := lit leg
  target := { SubjectRef.empty with kind := .aLeg, storeID := lit "s", aLegID := lit leg }
  unallocated := false
  informational := false
  accountID := []
  periodID := []
  currency := []
  unit := []
  weight := ⟨lit "2", lit "6"⟩
  share := ⟨[], []⟩
  roundedAmount := none
  roundingResidualNano := 0

def sharedCost : AllocationRecord where
  id := lit "a"
  version := 1
  revision := 0
  sourceSubject := { SubjectRef.empty with
    kind := .resource, storeID := lit "s", resourceID := lit "r", periodID := lit "p" }
  sourceBasis := .providerReported
  sourceAmount := some ⟨lit "100", 2⟩
  sourceQuantity := none
  currency := lit "USD"
  unit := []
  policy := ⟨lit "even", lit "1", replicate 64 0x41⟩
  operation := .allocate
  roundingScope := .call
  roundingPolicy := .halfEven
  roundingResidualPolicy := .toLastTarget
  roundedSourceAmount := none
  roundingResidualNano := 0
  sourceObservationRefs := []
  sourceValuationRefs := []
  supersedes := []
  targets := [thirdFor "z", thirdFor "x", thirdFor "y"]
  createdAt := ⟨1, lit "UTC"⟩

lemma ok_of_toOption_map {ε α β : Type} {x : Except ε α} {f : α → β} {v : β}
    (h : x.toOption.map f = some v) : ∃ a, x = .ok a ∧ f a = v := by
  cases x with
  | error e => cases h
  | ok a => exact ⟨a, rfl, Option.some.inj h⟩

theorem allocation_conserves_source_thirds :
    ∃ c, canonical asciiTable sharedCost = .ok c ∧
    c.targets.map (·.nanoUnits) = [333333333, 333333333, 333333334] ∧
      (c.targets.map (·.nanoUnits)).sum = 1000000000 ∧ canonical asciiTable c = .ok c := by
  have hok : ((canonical asciiTable sharedCost).toOption.map fun c => (c.targets.map (·.nanoUnits),
      c.roundedSourceAmount.map (·.nanoUnits.toInt))) =
      some ([333333333, 333333333, 333333334], some 1000000000) := by decide +kernel
  obtain ⟨c, hc, hvalues⟩ := ok_of_toOption_map hok
  obtain ⟨rounded, hrounded, -, -, hsum, -, hfix, -⟩ :=
    allocation_conserves_source asciiTable rfl hc
  simp only [hrounded, Prod.mk.injEq] at hvalues
  exact ⟨c, hc, hvalues.1, hsum.trans (Option.some.inj hvalues.2), hfix⟩

end InteractiveProxy.Economics
