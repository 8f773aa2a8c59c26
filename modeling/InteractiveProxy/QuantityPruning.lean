import InteractiveProxy.GuardedRun
import InteractiveProxy.QuantityTurns

/-! The marks by which the solver skips turns. A turn is quiet where it would move nothing; the
solver runs as the same sweeps without marks do, turn for turn, as long as no turn is skipped that
is not quiet. -/
namespace InteractiveProxy.Billing

open GoText GuardedRun Metering DepthFirst List Bool Intervals

variable {program : SchemaProgram} {state : ℕ → QuantityEvidenceState} {represented : ℕ → Option ℚ}

section Children

variable {p n : ℕ} {m : PartitionMember}

lemma isChild_of_member (h : m ∈ program.completeChildren p) : IsChild program p m.id :=
  .inl (mem_map_of_mem h)

variable (hwf : program.WellFormed)
include hwf

lemma SchemaProgram.WellFormed.isChild_contained (h : IsChild program p n) :
    n ∈ program.containmentChildren p :=
  h.elim hwf.complete_contained hwf.subset_contained

lemma SchemaProgram.WellFormed.isChild_reverse (h : IsChild program p n) :
    p ∈ program.reverseContainment n :=
  hwf.mem_reverse.mpr (hwf.isChild_contained h)

lemma SchemaProgram.WellFormed.contained_ne (h : n ∈ program.containmentChildren p) : n ≠ p := by
  rintro rfl
  obtain ⟨rank, hrank⟩ := hwf.ordered.exists_rank
  have hn : n ∈ program.topo := hwf.topo_perm.mem_iff.mpr (mem_range.mpr (hwf.contained_lt h).1)
  exact lt_irrefl _ ((hrank n hn).2 n h)

lemma SchemaProgram.WellFormed.sameAt_member {s s' : Intervals}
    (h : SameAround program p s s') (hm : m ∈ program.completeChildren p) : SameAt m.id s s' :=
  h m.id (.inr (hwf.isChild_reverse (isChild_of_member hm)))

end Children

section UpQuiet

variable (program state) (s : Intervals) (p : ℕ)

def countedMembers : List PartitionMember := (program.completeChildren p).filter (counted state)

@[mk_iff]
structure UpQuiet : Prop where
  lower : program.completeChildren p ≠ [] → lowerSum s (countedMembers program state p) ≤ s.lower p
  upper : program.completeChildren p ≠ [] → Bounded s (countedMembers program state p) →
    ∃ u ∈ s.upper p, u ≤ upperSum s (countedMembers program state p)
  subset : ∀ c ∈ program.subsetChildren p, s.boundLower c ≤ s.lower p

instance : Decidable (UpQuiet program state s p) := decidable_of_iff' _ (upQuiet_iff ..)

def UpSettled : Prop :=
  ∀ p, s.settledUp p → s.contradicted p = false → UpQuiet program state s p

variable {program state s p} {s' : Intervals}

lemma UpQuiet.upMoves_eq (h : UpQuiet program state s p)
    (huncrossed : ∀ u ∈ s.upper p, s.lower p ≤ u) : upMoves program state s p = s := by
  obtain ⟨hlower, hupper, hinfinite⟩ := coverTotals_eq state s (program.completeChildren p)
  have hmembers : boundFromMembers program state s p = s := by
    unfold boundFromMembers
    dsimp only
    split_ifs with hnil hfinite
    · rfl
    · rw [raiseLower_eq_self (hlower.trans_le (h.lower hnil))]
      obtain ⟨u, hu, hle⟩ := h.upper hnil (bounded_iff_countP.mpr (hinfinite ▸ hfinite))
      exact cutUpper_eq_self hu (hle.trans hupper.ge)
    · exact raiseLower_eq_self (hlower.trans_le (h.lower hnil))
  have hsubset : (program.subsetChildren p).foldl (fun s child => raiseLower program s p (s.boundLower child)) s = s :=
    foldlRecOn (motive := fun t => t = s) _ _ rfl fun t ht c hc => by
      rw [ht]
      exact raiseLower_eq_self (h.subset c hc)
  unfold upMoves
  rw [hmembers, hsubset, flagCrossed_eq_self huncrossed]

lemma boundFromMembers_bounds (hmembers : program.completeChildren p ≠ []) :
    lowerSum s (countedMembers program state p) ≤ (boundFromMembers program state s p).lower p ∧
      (Bounded s (countedMembers program state p) → ∃ u ∈ (boundFromMembers program state s p).upper p,
        u ≤ upperSum s (countedMembers program state p)) := by
  obtain ⟨hlower, hupper, hinfinite⟩ := coverTotals_eq state s (program.completeChildren p)
  have hraised : lowerSum s (countedMembers program state p) ≤
      (raiseLower program s p (coverTotals state s (program.completeChildren p)).lower).lower p := by
    rw [raiseLower_lower_self, hlower]
    exact le_max_right _ _
  unfold boundFromMembers
  dsimp only
  rw [if_neg hmembers]
  split_ifs with hfinite
  · refine ⟨by rwa [cutUpper_lower], fun _ => ?_⟩
    obtain ⟨u, hu, hle⟩ := cutUpper_upper_self program
      (raiseLower program s p (coverTotals state s (program.completeChildren p)).lower) p
      (coverTotals state s (program.completeChildren p)).upper
    exact ⟨u, hu, hle.trans hupper.le⟩
  · refine ⟨hraised, fun hbounded => absurd ?_ hfinite⟩
    rw [hinfinite]
    exact bounded_iff_countP.mp hbounded

lemma raised_from_subset {l : List ℕ} (hself : ∀ c ∈ l, c ≠ p) (s : Intervals) :
    ∀ c ∈ l, s.boundLower c ≤
      (l.foldl (fun s child => raiseLower program s p (s.boundLower child)) s).lower p := by
  induction l generalizing s with
  | nil => exact nofun
  | cons a rest ih =>
    have hrest := ih (fun c hc => hself c (mem_cons_of_mem a hc))
      (raiseLower program s p (s.boundLower a))
    intro c hc
    rcases mem_cons.mp hc with rfl | hc
    · have hraised : s.boundLower c ≤ (raiseLower program s p (s.boundLower c)).lower p := by
        rw [raiseLower_lower_self]
        exact le_max_right _ _
      have hloop : Moves program (· = p) (raiseLower program s p (s.boundLower c)) (rest.foldl
          (fun s child => raiseLower program s p (s.boundLower child))
          (raiseLower program s p (s.boundLower c))) :=
        Moves.foldl (fun s child _ => raiseLower_moves s p (s.boundLower child)) _
      exact hraised.trans (hloop.lower_le p)
    · have hmoves : Moves program (· = p) s (raiseLower program s p (s.boundLower a)) :=
        raiseLower_moves s p _
      rw [← (hmoves.same c (hself c (mem_cons_of_mem a hc))).boundLower]
      exact hrest c hc

lemma UpQuiet.of_same (h : UpQuiet program state s p) (hself : SameAt p s s')
    (hmembers : ∀ m ∈ countedMembers program state p, SameAt m.id s s')
    (hsubset : ∀ c ∈ program.subsetChildren p, s'.boundLower c ≤ s'.lower p) :
    UpQuiet program state s' p := by
  obtain ⟨hlower, hupper, hbounded⟩ := sums_congr hmembers
  refine ⟨?_, ?_, hsubset⟩
  · rw [hlower, hself.lower]
    exact h.lower
  · rw [hupper, hself.upper, hbounded]
    exact h.upper

variable (hwf : program.WellFormed)
include hwf

lemma UpQuiet.congr (h : UpQuiet program state s p) (haround : SameAround program p s s') :
    UpQuiet program state s' p := by
  have hself := haround p (.inl rfl)
  refine h.of_same hself (fun m hm => hwf.sameAt_member haround (mem_of_mem_filter hm))
    fun c hc => ?_
  rw [hself.lower, (haround c (.inr (hwf.isChild_reverse (.inr hc)))).boundLower]
  exact h.subset c hc

lemma upMoves_quiet (s : Intervals) (p : ℕ) :
    UpQuiet program state (upMoves program state s p) p := by
  have hmoves := upMoves_moves program state s p
  have hsame : ∀ n, IsChild program p n → SameAt n s (upMoves program state s p) := fun n hn =>
    hmoves.same n (hwf.contained_ne (hwf.isChild_contained hn))
  obtain ⟨hlower, hupper, hbounded⟩ := sums_congr (l := countedMembers program state p) fun m hm =>
    hsame m.id (isChild_of_member (mem_of_mem_filter hm))
  have hloop : Moves program (· = p) (boundFromMembers program state s p)
      (upMoves program state s p) :=
    (Moves.foldl (fun s child _ => raiseLower_moves s p (s.boundLower child)) _).trans (flagCrossed_moves _ p)
  refine ⟨fun hnil => ?_, fun hnil hb => ?_, fun c hc => ?_⟩
  · rw [hlower]
    exact (boundFromMembers_bounds hnil).1.trans (hloop.lower_le p)
  · obtain ⟨u, hu, hle⟩ := (boundFromMembers_bounds hnil).2 (hbounded.mp hb)
    obtain ⟨u', hu', hle'⟩ := hloop.upper_le p u hu
    rw [hupper]
    exact ⟨u', hu', hle'.trans hle⟩
  · have hbefore :=
      (boundFromMembers_moves program state s p).same c (hwf.contained_ne (hwf.subset_contained hc))
    rw [(hsame c (.inr hc)).boundLower, ← hbefore.boundLower]
    unfold upMoves
    rw [flagCrossed_lower]
    exact raised_from_subset (fun c hc => hwf.contained_ne (hwf.subset_contained hc)) _ c hc

section Settled

variable (h : UpSettled program state s)

include h

lemma UpSettled.moves {moved : ℕ → Prop} (hmoves : Moves program moved s s') :
    UpSettled program state s' := by
  intro p hp hflag
  obtain ⟨hbefore, haround⟩ := hmoves.settledUp p hp
  exact (h p hbefore ((haround p (.inl rfl)).contradicted ▸ hflag)).congr hwf haround

lemma UpSettled.upBody (parent : ℕ) : UpSettled program state (upBody program state s parent) := by
  intro p hp hflag
  by_cases hself : p = parent
  · subst hself
    have hquiet : UpQuiet program state (upMoves program state s p) p := upMoves_quiet hwf s p
    exact ⟨hquiet.lower, hquiet.upper, hquiet.subset⟩
  · have hp : Function.update (upMoves program state s parent).settledUp parent true p := hp
    rw [Function.update_of_ne hself] at hp
    have hquiet := h.moves hwf (upMoves_moves program state s parent) p hp hflag
    exact ⟨hquiet.lower, hquiet.upper, hquiet.subset⟩

lemma UpSettled.downBody (parent : ℕ) :
    UpSettled program state (downBody program state represented s parent) := by
  rw [downBody_eq]
  intro p hp hflag
  have hquiet := h.moves hwf (downMoves_moves program state represented s parent) p hp hflag
  exact ⟨hquiet.lower, hquiet.upper, hquiet.subset⟩

end Settled

end UpQuiet

section MemberSpec

variable {members : List PartitionMember} {s : Intervals} {p : ℕ} {m : PartitionMember}

lemma cutTurn_lower : (cutTurn program state members p s m).lower = s.lower := by
  unfold cutTurn
  split
  · rfl
  · exact cutUpper_lower program s m.id _

end MemberSpec

/-- The same bounds and flags. -/
def SameBounds (s s' : Intervals) : Prop := ∀ n, SameAt n s s'

structure Tightens (s s' : Intervals) : Prop where
  lower_le : ∀ n, s.lower n ≤ s'.lower n
  upper_le : ∀ n, ∀ u ∈ s.upper n, ∃ u' ∈ s'.upper n, u' ≤ u
  flagged : ∀ n, s.contradicted n → s'.contradicted n

section Tightens

variable {s t u : Intervals}

lemma SameAt.symm {n : ℕ} (h : SameAt n s t) : SameAt n t s :=
  ⟨h.lower.symm, h.upper.symm, h.contradicted.symm⟩

lemma Tightens.refl (s : Intervals) : Tightens s s :=
  ⟨fun _ => le_rfl, fun _ u hu => ⟨u, hu, le_rfl⟩, fun _ h => h⟩

lemma Tightens.trans (h : Tightens s t) (h' : Tightens t u) : Tightens s u where
  lower_le n := (h.lower_le n).trans (h'.lower_le n)
  upper_le n x hx := by
    obtain ⟨y, hy, hle⟩ := h.upper_le n x hx
    obtain ⟨z, hz, hle'⟩ := h'.upper_le n y hy
    exact ⟨z, hz, hle'.trans hle⟩
  flagged n hn := h'.flagged n (h.flagged n hn)

/-- What lies between two states with the same bounds has these bounds too. -/
lemma SameBounds.between (hsame : SameBounds s u) (h : Tightens s t) (h' : Tightens t u) :
    SameBounds s t := by
  intro n
  refine ⟨le_antisymm ((h'.lower_le n).trans_eq (hsame n).lower) (h.lower_le n), ?_, ?_⟩
  · cases hs : s.upper n with
    | none =>
      refine Option.eq_none_iff_forall_not_mem.mpr fun x hx => ?_
      obtain ⟨y, hy, -⟩ := h'.upper_le n x hx
      rw [(hsame n).upper, hs] at hy
      cases hy
    | some x =>
      obtain ⟨y, hy, hle⟩ := h.upper_le n x hs
      obtain ⟨z, hz, hle'⟩ := h'.upper_le n y hy
      rw [(hsame n).upper, hs] at hz
      cases hz
      rw [Option.mem_def.mp hy, le_antisymm hle hle']
  · cases hs : s.contradicted n with
    | true => exact h.flagged n hs
    | false =>
      refine eq_false_iff.mpr fun ht => eq_false_iff.mp hs ?_
      rw [← (hsame n).contradicted]
      exact h'.flagged n ht

variable {ι : Type} {turn : Intervals → ι → Intervals} (hturn : ∀ t i, Tightens t (turn t i))
include hturn

lemma Tightens.foldl (l : List ι) (s : Intervals) : Tightens s (l.foldl turn s) :=
  foldlRecOn (motive := fun t => Tightens s t) l turn (.refl s) fun t h i _ => h.trans (hturn t i)

/-- Turns that leave the bounds as they were in the end do so one by one. -/
lemma SameBounds.single {before after : List ι} {i : ι}
    (h : SameBounds s ((before ++ i :: after).foldl turn s)) :
    SameBounds s (before.foldl turn s) ∧ SameBounds s (turn (before.foldl turn s) i) := by
  rw [foldl_append, foldl_cons] at h
  have hbefore := Tightens.foldl hturn before s
  have hi := hturn (before.foldl turn s) i
  have hafter := Tightens.foldl hturn after (turn (before.foldl turn s) i)
  exact ⟨h.between hbefore (hi.trans hafter), h.between (hbefore.trans hi) hafter⟩

end Tightens

section DownQuiet

variable (program state represented) (s : Intervals) (p : ℕ)

@[mk_iff]
structure MemberQuiet (m : PartitionMember) : Prop where
  upper : ∀ u ∈ s.upper p, ∃ own ∈ s.upper m.id,
    own ≤ remainder u (lowerSum s (others state (program.completeChildren p) m))
  lower : Bounded s (others state (program.completeChildren p) m) →
    remainder (s.lower p) (upperSum s (others state (program.completeChildren p) m)) ≤ s.lower m.id

@[mk_iff]
structure DownQuiet : Prop where
  member : ∀ m ∈ program.completeChildren p, s.contradicted m.id = false → represented m.id ≠ none →
    MemberQuiet program state s p m
  subset : ∀ c ∈ program.subsetChildren p, s.contradicted c = false →
    ∀ u ∈ s.upper p, ∃ own ∈ s.upper c, own ≤ u

instance (m : PartitionMember) : Decidable (MemberQuiet program state s p m) :=
  decidable_of_iff' _ (memberQuiet_iff ..)

instance : Decidable (DownQuiet program state represented s p) :=
  decidable_of_iff' _ (downQuiet_iff ..)

/-- The other members that count at the turn of one. -/
abbrev rivals (m : PartitionMember) : List PartitionMember :=
    others state (program.completeChildren p) m

abbrev turnOf (s : Intervals) (m : PartitionMember) : Intervals :=
  memberTurn program state represented (program.completeChildren p) p s m

variable {program state represented s p} {s' : Intervals} {m k : PartitionMember}

lemma MemberQuiet.congr (h : MemberQuiet program state s p m) (hself : SameAt p s s')
    (hm : SameAt m.id s s')
    (hothers : ∀ k ∈ rivals program state p m, SameAt k.id s s') :
    MemberQuiet program state s' p m := by
  obtain ⟨hlower, hupper, hbounded⟩ := sums_congr hothers
  refine ⟨?_, ?_⟩
  · rw [hself.upper, hm.upper, hlower]
    exact h.upper
  · rw [hself.lower, hm.lower, hupper, hbounded]
    exact h.lower

lemma memberTurn_eq_self (hsane : Sane state s)
    (h : s.contradicted m.id = false → represented m.id ≠ none → MemberQuiet program state s p m) :
    turnOf program state represented p s m = s := by
  unfold turnOf memberTurn
  split_ifs with hskip
  · rfl
  rw [not_eq_true, or_eq_false_iff] at hskip
  have hquiet := h hskip.1 fun hnone => by
    rw [hnone] at hskip
    exact absurd hskip.2 (by simp)
  have hcut : cutTurn program state (program.completeChildren p) p s m = s := by
    unfold cutTurn
    split
    · rfl
    · next u hu =>
      obtain ⟨own, hown, hle⟩ := hquiet.upper u hu
      exact cutUpper_eq_self hown hle
  have hraise : raiseTurn program state (program.completeChildren p) p s s m = s :=
    iteInduction (motive := fun t => t = s)
      (fun hbounded => raiseLower_eq_self (hquiet.lower hbounded)) fun _ => rfl
  unfold memberMove
  rw [hcut, hraise]
  exact flagCrossed_eq_self (hsane.uncrossed m.id hskip.1)

lemma DownQuiet.downMoves_eq (hsane : Sane state s) (h : DownQuiet program state represented s p) :
    downMoves program state represented s p = s := by
  have hmembers : (program.completeChildren p).foldl
      (turnOf program state represented p) s = s :=
    foldlRecOn (motive := fun t => t = s) _ _ rfl fun t ht m hm => by
      rw [ht]
      exact memberTurn_eq_self hsane (h.member m hm)
  unfold downMoves
  rw [hmembers]
  refine foldlRecOn (motive := fun t => t = s) _ _ rfl fun t ht c hc => ?_
  rw [ht]
  unfold subsetBody
  split_ifs with hflag
  · rfl
  have hflag := eq_false_iff.mpr hflag
  split
  · rfl
  · next u hu =>
    obtain ⟨own, hown, hle⟩ := h.subset c hc hflag u hu
    rw [cutUpper_eq_self hown hle, flagCrossed_eq_self (hsane.uncrossed c hflag)]

section Member

variable (hwf : program.WellFormed) (hm : m ∈ program.completeChildren p)

include hwf hm

end Member

variable (hwf : program.WellFormed)
include hwf

lemma DownQuiet.congr (h : DownQuiet program state represented s p)
    (haround : SameAround program p s s') : DownQuiet program state represented s' p := by
  have hself := haround p (.inl rfl)
  refine ⟨fun m hm hflag hshare => ?_, fun c hc hflag => ?_⟩
  · have hsame := hwf.sameAt_member haround hm
    exact (h.member m hm (hsame.contradicted ▸ hflag) hshare).congr hself hsame fun k hk =>
      hwf.sameAt_member haround (mem_of_mem_others hk).1
  · have hsame := haround c (.inr (hwf.isChild_reverse (.inr hc)))
    rw [hself.upper, hsame.upper]
    exact h.subset c hc (hsame.contradicted ▸ hflag)

end DownQuiet

variable (program : SchemaProgram) (state : ℕ → QuantityEvidenceState) (represented : ℕ → Option ℚ)

def fullUpPass (s : Intervals) : Intervals :=
  program.topo.foldl (fun s parent => if s.contradicted parent then s else upBody program state s parent) s

def fullDownPass (s : Intervals) : Intervals :=
  program.topo.foldl (fun s parent =>
    if s.contradicted parent then s else downBody program state represented s parent) s

def fullSweeps : ℕ → Intervals → Intervals
  | 0, s => s
  | n + 1, s =>
    let s := fullDownPass program state represented (fullUpPass program state s)
    if s.changed then fullSweeps n s else s

variable {program state represented}

def forget (s : Intervals) : Intervals :=
  { s with settledUp := fun _ => false, settledDown := fun _ => false }

lemma forget_upper (s : Intervals) : (forget s).upper = s.upper := rfl

lemma bounds_of_forget_eq {s t : Intervals} (h : forget s = forget t) :
    s.lower = t.lower ∧ s.upper = t.upper ∧ s.contradicted = t.contradicted ∧
    s.changed = t.changed := by
  simp only [forget, Intervals.mk.injEq] at h
  exact ⟨h.1, h.2.1, h.2.2.1, h.2.2.2.2.2⟩

def Blind (turn : Intervals → Intervals) : Prop :=
  ∀ s, forget (turn s) = forget (turn (forget s))

section Blind

variable {f g : Intervals → Intervals}

lemma Blind.comp (hg : Blind g) (hf : Blind f) : Blind fun s => g (f s) := by
  intro s
  rw [hg (f s), hf s, ← hg (f (forget s))]

lemma Blind.eq {turn : Intervals → Intervals} (h : Blind turn) {s t : Intervals}
    (hsame : forget s = forget t) : forget (turn s) = forget (turn t) := by
  rw [h s, h t, hsame]

lemma Blind.foldl {ι : Type} {turn : Intervals → ι → Intervals}
    (h : ∀ i, Blind fun s => turn s i) (l : List ι) : Blind fun s => l.foldl turn s := by
  intro s
  exact List.foldl_rel (r := fun t t' => forget t = forget t') rfl fun i _ t t' ht => (h i).eq ht

/-- A turn with a quantity that is read from the bounds. -/
lemma Blind.reading {turn : Intervals → ℚ → Intervals} (h : ∀ q, Blind fun s => turn s q)
    (hf : Blind f)
    {q : Intervals → ℚ} (hq : ∀ s, q (forget s) = q s) : Blind fun s => turn (f s) (q s) := by
  intro s
  change forget (turn (f s) (q s)) = forget (turn (f (forget s)) (q (forget s)))
  rw [hq s, h (q s) (f s), hf s, ← h (q s) (f (forget s))]

lemma Blind.ite {c : Intervals → Prop} [∀ s, Decidable (c s)] (hc : ∀ s, c (forget s) ↔ c s)
    (hf : Blind f) (hg : Blind g) : Blind fun s => if c s then f s else g s := by
  intro s
  simp only [hc]
  split_ifs
  · exact hf s
  · exact hg s

lemma blind_id : Blind fun s => s := fun _ => rfl

lemma blind_raiseLower (node : ℕ) (q : ℚ) : Blind fun s => raiseLower program s node q :=
  Blind.ite (fun _ => Iff.rfl) (fun _ => rfl) blind_id

lemma blind_cutUpper (node : ℕ) (q : ℚ) : Blind fun s => cutUpper program s node q :=
  Blind.ite (fun _ => Iff.rfl) (fun _ => rfl) blind_id

lemma blind_flagCrossed (node : ℕ) : Blind fun s => flagCrossed program s node :=
  Blind.ite (fun _ => Iff.rfl) (fun _ => rfl) blind_id

variable (program state represented)

lemma blind_upMoves (parent : ℕ) : Blind fun s => upMoves program state s parent := by
  have hmembers : Blind fun s => boundFromMembers program state s parent := by
    have hraise : Blind fun s => raiseLower program s parent
        (coverTotals state s (program.completeChildren parent)).lower :=
      Blind.reading (fun q => blind_raiseLower parent q) blind_id fun _ => rfl
    refine Blind.ite (fun _ => Iff.rfl) blind_id (Blind.ite (fun _ => Iff.rfl) ?_ hraise)
    exact Blind.reading (fun q => blind_cutUpper parent q) hraise fun _ => rfl
  refine (blind_flagCrossed parent).comp (Blind.comp (Blind.foldl (fun child => ?_) _) hmembers)
  exact Blind.reading (fun q => blind_raiseLower parent q) blind_id fun _ => rfl

lemma blind_memberTurn (members : List PartitionMember) (parent : ℕ) (m : PartitionMember) :
    Blind fun s => memberTurn program state represented members parent s m := by
  have hcut : Blind fun s => cutTurn program state members parent s m := by
    intro s
    simp only [cutTurn, forget_upper]
    cases s.upper parent with
    | none => rfl
    | some u =>
      exact Blind.reading (fun q => blind_cutUpper m.id q) blind_id
        (q := fun s => remainder u (lowerSum s (others state members m))) (fun _ => rfl) s
  have hraise : Blind fun s => raiseTurn program state members parent s
      (cutTurn program state members parent s m) m := by
    refine Blind.ite (fun _ => Iff.rfl) ?_ hcut
    refine Blind.reading (fun q => blind_raiseLower m.id q) hcut (q := fun s =>
      remainder ((cutTurn program state members parent s m).lower parent)
        (upperSum s (others state members m)))
      fun s => ?_
    rw [cutTurn_lower, cutTurn_lower]
    rfl
  exact Blind.ite (fun _ => Iff.rfl) blind_id ((blind_flagCrossed m.id).comp hraise)

lemma blind_subsetBody (parent child : ℕ) : Blind fun s => subsetBody program parent s child := by
  refine Blind.ite (fun _ => Iff.rfl) blind_id fun s => ?_
  rw [forget_upper]
  cases s.upper parent with
  | none => rfl
  | some u => exact (blind_flagCrossed child).comp (blind_cutUpper child u) s

lemma blind_downMoves (parent : ℕ) : Blind fun s => downMoves program state represented s parent :=
  Blind.comp (Blind.foldl (fun child => blind_subsetBody program parent child) _)
    (Blind.foldl (fun m => blind_memberTurn program state represented _ parent m) _)

end Blind

section Turns

variable (program : SchemaProgram) (state : ℕ → QuantityEvidenceState) (represented : ℕ → Option ℚ)
  (s : Intervals)

def upTurn (p : ℕ) : Intervals :=
  if s.contradicted p || s.settledUp p then s else upBody program state s p

def downTurn (p : ℕ) : Intervals :=
  if s.contradicted p || s.settledDown p then s else downBody program state represented s p

/-- The turn of a component in one of the two passes. -/
inductive Turn
  | up (p : ℕ)
  | down (p : ℕ)

def turn : Turn → Intervals
  | .up p => upTurn program state s p
  | .down p => downTurn program state represented s p

def fullTurn : Turn → Intervals
  | .up p => if s.contradicted p then s else upBody program state s p
  | .down p => if s.contradicted p then s else downBody program state represented s p

def sweepTurns : List Turn := program.topo.map .up ++ program.topo.map .down

/-- The turns of so many sweeps. -/
def schedule : ℕ → List Turn
  | 0 => []
  | n + 1 => sweepTurns program ++ schedule n

/-- No turn down is skipped for its mark that has something to move. -/
def MarkHolds : Turn → Prop
  | .up _ => True
  | .down p => s.contradicted p = false → s.settledDown p = true →
    DownQuiet program state represented s p

instance : ∀ t, Decidable (MarkHolds program state represented s t)
  | .up _ => isTrue trivial
  | .down p => inferInstanceAs (Decidable (s.contradicted p = false → s.settledDown p = true →
      DownQuiet program state represented s p))

lemma sweep_eq_run : sweep program state represented s =
    run (turn program state represented) s (sweepTurns program) := by
  rw [sweepTurns, run_append, run, run, foldl_map, foldl_map]
  rfl

lemma fullSweep_eq_run : fullDownPass program state represented (fullUpPass program state s) =
    run (fullTurn program state represented) s (sweepTurns program) := by
  rw [sweepTurns, run_append, run, run, foldl_map, foldl_map]
  rfl

structure UpMarked : Prop where
  sane : Sane state s
  settled : UpSettled program state s

variable {program state represented s} (hwf : program.WellFormed) (h : UpMarked program state s)
include hwf h

lemma UpMarked.upTurn (p : ℕ) : UpMarked program state (upTurn program state s p) := by
  refine iteInduction (motive := UpMarked program state) (fun _ => h) fun _ => ?_
  exact ⟨h.sane.upBody p, h.settled.upBody hwf p⟩

lemma UpMarked.downTurn (p : ℕ) :
    UpMarked program state (downTurn program state represented s p) := by
  refine iteInduction (motive := UpMarked program state) (fun _ => h) fun _ => ?_
  exact ⟨h.sane.downBody p, h.settled.downBody hwf p⟩

lemma UpMarked.step (t : Turn) : UpMarked program state (turn program state represented s t) := by
  cases t with
  | up p => exact h.upTurn hwf p
  | down p => exact h.downTurn hwf p

end Turns

section Runs

variable {s t : Intervals}

/-- The solver and the sweeps without marks, at the same point of their runs. -/
structure Agrees (program : SchemaProgram) (state : ℕ → QuantityEvidenceState) (s t : Intervals) :
    Prop where
  marked : UpMarked program state s
  same : forget s = forget t

lemma forget_downBody (s : Intervals) (p : ℕ) :
    forget (downBody program state represented s p) =
    forget (downMoves program state represented s p) := by
  rw [downBody_eq]
  rfl

lemma blind_downBody (p : ℕ) : Blind fun s => downBody program state represented s p := fun s => by
  rw [forget_downBody, forget_downBody]
  exact blind_downMoves program state represented p s

/-- A turn of both runs, which the one with marks skips only where it would move nothing. -/
lemma forget_turn {body : Intervals → Intervals} (hblind : Blind body) (h : forget s = forget t)
    {p : ℕ}
    {settled : Bool} (hquiet : s.contradicted p = false → settled → forget (body s) = forget s) :
    forget (if s.contradicted p || settled then s else body s) =
    forget (if t.contradicted p then t else body t) := by
  rw [← (bounds_of_forget_eq h).2.2.1]
  cases hflag : s.contradicted p with
  | true => exact h
  | false =>
    cases settled with
    | true => exact (hquiet hflag rfl).symm.trans (hblind.eq h)
    | false => exact hblind.eq h

variable (hwf : program.WellFormed)
include hwf

lemma Agrees.step {τ : Turn} (h : Agrees program state s t)
    (hmark : MarkHolds program state represented s τ) :
    Agrees program state (turn program state represented s τ)
    (fullTurn program state represented t τ) := by
  refine ⟨h.marked.step hwf τ, ?_⟩
  cases τ with
  | up p =>
    have hblind : Blind fun s => upBody program state s p := blind_upMoves program state p
    refine forget_turn hblind h.same fun hflag hsettled => ?_
    have hquiet := congrArg forget
      ((h.marked.settled p hsettled hflag).upMoves_eq (h.marked.sane.uncrossed p hflag))
    exact hquiet
  | down p =>
    refine forget_turn (blind_downBody p) h.same
      fun hflag hsettled => (forget_downBody s p).trans (congrArg forget ?_)
    exact (hmark hflag hsettled).downMoves_eq h.marked.sane

lemma Agrees.steps {τs : List Turn} (h : Agrees program state s t)
    (hmarks : GuardedRun.Meets (turn program state represented) (MarkHolds program state represented) s τs) :
    Agrees program state (run (turn program state represented) s τs)
      (run (fullTurn program state represented) t τs) := by
  induction τs generalizing s t with
  | nil => exact h
  | cons τ rest ih => exact ih (h.step hwf hmarks.1) hmarks.2

lemma Agrees.sweeps (n : ℕ) (h : Agrees program state s t)
    (hmarks : GuardedRun.Meets (turn program state represented)
      (MarkHolds program state represented) s (schedule program n)) :
    Agrees program state (sweeps program state represented n s)
    (fullSweeps program state represented n t) := by
  induction n generalizing s t with
  | zero => exact h
  | succ n ih =>
    have hsweep := h.steps hwf hmarks.left
    rw [← sweep_eq_run, ← fullSweep_eq_run] at hsweep
    have hrest := hmarks.right
    rw [← sweep_eq_run] at hrest
    unfold Billing.sweeps fullSweeps
    dsimp only
    rw [← (bounds_of_forget_eq hsweep.same).2.2.2]
    split_ifs
    · exact ih hsweep hrest
    · exact hsweep

end Runs

end InteractiveProxy.Billing
