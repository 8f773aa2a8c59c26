import InteractiveProxy.CompleteCovers
import Mathlib.Algebra.Order.BigOperators.Group.List

/-! What the turns of the solver do: they only tighten bounds and add flags, at the component itself
or at its children, and no bound leaves out an assignment of quantities that the evidence and the
declared inclusions allow. -/
namespace InteractiveProxy.Billing

open List Bool Function Option

variable {program : SchemaProgram} {state : ℕ → QuantityEvidenceState} {represented : ℕ → Option ℚ}

section SingleMoves

variable (program) (s : Intervals) (node : ℕ) (q : ℚ)

@[simp] lemma cutUpper_lower : (cutUpper program s node q).lower = s.lower := by
  unfold cutUpper
  split_ifs <;> rfl

@[simp] lemma flagCrossed_lower : (flagCrossed program s node).lower = s.lower := by
  unfold flagCrossed
  split_ifs <;> rfl

@[simp] lemma flagCrossed_upper : (flagCrossed program s node).upper = s.upper := by
  unfold flagCrossed
  split_ifs <;> rfl

lemma raiseLower_lower_self : (raiseLower program s node q).lower node = max (s.lower node) q := by
  unfold raiseLower
  split_ifs with h
  · exact (update_self ..).trans (max_eq_right h.le).symm
  · exact (max_eq_left (not_lt.mp h)).symm

lemma cutUpper_upper_self : ∃ u ∈ (cutUpper program s node q).upper node, u ≤ q := by
  unfold cutUpper
  split_ifs with h
  · exact ⟨q, update_self .., le_rfl⟩
  cases hu : s.upper node with
  | none => exact absurd (by rw [hu]; rfl) h
  | some u =>
    rw [hu, all_some, decide_eq_true_eq] at h
    exact ⟨u, rfl, not_lt.mp h⟩

variable {program s node q}

lemma raiseLower_eq_self (h : q ≤ s.lower node) : raiseLower program s node q = s :=
  if_neg (not_lt.mpr h)

lemma cutUpper_eq_self {u : ℚ} (hu : u ∈ s.upper node) (h : u ≤ q) :
    cutUpper program s node q = s := by
  refine if_neg fun hall => ?_
  rw [mem_def.mp hu, all_some, decide_eq_true_eq] at hall
  exact absurd h (not_le.mpr hall)

lemma flagCrossed_eq_self (h : ∀ u ∈ s.upper node, s.lower node ≤ u) :
    flagCrossed program s node = s := by
  refine if_neg fun hany => ?_
  obtain ⟨u, hu, hlt⟩ := (any_eq_true _ _).mp hany
  exact absurd (h u hu) (not_le.mpr (of_decide_eq_true hlt))

end SingleMoves

structure SameAt (n : ℕ) (s s' : Intervals) : Prop where
  lower : s'.lower n = s.lower n
  upper : s'.upper n = s.upper n
  contradicted : s'.contradicted n = s.contradicted n

section

variable {n : ℕ} {s s' s'' : Intervals}

lemma SameAt.trans (h : SameAt n s s') (h' : SameAt n s' s'') : SameAt n s s'' :=
  ⟨h'.lower.trans h.lower, h'.upper.trans h.upper, h'.contradicted.trans h.contradicted⟩

lemma SameAt.boundLower (h : SameAt n s s') : s'.boundLower n = s.boundLower n := by
  unfold Intervals.boundLower
  rw [h.lower, h.contradicted]

lemma SameAt.boundUpper (h : SameAt n s s') : s'.boundUpper n = s.boundUpper n := by
  unfold Intervals.boundUpper
  rw [h.upper, h.contradicted]

variable (h : s.contradicted n = false)
include h

lemma Intervals.boundLower_eq : s.boundLower n = s.lower n := if_neg (eq_false_iff.mp h)

lemma Intervals.boundUpper_eq : s.boundUpper n = s.upper n := if_neg (eq_false_iff.mp h)

end

def SameAround (program : SchemaProgram) (p : ℕ) (s s' : Intervals) : Prop :=
  ∀ n, p = n ∨ p ∈ program.reverseContainment n → SameAt n s s'

/-- Moves at some components: bounds get tighter and flags stay, what is settled afterwards was
settled before and has seen no move, and moves are noted. -/
structure Moves (program : SchemaProgram) (moved : ℕ → Prop) (s s' : Intervals) : Prop where
  lower_le : ∀ n, s.lower n ≤ s'.lower n
  upper_le : ∀ n, ∀ u ∈ s.upper n, ∃ u' ∈ s'.upper n, u' ≤ u
  flagged : ∀ n, s.contradicted n → s'.contradicted n
  same : ∀ n, ¬ moved n → SameAt n s s'
  settledUp : ∀ p, s'.settledUp p → s.settledUp p ∧ SameAround program p s s'
  settledDown : ∀ p, s'.settledDown p → s.settledDown p ∧ SameAround program p s s'
  unchanged : s'.changed = false → s.changed = false ∧ ∀ n, SameAt n s s'

section Moves

variable {moved : ℕ → Prop} {s s' s'' : Intervals} {node : ℕ}

lemma Moves.refl (moved : ℕ → Prop) (s : Intervals) : Moves program moved s s :=
  ⟨fun _ => le_rfl, fun _ u hu => ⟨u, hu, le_rfl⟩, fun _ h => h, fun _ _ => ⟨rfl, rfl, rfl⟩,
    fun _ h => ⟨h, fun _ _ => ⟨rfl, rfl, rfl⟩⟩, fun _ h => ⟨h, fun _ _ => ⟨rfl, rfl, rfl⟩⟩,
    fun h => ⟨h, fun _ => ⟨rfl, rfl, rfl⟩⟩⟩

lemma Moves.trans (h : Moves program moved s s') (h' : Moves program moved s' s'') :
    Moves program moved s s'' where
  lower_le n := (h.lower_le n).trans (h'.lower_le n)
  upper_le n u hu := by
    obtain ⟨u', hu', hle⟩ := h.upper_le n u hu
    obtain ⟨u'', hu'', hle'⟩ := h'.upper_le n u' hu'
    exact ⟨u'', hu'', hle'.trans hle⟩
  flagged n hn := h'.flagged n (h.flagged n hn)
  same n hn := (h.same n hn).trans (h'.same n hn)
  settledUp p hp := by
    obtain ⟨hp', haround'⟩ := h'.settledUp p hp
    obtain ⟨hp, haround⟩ := h.settledUp p hp'
    exact ⟨hp, fun n hn => (haround n hn).trans (haround' n hn)⟩
  settledDown p hp := by
    obtain ⟨hp', haround'⟩ := h'.settledDown p hp
    obtain ⟨hp, haround⟩ := h.settledDown p hp'
    exact ⟨hp, fun n hn => (haround n hn).trans (haround' n hn)⟩
  unchanged h'' := by
    obtain ⟨hchanged, hsame'⟩ := h'.unchanged h''
    obtain ⟨hchanged, hsame⟩ := h.unchanged hchanged
    exact ⟨hchanged, fun n => (hsame n).trans (hsame' n)⟩

lemma Moves.mono {wider : ℕ → Prop} (h : Moves program moved s s')
    (hwider : ∀ n, moved n → wider n) : Moves program wider s s' :=
  { h with same := fun n hn => h.same n (mt (hwider n) hn) }

lemma Moves.foldl {ι : Type} {turn : Intervals → ι → Intervals} {l : List ι}
    (hturn : ∀ s, ∀ i ∈ l, Moves program moved s (turn s i)) (s : Intervals) :
    Moves program moved s (l.foldl turn s) :=
  foldlRecOn (motive := fun s' => Moves program moved s s') l turn (.refl moved s)
    fun s' h i hi => h.trans (hturn s' i hi)

lemma moves_markMoved (hlower : ∀ n, s.lower n ≤ s'.lower n)
    (hupper : ∀ n, ∀ u ∈ s.upper n, ∃ u' ∈ s'.upper n, u' ≤ u)
    (hflagged : ∀ n, s.contradicted n → s'.contradicted n) (hsame : ∀ n, n ≠ node → SameAt n s s')
    (hup : s'.settledUp = s.settledUp) (hdown : s'.settledDown = s.settledDown) :
    Moves program (· = node) s (markMoved program s' node) := by
  have hcleared : ∀ {p : ℕ} {was : Bool},
      (was && !(p = node || (program.reverseContainment node).contains p)) = true →
        was = true ∧ SameAround program p s (markMoved program s' node) := by
    intro p was h
    simp only [and_eq_true, not_eq_true', or_eq_false_iff, decide_eq_false_iff_not, contains_eq_mem] at h
    obtain ⟨hwas, hself, hparent⟩ := h
    refine ⟨hwas, fun n hn => ?_⟩
    have hne : n ≠ node := by
      rintro rfl
      exact hn.elim hself hparent
    exact ⟨(hsame n hne).lower, (hsame n hne).upper, (hsame n hne).contradicted⟩
  refine ⟨hlower, hupper, hflagged, fun n hn => ?_, fun p hp => ?_, fun p hp => ?_, nofun⟩
  · exact ⟨(hsame n hn).lower, (hsame n hn).upper, (hsame n hn).contradicted⟩
  · rw [← hup]
    exact hcleared hp
  · rw [← hdown]
    exact hcleared hp

variable (s : Intervals) (node : ℕ)

lemma raiseLower_moves (q : ℚ) : Moves program (· = node) s (raiseLower program s node q) := by
  unfold raiseLower
  split_ifs with hlt
  · refine moves_markMoved (fun n => ?_) (fun _ u hu => ⟨u, hu, le_rfl⟩) (fun _ h => h)
      (fun n hn => ⟨update_of_ne hn _ _, rfl, rfl⟩) rfl rfl
    by_cases hn : n = node
    · subst hn
      dsimp only
      rw [update_self]
      exact hlt.le
    · exact (update_of_ne hn _ _).ge
  · exact .refl _ s

lemma cutUpper_moves (q : ℚ) : Moves program (· = node) s (cutUpper program s node q) := by
  unfold cutUpper
  split_ifs with hall
  · refine moves_markMoved (fun _ => le_rfl) (fun n u hu => ?_) (fun _ h => h)
      (fun n hn => ⟨rfl, update_of_ne hn _ _, rfl⟩) rfl rfl
    by_cases hn : n = node
    · subst hn
      rw [mem_def.mp hu, all_some, decide_eq_true_eq] at hall
      exact ⟨q, update_self .., hall.le⟩
    · exact ⟨u, (update_of_ne hn _ _).trans hu, le_rfl⟩
  · exact .refl _ s

lemma flagCrossed_moves : Moves program (· = node) s (flagCrossed program s node) := by
  unfold flagCrossed
  split_ifs
  · refine moves_markMoved (fun _ => le_rfl) (fun _ u hu => ⟨u, hu, le_rfl⟩) (fun n hn => ?_)
      (fun n hn => ⟨rfl, rfl, update_of_ne hn _ _⟩) rfl rfl
    by_cases hnode : n = node
    · subst hnode
      exact update_self ..
    · exact (update_of_ne hnode _ _).trans hn
  · exact .refl _ s

end Moves

section Sums

variable (state) (s : Intervals) (l members : List PartitionMember)

def lowerSum : ℚ := (l.map fun m => s.boundLower m.id).sum

def upperSum : ℚ := (l.map fun m => (s.boundUpper m.id).getD 0).sum

def Bounded : Prop := ∀ m ∈ l, (s.boundUpper m.id).isSome = true
  deriving Decidable

variable (m : PartitionMember)

lemma lowerSum_cons : lowerSum s (m :: l) = s.boundLower m.id + lowerSum s l := sum_cons

lemma upperSum_cons : upperSum s (m :: l) = (s.boundUpper m.id).getD 0 + upperSum s l := sum_cons

lemma foldl_addMember (t : CoverTotals) : let result := members.foldl (addMember state s) t
    let shares := members.filter (counted state)
    result.lower = t.lower + lowerSum s shares ∧ result.upper = t.upper + upperSum s shares ∧
      result.infiniteUppers = t.infiniteUppers + shares.countP
      fun m => (s.boundUpper m.id).isNone := by
  induction members generalizing t with
  | nil => simp [lowerSum, upperSum]
  | cons m rest ih =>
    obtain ⟨hlower, hupper, hinfinite⟩ := ih (addMember state s t m)
    simp only [foldl_cons]
    rw [hlower, hupper, hinfinite]
    unfold addMember
    by_cases hcounted : counted state m
    · rw [filter_cons_of_pos hcounted, if_neg (by rw [hcounted]; exact Bool.noConfusion)]
      rw [lowerSum_cons, upperSum_cons]
      cases hm : s.boundUpper m.id with
      | none => simp [hm, add_assoc, add_comm 1]
      | some u => simp [hm, add_assoc]
    · rw [filter_cons_of_neg hcounted, if_pos (eq_false_iff.mpr hcounted)]
      exact ⟨rfl, rfl, rfl⟩

lemma coverTotals_eq : let shares := members.filter (counted state)
    (coverTotals state s members).lower = lowerSum s shares ∧
      (coverTotals state s members).upper = upperSum s shares ∧
      (coverTotals state s members).infiniteUppers = shares.countP
      fun m => (s.boundUpper m.id).isNone := by
  obtain ⟨hlower, hupper, hinfinite⟩ := foldl_addMember state s members {}
  exact ⟨hlower.trans (zero_add _), hupper.trans (zero_add _), hinfinite.trans (zero_add _)⟩

def others (m : PartitionMember) : List PartitionMember := (members.filter (counted state)).erase m

variable {state s l members} {s' : Intervals} {m k : PartitionMember} {l' : List PartitionMember}

lemma sums_congr (h : ∀ m ∈ l, SameAt m.id s s') :
    lowerSum s' l = lowerSum s l ∧ upperSum s' l = upperSum s l ∧ (Bounded s' l ↔ Bounded s l) := by
  refine ⟨?_, ?_, ?_⟩
  · exact congrArg sum (map_congr_left fun m hm => (h m hm).boundLower)
  · exact congrArg sum (map_congr_left fun m hm => by rw [(h m hm).boundUpper])
  · exact forall₂_congr fun m hm => by rw [(h m hm).boundUpper]

lemma lowerSum_perm (h : l.Perm l') : lowerSum s l = lowerSum s l' := (h.map _).sum_eq

lemma upperSum_perm (h : l.Perm l') : upperSum s l = upperSum s l' := (h.map _).sum_eq

lemma bounded_iff_countP : Bounded s l ↔ l.countP (fun m => (s.boundUpper m.id).isNone) = 0 := by
  rw [countP_eq_zero]
  exact forall₂_congr fun m _ => by cases s.boundUpper m.id <;> simp

lemma coverTotals_congr (h : ∀ m ∈ members, SameAt m.id s s') :
    coverTotals state s' members = coverTotals state s members := by
  refine foldl_ext _ _ _ fun t m hm => ?_
  unfold addMember
  rw [(h m hm).boundLower, (h m hm).boundUpper]

lemma shares_perm (hm : m ∈ members) (hcounted : counted state m) :
    (members.filter (counted state)).Perm (m :: others state members m) :=
  perm_cons_erase (mem_filter.mpr ⟨hm, hcounted⟩)

lemma others_of_not_counted (hcounted : ¬ counted state m = true) :
    others state members m = members.filter (counted state) :=
  erase_of_not_mem fun hm => hcounted (mem_filter.mp hm).2

lemma mem_of_mem_others (h : k ∈ others state members m) : k ∈ members ∧ counted state k :=
  mem_filter.mp (mem_of_mem_erase h)

end Sums

lemma sub_le_remainder (q taken : ℚ) : q - taken ≤ remainder q taken := by
  unfold remainder
  split_ifs with h
  · exact h.le
  · exact le_rfl

lemma remainder_nonneg (q taken : ℚ) : 0 ≤ remainder q taken := by
  unfold remainder
  split_ifs with h
  · exact le_rfl
  · exact not_lt.mp h

lemma remainder_le {q taken x : ℚ} (hx : 0 ≤ x) (h : q - taken ≤ x) : remainder q taken ≤ x := by
  unfold remainder
  split_ifs
  · exact hx
  · exact h

section MemberTurn

variable (program state represented) (members : List PartitionMember) (parent : ℕ) (s : Intervals)

def cutTurn (s : Intervals) (m : PartitionMember) : Intervals :=
  match s.upper parent with
  | none => s
  | some u => cutUpper program s m.id (remainder u (lowerSum s (others state members m)))

/-- The lower bound of the parent without what the others have at most; `t` has the upper bound cut.
-/
def raiseTurn (s t : Intervals) (m : PartitionMember) : Intervals :=
  if Bounded s (others state members m) then
    raiseLower program t m.id (remainder (t.lower parent) (upperSum s (others state members m)))
  else t

def memberMove (s : Intervals) (m : PartitionMember) : Intervals :=
  flagCrossed program
    (raiseTurn program state members parent s (cutTurn program state members parent s m) m) m.id

def memberTurn (s : Intervals) (m : PartitionMember) : Intervals :=
  if s.contradicted m.id || (represented m.id).isNone then s
  else memberMove program state members parent s m

variable {program state represented members parent} {s t : Intervals} {m : PartitionMember}

section

variable (hm : m ∈ members) (hflag : s.contradicted m.id = false)

include hm hflag

lemma cutMember_eq :
    cutMember program state s (coverTotals state s members) parent m =
    cutTurn program state members parent s m := by
  have hothers : (if counted state m then (coverTotals state s members).lower - s.lower m.id
      else (coverTotals state s members).lower) = lowerSum s (others state members m) := by
    rw [(coverTotals_eq state s members).1]
    split_ifs with hcounted
    · rw [lowerSum_perm (shares_perm hm hcounted), lowerSum_cons, s.boundLower_eq hflag, add_sub_cancel_left]
    · rw [others_of_not_counted hcounted]
  unfold cutMember cutTurn
  cases s.upper parent with
  | none => rfl
  | some u =>
    rw [hothers]

lemma raiseMember_eq : raiseMember program state t (coverTotals state s members)
      (s.upper m.id) parent m = raiseTurn program state members parent s t m := by
  obtain ⟨-, hupper, hinfinite⟩ := coverTotals_eq state s members
  unfold raiseMember raiseTurn
  by_cases hcounted : counted state m
  · have hown := s.boundUpper_eq hflag
    have hperm := shares_perm hm hcounted
    rw [upperSum_perm hperm, upperSum_cons, hown] at hupper
    rw [hperm.countP_eq, countP_cons, hown] at hinfinite
    simp only [hcounted, Bool.true_and, hupper, hinfinite, add_sub_cancel_left]
    refine if_congr ?_ rfl rfl
    rw [bounded_iff_countP]
    split_ifs <;> omega
  · simp only [hcounted, Bool.false_and, Bool.false_eq_true, if_false, sub_zero, Nat.cast_eq_zero,
      hupper, hinfinite, others_of_not_counted hcounted]
    exact if_congr bounded_iff_countP.symm rfl rfl

end

variable (program state represented members parent s t m)

lemma cutTurn_moves : Moves program (· = m.id) s (cutTurn program state members parent s m) := by
  unfold cutTurn
  split
  · exact .refl _ s
  · exact cutUpper_moves s m.id _

lemma raiseTurn_moves :
    Moves program (· = m.id) t (raiseTurn program state members parent s t m) := by
  unfold raiseTurn
  split_ifs
  · exact raiseLower_moves t m.id _
  · exact .refl _ t

lemma memberMove_moves : Moves program (· = m.id) s (memberMove program state members parent s m) :=
  ((cutTurn_moves program state members parent s m).trans
    (raiseTurn_moves program state members parent s _ m)).trans (flagCrossed_moves _ m.id)

lemma memberTurn_moves :
    Moves program (· = m.id) s (memberTurn program state represented members parent s m) := by
  unfold memberTurn
  split_ifs
  · exact .refl _ s
  · exact memberMove_moves program state members parent s m

def Fresh (state : ℕ → QuantityEvidenceState) (members : List PartitionMember) (loop : MemberLoop) :
    Prop :=
  loop.stale = false → loop.totals = coverTotals state loop.intervals members

variable {state members m} {loop : MemberLoop}

lemma memberBody_eq (hm : m ∈ members) (h : Fresh state members loop) :
    (memberBody program state represented members parent loop m).intervals =
        memberTurn program state represented members parent loop.intervals m ∧
      Fresh state members (memberBody program state represented members parent loop m) := by
  have htotals : (if loop.stale then coverTotals state loop.intervals members else loop.totals) =
      coverTotals state loop.intervals members := by
    split_ifs with hstale
    · rfl
    · exact h (eq_false_iff.mpr hstale)
  unfold memberBody memberTurn
  dsimp only
  by_cases hskip : (loop.intervals.contradicted m.id || (represented m.id).isNone)
  · rw [if_pos hskip, if_pos hskip]
    exact ⟨rfl, h⟩
  rw [if_neg hskip, if_neg hskip]
  have hflag : loop.intervals.contradicted m.id = false := by
    rw [not_eq_true, or_eq_false_iff] at hskip
    exact hskip.1
  rw [htotals, cutMember_eq hm hflag, raiseMember_eq hm hflag]
  refine ⟨rfl, fun hstale => (coverTotals_congr fun k _ => ?_).symm⟩
  by_cases hk : k.id = m.id
  · simp only [decide_not, or_eq_false_iff, not_eq_false', decide_eq_true_eq] at hstale
    rw [hk]
    exact ⟨hstale.1.1, hstale.1.2, hstale.2.trans hflag.symm⟩
  · exact (memberMove_moves program state members parent loop.intervals m).same k.id hk

lemma memberLoop_eq {l : List PartitionMember} (hl : ∀ m ∈ l, m ∈ members)
    (h : Fresh state members loop) :
    (l.foldl (memberBody program state represented members parent) loop).intervals =
      l.foldl (memberTurn program state represented members parent) loop.intervals := by
  induction l generalizing loop with
  | nil => rfl
  | cons m rest ih =>
    obtain ⟨hturn, hfresh⟩ := memberBody_eq program represented parent (hl m mem_cons_self) h
    rw [foldl_cons, foldl_cons, ih (fun k hk => hl k (mem_cons_of_mem m hk)) hfresh, hturn]

end MemberTurn

section Turns

variable (program state represented) (s : Intervals) (parent : ℕ)

def upMoves : Intervals :=
  flagCrossed program ((program.subsetChildren parent).foldl (fun s child =>
    raiseLower program s parent (s.boundLower child))
      (boundFromMembers program state s parent)) parent

lemma upBody_eq : upBody program state s parent = { upMoves program state s parent with
      settledUp := update (upMoves program state s parent).settledUp parent true } := rfl

def downMoves : Intervals :=
  (program.subsetChildren parent).foldl (subsetBody program parent)
    ((program.completeChildren parent).foldl
      (memberTurn program state represented (program.completeChildren parent) parent) s)

lemma downBody_eq : downBody program state represented s parent =
    { downMoves program state represented s parent with
      settledDown := update (downMoves program state represented s parent).settledDown parent true } := by
  unfold downBody downMoves
  dsimp only
  rw [memberLoop_eq program represented parent (fun _ h => h) fun hstale => Bool.noConfusion hstale]

lemma boundFromMembers_moves :
    Moves program (· = parent) s (boundFromMembers program state s parent) := by
  unfold boundFromMembers
  dsimp only
  split_ifs
  · exact .refl _ s
  · exact (raiseLower_moves s parent _).trans (cutUpper_moves _ parent _)
  · exact raiseLower_moves s parent _

lemma upMoves_moves : Moves program (· = parent) s (upMoves program state s parent) :=
  ((boundFromMembers_moves program state s parent).trans
    (Moves.foldl (fun s child _ => raiseLower_moves s parent (s.boundLower child)) _)).trans
      (flagCrossed_moves _ parent)

lemma subsetBody_moves (child : ℕ) :
    Moves program (· = child) s (subsetBody program parent s child) := by
  unfold subsetBody
  split_ifs
  · exact .refl _ s
  · split
    · exact .refl _ s
    · exact (cutUpper_moves s child _).trans (flagCrossed_moves _ child)

def IsChild (program : SchemaProgram) (parent n : ℕ) : Prop :=
  n ∈ program.completeIDs parent ∨ n ∈ program.subsetChildren parent

lemma downMoves_moves :
    Moves program (IsChild program parent) s (downMoves program state represented s parent) := by
  have hmembers : Moves program (IsChild program parent) s ((program.completeChildren parent).foldl
      (memberTurn program state represented (program.completeChildren parent) parent) s) :=
    Moves.foldl (fun s m hm => (memberTurn_moves program state represented _ parent s m).mono
      fun n hn => .inl (hn ▸ mem_map_of_mem hm)) s
  exact hmembers.trans (Moves.foldl (fun s child hchild => (subsetBody_moves program s parent child).mono
    fun n hn => .inr (hn ▸ hchild)) _)

end Turns

structure Sane (state : ℕ → QuantityEvidenceState) (s : Intervals) : Prop where
  nonneg : ∀ n, 0 ≤ s.lower n
  uncrossed : ∀ n, s.contradicted n = false → ∀ u ∈ s.upper n, s.lower n ≤ u
  pinned : ∀ n, state n = .exact → ∃ u ∈ s.upper n, u ≤ s.lower n

section Sane

variable {moved : ℕ → Prop} {s s' : Intervals}

/-- Moves keep this when the moved components are checked. -/
lemma Sane.moves (h : Sane state s) (hmoves : Moves program moved s s')
    (hchecked : ∀ n, moved n → s'.contradicted n = false → ∀ u ∈ s'.upper n, s'.lower n ≤ u) :
    Sane state s' := by
  refine ⟨fun n => (h.nonneg n).trans (hmoves.lower_le n), fun n hflag u hu => ?_, fun n hn => ?_⟩
  · by_cases hn : moved n
    · exact hchecked n hn hflag u hu
    · have hsame := hmoves.same n hn
      rw [hsame.lower]
      rw [hsame.upper] at hu
      exact h.uncrossed n (hsame.contradicted ▸ hflag) u hu
  · obtain ⟨u, hu, hle⟩ := h.pinned n hn
    obtain ⟨u', hu', hle'⟩ := hmoves.upper_le n u hu
    exact ⟨u', hu', (hle'.trans hle).trans (hmoves.lower_le n)⟩

lemma flagCrossed_checked (s : Intervals) (node : ℕ)
    (hflag : (flagCrossed program s node).contradicted node = false) :
    ∀ u ∈ (flagCrossed program s node).upper node, (flagCrossed program s node).lower node ≤ u := by
  rw [flagCrossed_upper, flagCrossed_lower]
  intro u hu
  by_contra hlt
  have hany : (s.upper node).any (· < s.lower node) :=
    (any_eq_true _ _).mpr ⟨u, hu, decide_eq_true (not_le.mp hlt)⟩
  unfold flagCrossed at hflag
  rw [if_pos hany] at hflag
  have hset : update s.contradicted node true node = false := hflag
  rw [update_self] at hset
  cases hset

section

variable (h : Sane state s)
include h

variable (parent : ℕ)

lemma Sane.upMoves : Sane state (upMoves program state s parent) := by
  refine h.moves (upMoves_moves program state s parent) ?_
  rintro n rfl
  exact flagCrossed_checked _ n

lemma Sane.memberTurn (members : List PartitionMember) (parent : ℕ) (m : PartitionMember) :
    Sane state (memberTurn program state represented members parent s m) := by
  unfold Billing.memberTurn
  split_ifs
  · exact h
  · refine h.moves (memberMove_moves program state members parent s m) ?_
    rintro n rfl
    exact flagCrossed_checked _ _

lemma Sane.subsetBody (parent child : ℕ) : Sane state (subsetBody program parent s child) := by
  refine h.moves (subsetBody_moves program s parent child) ?_
  rintro n rfl hflag
  unfold Billing.subsetBody at hflag ⊢
  split_ifs at hflag ⊢
  · exact h.uncrossed n hflag
  · split at hflag
    · exact h.uncrossed n hflag
    · exact flagCrossed_checked _ n hflag

lemma Sane.downMoves : Sane state (downMoves program state represented s parent) := by
  refine foldlRecOn _ _ (foldlRecOn _ _ h fun s h m _ => ?_)
    fun s h child _ => h.subsetBody parent child
  exact h.memberTurn (program.completeChildren parent) parent m

lemma Sane.upBody : Sane state (upBody program state s parent) :=
  ⟨(h.upMoves parent).nonneg, (h.upMoves parent).uncrossed, (h.upMoves parent).pinned⟩

lemma Sane.downBody : Sane state (downBody program state represented s parent) := by
  rw [downBody_eq]
  exact ⟨(h.downMoves parent).nonneg, (h.downMoves parent).uncrossed, (h.downMoves parent).pinned⟩

end

end Sane

open GoText Metering CompleteCoverVerdict

structure Consistent (program : SchemaProgram) (state : ℕ → QuantityEvidenceState) (exact : ℕ → ℚ)
    (represented : ℕ → Option ℚ) (v : ℕ → ℚ) : Prop where
  nonneg : ∀ n, 0 ≤ v n
  exact_eq : ∀ n, state n = .exact → v n = exact n
  subset_le : ∀ n, ∀ c ∈ program.subsetChildren n, v c ≤ v n
  complete_eq : ∀ n, program.completeChildren n ≠ [] →
    v n = (((program.completeChildren n).filter (counted state)).map fun m => v m.id).sum
  absent_zero : ∀ n, ∀ m ∈ program.completeChildren n, m.optional → state m.id = .absent →
    represented m.id ≠ none → v m.id = 0

structure Encloses (v : ℕ → ℚ) (s : Intervals) : Prop where
  lower_le : ∀ n, s.lower n ≤ v n
  le_upper : ∀ n, ∀ u ∈ s.upper n, v n ≤ u
  unflagged : ∀ n, s.contradicted n = false

section Sound

variable {exact : ℕ → ℚ} {v : ℕ → ℚ} {s : Intervals}

section

variable (h : Encloses v s) {node : ℕ} {q : ℚ}
include h

lemma encloses_raiseLower (hq : q ≤ v node) : Encloses v (raiseLower program s node q) := by
  unfold raiseLower
  split_ifs
  · refine ⟨fun n => ?_, h.le_upper, h.unflagged⟩
    by_cases hn : n = node
    · subst hn
      simpa [markMoved] using hq
    · simpa [markMoved, hn] using h.lower_le n
  · exact h

lemma encloses_cutUpper (hq : v node ≤ q) : Encloses v (cutUpper program s node q) := by
  unfold cutUpper
  split_ifs
  · refine ⟨h.lower_le, fun n u hu => ?_, h.unflagged⟩
    by_cases hn : n = node
    · subst hn
      cases (Function.update_self ..).symm.trans hu
      exact hq
    · exact h.le_upper n u ((Function.update_of_ne hn _ _).symm.trans hu)
  · exact h

lemma flagCrossed_of_encloses (node : ℕ) : flagCrossed program s node = s :=
  flagCrossed_eq_self fun u hu => (h.lower_le node).trans (h.le_upper node u hu)

lemma boundLower_of_encloses (node : ℕ) : s.boundLower node = s.lower node :=
  s.boundLower_eq (h.unflagged node)

lemma boundUpper_of_encloses (node : ℕ) : s.boundUpper node = s.upper node :=
  s.boundUpper_eq (h.unflagged node)

end

def quantitySum (v : ℕ → ℚ) (l : List PartitionMember) : ℚ := (l.map fun m => v m.id).sum

lemma lowerSum_le (h : Encloses v s) (l : List PartitionMember) : lowerSum s l ≤ quantitySum v l :=
  sum_le_sum fun m _ => (boundLower_of_encloses h m.id).trans_le (h.lower_le m.id)

lemma le_upperSum (h : Encloses v s) {l : List PartitionMember} (hbounded : Bounded s l) :
    quantitySum v l ≤ upperSum s l := by
  refine sum_le_sum fun m hm => ?_
  obtain ⟨u, hu⟩ := Option.isSome_iff_exists.mp (hbounded m hm)
  rw [hu]
  rw [boundUpper_of_encloses h] at hu
  exact h.le_upper m.id u hu

variable {m : PartitionMember} {parent : ℕ} (hc : Consistent program state exact represented v)
include hc

lemma quantity_of_counted (hm : m ∈ program.completeChildren parent) (hcounted : counted state m) :
    v parent = v m.id + quantitySum v (others state (program.completeChildren parent) m) := by
  rw [hc.complete_eq parent (ne_nil_of_mem hm), ((shares_perm hm hcounted).map _).sum_eq, map_cons,
    sum_cons]
  rfl

lemma quantity_of_not_counted (hm : m ∈ program.completeChildren parent)
    (hcounted : ¬ counted state m = true) (hshare : represented m.id ≠ none) :
    v m.id = 0 ∧ v parent = quantitySum v (others state (program.completeChildren parent) m) := by
  rw [others_of_not_counted hcounted]
  rw [counted, or_eq_true, Not, or_imp] at hcounted
  exact ⟨hc.absent_zero parent m hm (by simpa using hcounted.2) (by simpa using hcounted.1) hshare,
    hc.complete_eq parent (ne_nil_of_mem hm)⟩

section

variable (h : Encloses v s)
include h

lemma encloses_boundFromMembers (parent : ℕ) :
    Encloses v (boundFromMembers program state s parent) := by
  obtain ⟨hlower, hupper, hinfinite⟩ := coverTotals_eq state s (program.completeChildren parent)
  have hraised (hmembers : program.completeChildren parent ≠ []) :
      Encloses v (raiseLower program s parent
      (coverTotals state s (program.completeChildren parent)).lower) := by
    apply encloses_raiseLower h
    rw [hlower, hc.complete_eq parent hmembers]
    exact lowerSum_le h _
  unfold boundFromMembers
  dsimp only
  split_ifs with hmembers hfinite
  · exact h
  · apply encloses_cutUpper (hraised hmembers)
    rw [hupper, hc.complete_eq parent hmembers]
    exact le_upperSum h (bounded_iff_countP.mpr (hinfinite ▸ hfinite))
  · exact hraised hmembers

lemma encloses_upBody (parent : ℕ) : Encloses v (upBody program state s parent) := by
  have hsubset : Encloses v ((program.subsetChildren parent).foldl (fun s child =>
      raiseLower program s parent (s.boundLower child))
        (boundFromMembers program state s parent)) := by
    refine foldlRecOn _ _ (encloses_boundFromMembers hc h parent) fun s h child hchild => ?_
    apply encloses_raiseLower h
    rw [boundLower_of_encloses h]
    exact (h.lower_le child).trans (hc.subset_le parent child hchild)
  rw [upBody_eq, upMoves, flagCrossed_of_encloses hsubset]
  exact ⟨hsubset.lower_le, hsubset.le_upper, hsubset.unflagged⟩

lemma encloses_upPass : Encloses v (upPass program state s) := by
  refine foldlRecOn _ _ h fun s h parent _ => ?_
  split_ifs
  · exact h
  · exact encloses_upBody hc h parent

section

variable (hm : m ∈ program.completeChildren parent)
include hm

lemma encloses_cutTurn (hshare : represented m.id ≠ none) :
    Encloses v (cutTurn program state (program.completeChildren parent) parent s m) := by
  unfold cutTurn
  split
  · exact h
  next u hu =>
  apply encloses_cutUpper h
  by_cases hcounted : counted state m
  · -- What the other members must have at least is no part of this one.
    have hsum := quantity_of_counted hc hm hcounted
    have hothers := lowerSum_le h (others state (program.completeChildren parent) m)
    have hparent := h.le_upper parent u hu
    refine le_trans ?_ (sub_le_remainder _ _)
    linarith
  · rw [(quantity_of_not_counted hc hm hcounted hshare).1]
    exact remainder_nonneg _ _

lemma encloses_raiseTurn (hshare : represented m.id ≠ none) {t : Intervals} (ht : Encloses v t) :
    Encloses v (raiseTurn program state (program.completeChildren parent) parent s t m) := by
  refine iteInduction (fun hbounded => ?_) fun _ => ht
  -- All other members are bounded, and the rest of the parent is this one's.
  have hothers := le_upperSum h hbounded
  have hparent := ht.lower_le parent
  apply encloses_raiseLower ht
  refine remainder_le (hc.nonneg m.id) ?_
  by_cases hcounted : counted state m
  · have hsum := quantity_of_counted hc hm hcounted
    linarith
  · obtain ⟨hzero, hsum⟩ := quantity_of_not_counted hc hm hcounted hshare
    linarith

lemma encloses_memberTurn :
    Encloses v (memberTurn program state represented (program.completeChildren parent) parent s m) := by
  refine iteInduction (fun _ => h) fun hskip => ?_
  have hshare : represented m.id ≠ none := fun hnone => hskip (by rw [hnone]; simp)
  have hmoved := encloses_raiseTurn hc h hm hshare (encloses_cutTurn hc h hm hshare)
  rwa [memberMove, flagCrossed_of_encloses hmoved]

end

lemma encloses_subsetBody {child : ℕ}
    (hchild : child ∈ program.subsetChildren parent) :
    Encloses v (subsetBody program parent s child) := by
  unfold subsetBody
  split_ifs
  · exact h
  split
  · exact h
  · next u hu =>
    have hcut : Encloses v (cutUpper program s child u) :=
      encloses_cutUpper h ((hc.subset_le parent child hchild).trans (h.le_upper parent u hu))
    rwa [flagCrossed_of_encloses hcut]

lemma encloses_downBody (parent : ℕ) :
    Encloses v (downBody program state represented s parent) := by
  have hmoves : Encloses v (downMoves program state represented s parent) := by
    refine foldlRecOn _ _ ?_ fun s h child hchild => encloses_subsetBody hc h hchild
    exact foldlRecOn _ _ h fun s h m hm => encloses_memberTurn hc h hm
  rw [downBody_eq]
  exact ⟨hmoves.lower_le, hmoves.le_upper, hmoves.unflagged⟩

lemma encloses_downPass : Encloses v (downPass program state represented s) := by
  refine foldlRecOn _ _ h fun s h parent _ => ?_
  split_ifs
  · exact h
  · exact encloses_downBody hc h parent

end

lemma encloses_start : Encloses v (Intervals.start state exact) := by
  refine ⟨fun n => ?_, fun n u hu => ?_, fun _ => rfl⟩
  · unfold Intervals.start
    dsimp only
    split_ifs with hexact
    · exact (hc.exact_eq n hexact).ge
    · exact hc.nonneg n
  · unfold Intervals.start at hu
    dsimp only at hu
    split_ifs at hu with hexact
    · rw [Option.mem_some_iff] at hu
      exact hu ▸ (hc.exact_eq n hexact).le
    · cases hu

lemma encloses_sweeps (n : ℕ) (h : Encloses v s) :
    Encloses v (sweeps program state represented n s) := by
  induction n generalizing s with
  | zero => exact h
  | succ n ih =>
    have hsweep : Encloses v (sweep program state represented s) :=
      encloses_downPass hc (encloses_upPass hc h)
    exact iteInduction (fun _ => ih hsweep) fun _ => hsweep

end Sound

/-- While some assignment of quantities agrees with the evidence of a scope and the declared
inclusions, the solver flags no component, and its bounds enclose every such assignment. -/
theorem no_false_quantity_contradiction (table : PrintTable) (program : SchemaProgram)
    (items : List AggregateMeasure) (v : ℕ → ℚ)
    (hconsistent : let cover := resolveCompleteCovers table program items
      Consistent program cover.state cover.exact cover.represented v) :
    let cover := resolveCompleteCovers table program items
    let result := propagateQuantityIntervals program cover.state cover.represented cover.exact
    ∀ n, result.contradicted n = false ∧ result.lower n ≤ v n ∧ ∀ u ∈ result.upper n, v n ≤ u := by
  intro cover result n
  have h : Encloses v result := encloses_sweeps hconsistent _ (encloses_start hconsistent)
  exact ⟨h.unflagged n, h.lower_le n, h.le_upper n⟩

def inputToken (component : String) : ComponentKey := ⟨.input, lit component, lit "token", [], []⟩

def tokenSchema : ComponentSchema where
  id := lit "tokens"
  version := lit "1"
  relationships :=
    [{ kind := .partition, parent := inputToken "input_token_total", child := inputToken "text_token" },
      { kind := .partition, parent := inputToken "input_token_total",
        child := inputToken "image_token", optional := true }]

def tokenMeasures : List AggregateMeasure :=
  [⟨inputToken "input_token_total", [], some 3, true, false⟩, ⟨inputToken "text_token", [], some 3, true, false⟩]

def tokenProgram : SchemaProgram := compileSchemaProgram asciiTable [tokenSchema]

lemma tokenProgram_completeChildren (n : ℕ) :
    tokenProgram.completeChildren n = if n = 1 then [⟨0, true⟩, ⟨2, false⟩] else [] := by
  have hedges : completeEdges ((rawEdges asciiTable [tokenSchema]).map
      (numberEdge (canonicalKeys (rawEdges asciiTable [tokenSchema])))) =
        [⟨1, 0, .partition, true⟩, ⟨1, 2, .partition, false⟩] := by decide +kernel
  change completeMembers _ n = _
  unfold completeMembers
  rw [hedges]
  by_cases hn : n = 1
  · subst hn
    rfl
  · simp [hn, Ne.symm hn]

lemma tokenMeasures_evidence (n : ℕ) : readEvidence asciiTable tokenProgram tokenMeasures n =
    if n = 1 ∨ n = 2 then ⟨.exact, 3, false⟩ else {} := by
  have htotal : measuredNode asciiTable tokenProgram
      ⟨inputToken "input_token_total", [], some 3, true, false⟩ =
      some 1 := by decide +kernel
  have htext :
      measuredNode asciiTable tokenProgram ⟨inputToken "text_token", [], some 3, true, false⟩ =
      some 2 := by decide +kernel
  have hadd (component : String) :
      ({} : Evidence).add ⟨inputToken component, [], some 3, true, false⟩ =
      ⟨.exact, 3, false⟩ := by simp [Evidence.add]
  simp only [readEvidence, tokenMeasures, foldl_cons, foldl_nil, readItem, htotal, htext, hadd,
    Function.update_of_ne (show (2 : ℕ) ≠ 1 by decide)]
  by_cases h2 : n = 2
  · simp [h2]
  · by_cases h1 : n = 1 <;> simp [h1, h2]

def tokenQuantities (n : ℕ) : ℚ := if n = 1 ∨ n = 2 then 3 else 0

lemma tokenQuantities_consistent :
    let cover := resolveCompleteCovers asciiTable tokenProgram tokenMeasures
    Consistent tokenProgram cover.state cover.exact cover.represented tokenQuantities := by
  intro cover
  have hevidence (n : ℕ) : cover.evidence n = if n = 1 ∨ n = 2 then ⟨.exact, 3, false⟩ else {} :=
    tokenMeasures_evidence n
  refine ⟨fun n => ?_, fun n hn => ?_, fun n c hc => ?_, fun n hn => ?_, fun n m hm hoptional _ _ => ?_⟩
  · unfold tokenQuantities
    split_ifs <;> norm_num
  · rw [state, hevidence] at hn
    rw [exact, hevidence, tokenQuantities]
    split_ifs at hn ⊢
    rfl
  · cases hc
  · rw [tokenProgram_completeChildren] at hn ⊢
    split_ifs at hn ⊢ with h
    · simp [h, counted, state, hevidence, tokenQuantities]
    · exact absurd rfl hn
  · rw [tokenProgram_completeChildren] at hm
    split_ifs at hm
    · rcases mem_pair.mp hm with rfl | rfl
      · rfl
      · cases hoptional
    · cases hm

theorem no_false_quantity_contradiction_of_tokens :
    let cover := resolveCompleteCovers asciiTable tokenProgram tokenMeasures
    let result := propagateQuantityIntervals tokenProgram cover.state cover.represented cover.exact
    ∀ n, result.contradicted n = false ∧ result.lower n ≤ tokenQuantities n ∧
      ∀ u ∈ result.upper n, tokenQuantities n ≤ u :=
  no_false_quantity_contradiction asciiTable tokenProgram tokenMeasures tokenQuantities tokenQuantities_consistent

end InteractiveProxy.Billing
