import InteractiveProxy.QuantityPruning

/-! How many sweeps the solver needs. The cap is enough just when the bounds are at rest where it
stops. -/
namespace InteractiveProxy.Billing

open GoText GuardedRun Metering DepthFirst List

variable {program : SchemaProgram} {state : ℕ → QuantityEvidenceState} {represented : ℕ → Option ℚ}

/-- No turn that is due has anything to move: the relationships of its component hold between the
bounds. -/
@[mk_iff]
structure AtRest (program : SchemaProgram) (state : ℕ → QuantityEvidenceState)
    (represented : ℕ → Option ℚ) (s : Intervals) : Prop where
  up : ∀ p ∈ program.topo, s.contradicted p = false → s.settledUp p = false →
    UpQuiet program state s p
  down : ∀ p ∈ program.topo, s.contradicted p = false → s.settledDown p = false →
    DownQuiet program state represented s p

instance (s : Intervals) : Decidable (AtRest program state represented s) :=
  decidable_of_iff' _ (atRest_iff ..)

variable {s : Intervals}

variable (program state represented) in
lemma sweeps_succ (n : ℕ) (s : Intervals) :
    sweeps program state represented (n + 1) s =
    sweep program state represented (sweeps program state represented n s) ∨
      sweeps program state represented (n + 1) s = sweeps program state represented n s ∧
        (sweeps program state represented n s).changed = false := by
  induction n generalizing s with
  | zero => exact .inl (ite_self _)
  | succ n ih =>
    by_cases hchanged : (sweep program state represented s).changed
    · have hstep (k : ℕ) : sweeps program state represented (k + 1) s =
          sweeps program state represented k (sweep program state represented s) := if_pos hchanged
      rw [hstep, hstep]
      exact ih _
    · have hstop (k : ℕ) :
          sweeps program state represented (k + 1) s = sweep program state represented s :=
        if_neg hchanged
      rw [hstop, hstop]
      exact .inr ⟨rfl, Bool.eq_false_iff.mpr hchanged⟩

lemma AtRest.with_marks (h : AtRest program state represented s) {up down : ℕ → Bool}
    (hup : ∀ p, s.settledUp p → up p) (hdown : ∀ p, s.settledDown p → down p) :
    AtRest program state represented { s with settledUp := up, settledDown := down } := by
  have hdue {marks marks' : ℕ → Bool} (hmarks : ∀ p, marks p → marks' p) {p : ℕ}
      (hp : marks' p = false) : marks p = false :=
    Bool.eq_false_iff.mpr fun h => Bool.eq_false_iff.mp hp (hmarks p h)
  refine ⟨fun p hp hflag hmark => ?_, fun p hp hflag hmark => ?_⟩
  · have hquiet := h.up p hp hflag (hdue hup hmark)
    exact ⟨hquiet.lower, hquiet.upper, hquiet.subset⟩
  · have hquiet := h.down p hp hflag (hdue hdown hmark)
    exact ⟨fun m hm hmflag hshare =>
      ⟨(hquiet.member m hm hmflag hshare).upper, (hquiet.member m hm hmflag hshare).lower⟩,
      hquiet.subset⟩

lemma update_of_marked {marks : ℕ → Bool} {p q : ℕ} (h : marks q) :
    Function.update marks p true q := by
  rw [Function.update_apply]
  split_ifs
  · rfl
  · exact h

/-- At rest a turn at most sets its mark. -/
lemma AtRest.step (h : AtRest program state represented s) (hsane : Sane state s) {τ : Turn}
    (hτ : τ ∈ sweepTurns program) : let s' := turn program state represented s τ
    SameBounds s s' ∧ AtRest program state represented s' ∧ Sane state s' := by
  have hstay : SameBounds s s ∧ AtRest program state represented s ∧ Sane state s :=
    ⟨fun _ => ⟨rfl, rfl, rfl⟩, h, hsane⟩
  rw [sweepTurns, mem_append, mem_map, mem_map] at hτ
  rcases hτ with ⟨p, hp, rfl⟩ | ⟨p, hp, rfl⟩
  · refine iteInduction (motive := fun s' => SameBounds s s' ∧ AtRest program state represented s' ∧ Sane state s')
      (fun _ => hstay) fun hskip => ?_
    rw [Bool.not_eq_true, Bool.or_eq_false_iff] at hskip
    rw [upBody_eq, (h.up p hp hskip.1 hskip.2).upMoves_eq (hsane.uncrossed p hskip.1)]
    exact ⟨fun _ => ⟨rfl, rfl, rfl⟩, h.with_marks (fun _ => update_of_marked) fun _ => id,
      ⟨hsane.nonneg, hsane.uncrossed, hsane.pinned⟩⟩
  · refine iteInduction (motive := fun s' => SameBounds s s' ∧ AtRest program state represented s' ∧ Sane state s')
      (fun _ => hstay) fun hskip => ?_
    rw [Bool.not_eq_true, Bool.or_eq_false_iff] at hskip
    rw [downBody_eq, (h.down p hp hskip.1 hskip.2).downMoves_eq hsane]
    exact ⟨fun _ => ⟨rfl, rfl, rfl⟩, h.with_marks (fun _ => id) fun _ => update_of_marked,
      ⟨hsane.nonneg, hsane.uncrossed, hsane.pinned⟩⟩

lemma AtRest.sweep (h : AtRest program state represented s) (hsane : Sane state s) :
    let s' := sweep program state represented s
    SameBounds s s' ∧ AtRest program state represented s' ∧ Sane state s' := by
  rw [sweep_eq_run]
  exact foldlRecOn
    (motive := fun s' => SameBounds s s' ∧ AtRest program state represented s' ∧ Sane state s')
    (sweepTurns program) (turn program state represented)
    ⟨fun _ => ⟨rfl, rfl, rfl⟩, h, hsane⟩ fun t ht τ hτ => by
      obtain ⟨hsame, hrest, hsane⟩ := ht.2.1.step ht.2.2 hτ
      exact ⟨fun n => (ht.1 n).trans (hsame n), hrest, hsane⟩

lemma AtRest.sweeps {n : ℕ}
    (h : AtRest program state represented (sweeps program state represented n s))
    (hsane : Sane state (Billing.sweeps program state represented n s)) (k : ℕ) :
    SameBounds (Billing.sweeps program state represented n s)
    (Billing.sweeps program state represented (n + k) s) := by
  suffices hsuffices : let s' := Billing.sweeps program state represented (n + k) s
      SameBounds (Billing.sweeps program state represented n s) s' ∧
        AtRest program state represented s' ∧ Sane state s' from hsuffices.1
  induction k with
  | zero => exact ⟨fun _ => ⟨rfl, rfl, rfl⟩, h, hsane⟩
  | succ k ih =>
    obtain ⟨hsame, hrest, hsane⟩ := ih
    rcases sweeps_succ program state represented (n + k) s with hnext | ⟨hnext, -⟩
    · obtain ⟨hsame', hrest', hsane'⟩ := hrest.sweep hsane
      rw [← Nat.add_assoc, hnext]
      exact ⟨fun n => (hsame n).trans (hsame' n), hrest', hsane'⟩
    · rw [← Nat.add_assoc, hnext]
      exact ⟨hsame, hrest, hsane⟩

section WellFormed

variable (hwf : program.WellFormed)
include hwf

lemma UpMarked.sweeps (hmarked : UpMarked program state s) (n : ℕ) :
    UpMarked program state (sweeps program state represented n s) := by
  induction n generalizing s with
  | zero => exact hmarked
  | succ n ih =>
    have hsweep : UpMarked program state (sweep program state represented s) := by
      rw [sweep_eq_run]
      exact foldlRecOn (motive := UpMarked program state) _ _ hmarked fun t ht τ _ => ht.step hwf τ
    exact iteInduction (motive := UpMarked program state) (fun _ => ih hsweep) fun _ => hsweep

end WellFormed

end InteractiveProxy.Billing
