import Mathlib.Data.List.Infix
import Mathlib.Data.List.Perm.Basic
import Mathlib.Tactic.Common

/-! Runs of a deterministic step function and loops of a fallible one. `Meets` and `LoopMeets` say
that every step satisfies a condition in the state it is taken in; the two induction rules carry an
invariant through such runs. -/
namespace InteractiveProxy.GuardedRun
open List

variable {σ κ ε : Type*} (step : σ → κ → σ)

def run (s : σ) (cs : List κ) : σ := cs.foldl step s

@[simp] lemma run_nil (s : σ) : run step s [] = s := rfl

@[simp] lemma run_cons (s : σ) (c : κ) (cs : List κ) :
    run step s (c :: cs) = run step (step s c) cs := rfl

/-- Every command of the run satisfies `ok` in the state in which it is issued. -/
def Meets (step : σ → κ → σ) (ok : σ → κ → Prop) : σ → List κ → Prop
  | _, [] => True
  | s, c :: cs => ok s c ∧ Meets step ok (step s c) cs

instance decidableMeets {step : σ → κ → σ} {ok : σ → κ → Prop} [∀ s c, Decidable (ok s c)] :
    ∀ s cs, Decidable (Meets step ok s cs)
  | _, [] => isTrue trivial
  | s, c :: cs => @instDecidableAnd _ _ _ (decidableMeets (step s c) cs)

lemma run_append (s : σ) (cs ds : List κ) : run step s (cs ++ ds) = run step (run step s cs) ds :=
  foldl_append

lemma Meets.right {step : σ → κ → σ} {ok : σ → κ → Prop} {s : σ} {cs ds : List κ}
    (h : Meets step ok s (cs ++ ds)) : Meets step ok (run step s cs) ds := by
  induction cs generalizing s with
  | nil => exact h
  | cons c cs ih => exact ih h.2

lemma Meets.left {step : σ → κ → σ} {ok : σ → κ → Prop} {s : σ} {cs ds : List κ}
    (h : Meets step ok s (cs ++ ds)) : Meets step ok s cs := by
  induction cs generalizing s with
  | nil => trivial
  | cons c cs ih => exact ⟨h.1, ih h.2⟩

variable {step : σ → κ → σ} {ok : σ → κ → Prop} {cs : List κ} {s : σ} {inv : σ → Prop}
  {p : κ → Prop}

lemma Meets.and_forall (h : Meets step ok s cs) (hp : ∀ c ∈ cs, p c) :
    Meets step (fun s c => ok s c ∧ p c) s cs := by
  induction cs generalizing s with
  | nil => trivial
  | cons c cs ih =>
    exact ⟨⟨h.1, hp c mem_cons_self⟩, ih h.2 fun c' hc' => hp c' (mem_cons_of_mem c hc')⟩

lemma meets_of_forall (h : ∀ c ∈ cs, p c) (s : σ) : Meets step (fun _ c => p c) s cs := by
  induction cs generalizing s with
  | nil => trivial
  | cons c cs ih => exact ⟨h c mem_cons_self, ih (fun c' hc' => h c' (mem_cons_of_mem c hc')) _⟩

lemma meets_congr {p q : σ → κ → Prop} (hstep : ∀ s c, inv s → inv (step s c))
    (hpq : ∀ s c, inv s → (p s c ↔ q s c))
    (hs : inv s) (cs : List κ) : Meets step p s cs ↔ Meets step q s cs := by
  induction cs generalizing s with
  | nil => exact Iff.rfl
  | cons c cs ih => exact and_congr (hpq s c hs) (ih (hstep s c hs))

variable {done : List κ} {α β : Type} {xs : List α} {f : α → Except ε β} {x : Except ε α}
  {body : σ → κ → Except ε σ} {ys : List β} {b : β}

lemma run_induct (hstep : ∀ s c, inv s → ok s c → inv (step s c)) (hs : inv s)
    (hok : Meets step ok s cs) (hdone : done <+: cs) : inv (run step s done) := by
  induction done generalizing s cs with
  | nil => exact hs
  | cons c done ih =>
    obtain ⟨rest, rfl⟩ := hdone
    exact ih (hstep s c hs hok.1) hok.2 (prefix_append done rest)

section Timed

variable {τ : Type*} {t t0 : τ}

/-- Runs whose commands carry non-decreasing instants. An invariant of an instant and a state that
time does not break, and that a permitted step keeps at the instant of the step, holds after every
part of the run from the instant of its last command on. -/
lemma timed_induct [LE τ] (time : κ → τ) (inv : τ → σ → Prop)
    (hlater : ∀ t t' s, t ≤ t' → inv t s → inv t' s)
    (hstep : ∀ s c, inv (time c) s → ok s c → inv (time c) (step s c)) (hs : inv t0 s)
    (hfrom : ∀ c ∈ cs, t0 ≤ time c)
    (hmono : cs.Pairwise fun c c' => time c ≤ time c') (hok : Meets step ok s cs)
    (hdone : done <+: cs) (ht0 : t0 ≤ t)
    (ht : ∀ c ∈ done, time c ≤ t) : inv t (run step s done) := by
  induction done generalizing s cs t0 with
  | nil => exact hlater t0 t s ht0 hs
  | cons c done ih =>
    obtain ⟨rest, rfl⟩ := hdone
    obtain ⟨hafter, hmono⟩ := pairwise_cons.mp hmono
    have hinv : inv (time c) s := hlater t0 (time c) s (hfrom c mem_cons_self) hs
    exact ih (hstep s c hinv hok.1) hafter hmono hok.2 (prefix_append done rest)
      (ht c mem_cons_self) fun c' hc' => ht c' (mem_cons_of_mem c hc')

lemma timed_run [Preorder τ] {time : κ → τ} (inv : τ → σ → Prop)
    (hlater : ∀ t t' s, t ≤ t' → inv t s → inv t' s)
    (hstep : ∀ s c, inv (time c) s → ok s c → inv (time c) (step s c)) (hs : ∀ t, inv t s)
    (hmono : cs.Pairwise fun c c' => time c ≤ time c') (hok : Meets step ok s cs)
    (hdone : done <+: cs) (ht : ∀ c ∈ done, time c ≤ t) : inv t (run step s done) := by
  cases done with
  | nil => exact hs t
  | cons c done =>
    obtain ⟨rest, rfl⟩ := hdone
    obtain ⟨hafter, -⟩ := pairwise_cons.mp hmono
    have hfrom : ∀ c' ∈ c :: (done ++ rest), time c ≤ time c' := by
      intro c' hc'
      rcases mem_cons.mp hc' with rfl | hc'
      · exact le_refl _
      · exact hafter c' hc'
    exact timed_induct time inv hlater hstep (hs (time c)) hfrom hmono hok (prefix_append (c :: done) rest)
      (ht c mem_cons_self) ht

/-- Runs in which only some commands carry an instant, and these do not decrease from `t₀` on. -/
lemma stamped_induct [Preorder τ] (time : κ → Option τ) (inv : τ → σ → Prop)
    (hlater : ∀ t t' s, t ≤ t' → inv t s → inv t' s)
    (hstep : ∀ s c t, (∀ t', time c = some t' → t' = t) → inv t s → ok s c → inv t (step s c))
    (hs : inv t0 s)
    (hmono : (t0 :: cs.filterMap time).Pairwise (· ≤ ·)) (hok : Meets step ok s cs) (ht0 : t0 ≤ t)
    (ht : ∀ t' ∈ cs.filterMap time, t' ≤ t) : inv t (run step s cs) := by
  induction cs generalizing s t0 with
  | nil => exact hlater t0 t s ht0 hs
  | cons c cs ih =>
    obtain ⟨hfirst, hrest⟩ := pairwise_cons.mp hmono
    cases hc : time c with
    | none =>
      rw [filterMap_cons_none hc] at hmono ht
      exact ih (hstep s c t0 (by simp [hc]) hs hok.1) hmono hok.2 ht0 ht
    | some t1 =>
      rw [filterMap_cons_some hc] at hfirst hrest ht
      have hinv : inv t1 s := hlater t0 t1 s (hfirst t1 mem_cons_self) hs
      exact ih (hstep s c t1 (by simp [hc]) hinv hok.1) hrest hok.2 (ht t1 mem_cons_self)
        fun t' ht' => ht t' (mem_cons_of_mem t1 ht')

end Timed

lemma bind_eq_ok : (x >>= f) = .ok b ↔ ∃ a, x = .ok a ∧ f a = .ok b := by
  cases x with
  | error e => exact ⟨fun h => (nomatch h), fun ⟨_, h, _⟩ => (nomatch h)⟩
  | ok a => exact ⟨fun h => ⟨a, rfl, h⟩, fun ⟨_, h, hf⟩ => by cases h; exact hf⟩

lemma bind_eq_error {e : ε} : (x >>= f) = .error e ↔ x = .error e ∨ ∃ a, x = .ok a ∧
    f a = .error e := by
  cases x <;> simp [bind, Except.bind]

lemma map_eq_ok {f : α → β} : x.map f = .ok b ↔ ∃ a, x = .ok a ∧ f a = b := by
  cases x <;> simp [Except.map]

lemma seq_eq_ok {x : Except ε Unit} {y : Except ε β} :
    (x >>= fun _ => y) = .ok b ↔ x = .ok () ∧ y = .ok b := by
  rw [bind_eq_ok]
  exact ⟨fun ⟨_, hx, hy⟩ => ⟨hx, hy⟩, fun ⟨hx, hy⟩ => ⟨(), hx, hy⟩⟩

/-- Fails with `e` on a bad input. -/
def reject (bad : Prop) [Decidable bad] (e : ε) : Except ε Unit := if bad then .error e else .ok ()

lemma reject_eq_ok {bad : Prop} [Decidable bad] {e : ε} : reject bad e = .ok () ↔ ¬ bad := by
  unfold reject
  split <;> simp [*]

lemma forM_eq_ok {f : α → Except ε Unit} : xs.forM f = .ok () ↔ ∀ x ∈ xs, f x = .ok () := by
  induction xs with
  | nil => exact ⟨fun _ => nofun, fun _ => rfl⟩
  | cons x xs ih =>
    change (f x >>= fun _ => xs.forM f) = .ok () ↔ _
    rw [seq_eq_ok, ih, forall_mem_cons]

lemma foldlM_eq_ok {step : β → α → Except ε β} {s t : β} (h : xs.foldlM step s = .ok t) {x : α}
    (hx : x ∈ xs) : ∃ u v, step u x = .ok v := by
  induction xs generalizing s with
  | nil => cases hx
  | cons y rest ih =>
    obtain ⟨v, hv, hrest⟩ := bind_eq_ok.mp h
    rcases mem_cons.mp hx with rfl | hx
    · exact ⟨s, v, hv⟩
    · exact ih hrest hx

lemma mapError_eq_ok {ε' : Type} {f : ε → ε'} {a : α} : x.mapError f = .ok a ↔ x = .ok a := by
  cases x <;> simp [Except.mapError]

lemma mapM_eq_ok : xs.mapM f = .ok ys ↔ List.Forall₂ (fun x y => f x = .ok y) xs ys := by
  induction xs generalizing ys with
  | nil =>
    rw [forall₂_nil_left_iff]
    exact ⟨fun h => (Except.ok.inj h).symm, fun h => h ▸ rfl⟩
  | cons x xs ih =>
    rw [mapM_cons, forall₂_cons_left_iff, bind_eq_ok]
    constructor
    · rintro ⟨y, hy, h⟩
      obtain ⟨tail, htail, h⟩ := bind_eq_ok.mp h
      exact ⟨y, tail, hy, ih.mp htail, (Except.ok.inj h).symm⟩
    · rintro ⟨y, tail, hy, htail, rfl⟩
      exact ⟨y, hy, bind_eq_ok.mpr ⟨tail, ih.mpr htail, rfl⟩⟩

lemma mapM_ok (h : xs.mapM f = .ok ys) :
    ys.length = xs.length ∧ ∀ y ∈ ys, ∃ x ∈ xs, f x = .ok y := by
  rw [mapM_eq_ok] at h
  refine ⟨h.length_eq.symm, ?_⟩
  induction h with
  | nil => exact nofun
  | cons hxy _ ih =>
    rw [forall_mem_cons]
    refine ⟨⟨_, mem_cons_self, hxy⟩, fun z hz => ?_⟩
    obtain ⟨x', hx', hz⟩ := ih z hz
    exact ⟨x', mem_cons_of_mem _ hx', hz⟩

lemma mapM_perm {xs' : List α} (h : xs.mapM f = .ok ys) (hperm : xs'.Perm xs) :
    ∃ ys', xs'.mapM f = .ok ys' ∧ ys'.Perm ys := by
  obtain ⟨ys', hys', hp⟩ := perm_comp_forall₂ hperm (mapM_eq_ok.mp h)
  exact ⟨ys', mapM_eq_ok.mpr hys', hp⟩

def Holds (x : Except ε σ) (p : σ → Prop) : Prop :=
  match x with
  | .ok s => p s
  | .error _ => True

instance decidableHolds {p : σ → Prop} [DecidablePred p] : ∀ x : Except ε σ, Decidable (Holds x p)
  | .ok s => inferInstanceAs (Decidable (p s))
  | .error _ => isTrue trivial

/-- `Meets` for a loop whose body can fail: the condition is asked of each turn that runs. -/
def LoopMeets (body : σ → κ → Except ε σ) (ok : σ → κ → Prop) : σ → List κ → Prop
  | _, [] => True
  | s, c :: cs => ok s c ∧ Holds (body s c) fun s' => LoopMeets body ok s' cs

instance decidableLoopMeets {body : σ → κ → Except ε σ} {ok : σ → κ → Prop}
    [∀ s c, Decidable (ok s c)] : ∀ s cs, Decidable (LoopMeets body ok s cs)
  | _, [] => isTrue trivial
  | s, c :: cs =>
    @instDecidableAnd _ _ _ (@decidableHolds _ _ _ (fun s' => decidableLoopMeets s' cs) (body s c))

lemma loopMeets_of_forall (ok : σ → κ → Prop) (h : ∀ s c, ok s c) (s : σ) (cs : List κ) :
    LoopMeets body ok s cs := by
  induction cs generalizing s with
  | nil => trivial
  | cons c cs ih =>
    refine ⟨h s c, ?_⟩
    cases body s c with
    | error e => trivial
    | ok next => exact ih next

lemma loop_induct (inv : σ → Prop) (hbody : ∀ s c s', inv s → ok s c → body s c = .ok s' → inv s')
    {s' : σ} (hs : inv s)
    (hok : LoopMeets body ok s cs) (h : cs.foldlM body s = .ok s') : inv s' := by
  induction cs generalizing s with
  | nil =>
    cases h
    exact hs
  | cons c cs ih =>
    rw [foldlM_cons] at h
    obtain ⟨hc, hrest⟩ := hok
    cases hb : body s c with
    | error e =>
      rw [hb] at h
      cases h
    | ok next =>
      rw [hb] at h hrest
      exact ih (hbody s c next hs hc hb) hrest h

/-- A walk that refuses the keys it has seen accepts what passes its other checks and has distinct
keys. -/
lemma walk_iff {α β ρ : Type*} {good : α → Prop} {done : ρ} (check : σ → List α → ρ) (key : α → β)
    (seen : σ → List β)
    (next : σ → α → σ) (hnext : ∀ s a, seen (next s a) = key a :: seen s)
    (hnil : ∀ s, check s [] = done)
    (hcons : ∀ s a rest, check s (a :: rest) = done ↔ good a ∧ key a ∉ seen s ∧ check (next s a) rest = done) (s : σ)
    (xs : List α) : check s xs = done ↔ (∀ a ∈ xs, good a ∧ key a ∉ seen s) ∧
    (xs.map key).Nodup := by
  induction xs generalizing s with
  | nil => simp [hnil]
  | cons a xs ih =>
    rw [hcons, ih, hnext]
    simp only [mem_cons, not_or, forall_eq_or_imp, map_cons, nodup_cons, mem_map, not_exists, not_and]
    constructor
    · rintro ⟨hgood, hnew, hrest, hnodup⟩
      exact ⟨⟨⟨hgood, hnew⟩, fun b hb => ⟨(hrest b hb).1, (hrest b hb).2.2⟩⟩, fun b hb => (hrest b hb).2.1, hnodup⟩
    · rintro ⟨⟨⟨hgood, hnew⟩, hrest⟩, hfresh, hnodup⟩
      exact ⟨hgood, hnew, fun b hb => ⟨(hrest b hb).1, hfresh b hb, (hrest b hb).2⟩, hnodup⟩

lemma eq_ok_of_isOk {ε : Type} {x : Except ε Unit} (h : x.isOk) : x = .ok () := by
  cases x with
  | ok u => rfl
  | error e => cases h

end InteractiveProxy.GuardedRun
