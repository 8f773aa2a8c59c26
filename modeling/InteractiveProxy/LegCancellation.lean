import InteractiveProxy.LegLifecycle

/-! The cancellation of an A-leg is total: whatever was launched or registered before is canceled,
nothing is afterwards, and every attempt is torn down once. -/
namespace InteractiveProxy.LegLifecycle

open GoText GuardedRun KeyedTable List Bool Teardown Settling ALeg

def registered (n : ℕ) (blegs : Table GoStr ℕ) : ℤ :=
  total (fun h => if h = n then 1 else 0) blegs

inductive Stepped (s : System) : System → Prop
  | idle : Stepped s s
  | launch (bLegID : GoStr) (hopen : s.aleg.canceled = false) :
    Stepped s { s with
      aleg := { s.aleg with launches := s.aleg.launches.insert bLegID s.permits.length }
      permits := s.permits ++ [{ bLegID }]
      gone := (s.aleg.launches.lookup bLegID).toList ++ s.gone }
  | ignore (given : Bool) :
    Stepped s { s with attempts := s.attempts + given.toNat, kept := (s.offer given).toList ++ s.kept }
  | wait (p : LaunchPermit) (call : Settling) (given : Bool) (hp : s.permits[call.permit]? = some p)
    (hopen : p.settled = false) (hcall : call.attempts = (s.offer given).toList) :
    Stepped s { s with
      permits := s.permits.set call.permit { p with settled := true }
      attempts := s.attempts + given.toNat
      calls := s.calls ++ [call] }
  | refuse (j : ℕ) (call : Settling) (bLegID : GoStr) (hj : s.calls[j]? = some call) :
    Stepped s { s with
      aleg := s.aleg.unlist bLegID call.permit
      calls := s.calls.eraseIdx j
      doomed := call.permit :: s.doomed
      kept := call.attempts ++ s.kept }
  | commit (j : ℕ) (call : Settling) (bLegID : GoStr) (blegs : Table GoStr ℕ)
    (hj : s.calls[j]? = some call) (hopen : s.aleg.canceled = false)
    (hblegs : ∀ n, registered n blegs = registered n s.aleg.blegs + call.attempts.count n) :
    Stepped s { s with aleg := { s.aleg.unlist bLegID call.permit with blegs }, calls := s.calls.eraseIdx j }
  | register (id : GoStr) (hopen : s.aleg.canceled = false)
    (hnew : s.aleg.blegs.lookup id = none) : Stepped s { s with
      aleg := { s.aleg with blegs := s.aleg.blegs.insert id s.attempts }
      attempts := s.attempts + 1 }
  | turnAway (cause : CancelCause) :
    Stepped s { s with attempts := s.attempts + 1, teardowns := s.tearDown cause [s.attempts] }
  | release (id : GoStr) :
    Stepped s { s with
      aleg := { s.aleg with blegs := s.aleg.blegs.erase id, launches := s.aleg.launches.erase id }
      gone := (s.aleg.launches.lookup id).toList ++ s.gone
      released := (s.aleg.blegs.lookup id).toList ++ s.released }
  | cancel (cause : CancelCause) (hopen : s.aleg.canceled = false) :
    Stepped s { s with
      aleg := { canceled := true, cause := cause.orContextDone }
      doomed := s.aleg.launches.entries.map Sigma.snd ++ s.doomed
      teardowns := s.tearDown cause.orContextDone (s.aleg.blegs.entries.map Sigma.snd)
      taken := some ⟨cause.orContextDone, s.openLaunches⟩ }
  | context (j k : ℕ) (hj : s.doomed[j]? = some k) :
    Stepped s { s with doomed := s.doomed.eraseIdx j, gone := k :: s.gone }
  | teardown (j : ℕ) (t t' : Teardown) (calls closes : Bool) (hj : s.teardowns[j]? = some t)
    (hsame : t'.attempt = t.attempt) (hcalls : t'.called.toNat = t.called.toNat + calls.toNat)
    (hcloses : t'.closed.isSome.toNat = t.closed.isSome.toNat + closes.toNat)
    (hreturns : t'.returned.isSome → t.returned.isSome ∨ t'.called) :
    Stepped s { s with
      teardowns := s.teardowns.set j t'
      cancelCalls := (if calls then [t.attempt] else []) ++ s.cancelCalls
      closeCalls := (if closes then [t.attempt] else []) ++ s.closeCalls }

section Spec

variable {s : System} {id : GoStr} {j : ℕ}

lemma unlist_blegs (a : ALeg) (bLegID : GoStr) (k : ℕ) : (a.unlist bLegID k).blegs = a.blegs := by
  rw [unlist]
  split_ifs <;> rfl

lemma count_one (a n : ℕ) : (([a].count n : ℕ) : ℤ) = if a = n then 1 else 0 := by
  by_cases h : a = n <;> simp [h]

lemma registered_insert {blegs : Table GoStr ℕ} (hnew : blegs.lookup id = none) {h n : ℕ} :
    registered n (blegs.insert id h) = registered n blegs + [h].count n := by
  rw [registered, total_insert_of_absent hnew, count_one]
  rfl

lemma advance_spec {t : Teardown} (hj : s.teardowns[j]? = some t) (event : TeardownEvent) :
    Stepped s (s.advance j event t) := by
  rw [System.advance]
  cases hadvance : t.advance event with
  | none => exact .idle
  | some t' =>
    cases event <;> rw [advance] at hadvance <;> split_ifs at hadvance with hguard <;>
      cases hadvance
    · refine .teardown j t _ true false hj rfl ?_ rfl fun h => .inl h
      rw [eq_false_iff.mpr hguard]
      rfl
    · exact .teardown j t _ false false hj rfl rfl rfl fun _ => .inr hguard.1
    · exact .teardown j t _ false false hj rfl rfl rfl fun h => .inl h
    · refine .teardown j t _ false true hj rfl rfl ?_ fun h => .inl h
      rw [Option.isNone_iff_eq_none.mp hguard.2]
      rfl

lemma settle_commit_spec {k : ℕ} {bLegID : GoStr} {handle : Option ℕ}
    (hj : s.calls[j]? = some (.commit k bLegID handle))
    (hnew : ∀ h, handle = some h → s.aleg.blegs.lookup bLegID = none) :
    Stepped s (step s (.settle j)) := by
  rw [step, perform, hj]
  dsimp only
  rw [ALeg.commit.eq_def]
  by_cases hopen : s.aleg.canceled
  · rw [if_pos hopen]
    exact .refuse j _ bLegID hj
  rw [if_neg hopen]
  cases handle with
  | none =>
    refine .commit j _ bLegID (s.aleg.unlist bLegID k).blegs hj (eq_false_iff.mpr hopen) fun n => ?_
    rw [unlist_blegs]
    exact (add_zero _).symm
  | some h =>
    exact .commit j _ bLegID _ hj (eq_false_iff.mpr hopen) fun n => registered_insert (hnew h rfl)

lemma register_spec {ctxDone : Bool} (hnew : ctxDone = false → s.aleg.blegs.lookup id = none) :
    Stepped s (step s (.registerBLeg id ctxDone true)) := by
  rw [step, perform, registerBLeg]
  by_cases hopen : s.aleg.canceled
  · rw [if_pos hopen]
    exact .turnAway s.aleg.cause
  rw [if_neg hopen]
  cases ctxDone with
  | true => exact .turnAway _
  | false => exact .register id (eq_false_iff.mpr hopen) (hnew rfl)

lemma step_spec (op : Op) (hop : Unregistered s op) : Stepped s (step s op) := by
  cases op with
  | beginBLegLaunch bLegID =>
    rw [step, perform, beginBLegLaunch]
    split_ifs with hopen
    · exact .idle
    · exact .launch bLegID (eq_false_iff.mpr hopen)
  | commit k handle =>
    rw [step, perform]
    cases hp : s.permits[k]? with
    | none => exact .idle
    | some p =>
      dsimp only
      split_ifs with hsettled
      · exact .ignore handle
      · exact .wait p (.commit k p.bLegID (s.offer handle)) handle hp (eq_false_iff.mpr hsettled) rfl
  | abort k =>
    rw [step, perform]
    cases hp : s.permits[k]? with
    | none => exact .idle
    | some p =>
      dsimp only
      split_ifs with hsettled
      · exact .idle
      · exact .wait p (.abort k p.bLegID) false hp (eq_false_iff.mpr hsettled) rfl
  | settle j =>
    cases hj : s.calls[j]? with
    | none =>
      rw [step, perform, hj]
      exact .idle
    | some call =>
      cases call with
      | commit k bLegID handle =>
        refine settle_commit_spec hj fun h hhandle => ?_
        rw [hhandle] at hj
        exact hop k bLegID h hj
      | abort k bLegID =>
        rw [step, perform, hj]
        exact .refuse j _ bLegID hj
  | registerBLeg id ctxDone attempt =>
    cases attempt with
    | true => exact register_spec fun hctx => hop hctx rfl
    | false => exact .idle
  | releaseBLeg id => exact .release id
  | cancel cause =>
    rw [step, perform, cancel]
    split_ifs with hopen
    · exact .idle
    · exact .cancel cause (eq_false_iff.mpr hopen)
  | cancelContext j =>
    rw [step, perform]
    cases hj : s.doomed[j]? with
    | none => exact .idle
    | some k => exact .context j k hj
  | teardown j event =>
    rw [step, perform]
    cases hj : s.teardowns[j]? with
    | none => exact .idle
    | some t => exact advance_spec hj event

end Spec

/-- Calls that wait for the lock have settled their permits, and no permit twice. An open launch is
on the A-leg's list, or its context is canceled. -/
structure Listed (s : System) : Prop where
  waiting : ∀ call ∈ s.calls, ∃ p, s.permits[call.permit]? = some p ∧ p.settled
  nodup : (s.calls.map permit).Nodup
  listed : ∀ k ∈ s.openLaunches, (∃ id, s.aleg.launches.lookup id = some k) ∨ k ∈ s.doomed ∨
    k ∈ s.gone

variable {s : System}

lemma mem_openLaunches {k : ℕ} :
    k ∈ s.openLaunches ↔ (∃ p, s.permits[k]? = some p ∧ p.settled = false) ∨
      k < s.permits.length ∧ k ∈ s.calls.map permit := by
  rw [System.openLaunches, mem_filter, mem_range, or_eq_true, Option.any_eq_true, decide_eq_true_eq]
  constructor
  · rintro ⟨hk, ⟨p, hp, hsettled⟩ | hcall⟩
    · exact .inl ⟨p, hp, not_eq_true' _ ▸ hsettled⟩
    · exact .inr ⟨hk, hcall⟩
  · rintro (⟨p, hp, hsettled⟩ | ⟨hk, hcall⟩)
    · exact ⟨(List.getElem?_eq_some_iff.mp hp).1, .inl ⟨p, hp, by rw [hsettled]; rfl⟩⟩
    · exact ⟨hk, .inr hcall⟩

variable {call : Settling} {a : ALeg}

lemma perm_calls {j : ℕ} (hj : s.calls[j]? = some call) :
    (call :: s.calls.eraseIdx j).Perm s.calls := by
  obtain ⟨hlt, rfl⟩ := List.getElem?_eq_some_iff.mp hj
  exact getElem_cons_eraseIdx_perm hlt

lemma mem_cancelContext {j k k' : ℕ} (hj : s.doomed[j]? = some k)
    (h : k' ∈ s.doomed ∨ k' ∈ s.gone) : k' ∈ s.doomed.eraseIdx j ∨ k' ∈ k :: s.gone := by
  obtain ⟨hlt, rfl⟩ := List.getElem?_eq_some_iff.mp hj
  rcases h with h | h
  · rw [← (getElem_cons_eraseIdx_perm hlt).mem_iff, mem_cons] at h
    rcases h with rfl | h
    · exact .inr mem_cons_self
    · exact .inl h
  · exact .inr (mem_cons_of_mem _ h)

lemma unlist_lookup {bLegID id : GoStr} {k k' : ℕ} (hne : k' ≠ k)
    (h : a.launches.lookup id = some k') : (a.unlist bLegID k).launches.lookup id = some k' := by
  rw [unlist]
  split_ifs with hself
  · rw [lookup_erase_eq, if_neg, h]
    rintro rfl
    exact hne (Option.some.inj (h.symm.trans hself))
  · exact h

namespace Listed

variable {s s' : System} {j : ℕ}

/-- The permits of the calls that still wait when one of them has gone. -/
lemma settle (h : Listed s) (hj : s.calls[j]? = some call) :
    (∀ c ∈ s.calls.eraseIdx j, ∃ p, s.permits[c.permit]? = some p ∧ p.settled) ∧
      ((s.calls.eraseIdx j).map permit).Nodup ∧
      call.permit ∉ (s.calls.eraseIdx j).map permit := by
  have hnodup := (((perm_calls hj).map permit).nodup_iff).mpr h.nodup
  rw [map_cons, nodup_cons] at hnodup
  exact ⟨fun c hc => h.waiting c (mem_of_mem_eraseIdx hc), hnodup.2, hnodup.1⟩

lemma open_settle (h : Listed s) (hj : s.calls[j]? = some call) (bLegID : GoStr) {k : ℕ}
    (hk : k ∈ s'.openLaunches)
    (hpermits : s'.permits = s.permits) (hcalls : s'.calls = s.calls.eraseIdx j) :
    (∃ id, (s.aleg.unlist bLegID call.permit).launches.lookup id = some k) ∨ k ∈ s.doomed ∨
    k ∈ s.gone := by
  suffices hold : k ∈ s.openLaunches ∧ k ≠ call.permit from
    (h.listed k hold.1).imp_left fun ⟨id, hid⟩ => ⟨id, unlist_lookup hold.2 hid⟩
  obtain ⟨p, hp, hsettled⟩ := h.waiting call (mem_of_getElem? hj)
  rw [mem_openLaunches, hpermits, hcalls] at hk
  rw [mem_openLaunches]
  rcases hk with ⟨q, hq, hopen⟩ | ⟨hlt, hcall⟩
  · refine ⟨.inl ⟨q, hq, hopen⟩, ?_⟩
    rintro rfl
    rw [hp, Option.some_inj] at hq
    rw [← hq, hsettled] at hopen
    cases hopen
  · refine ⟨.inr ⟨hlt, ?_⟩, ?_⟩
    · obtain ⟨c, hc, rfl⟩ := mem_map.mp hcall
      exact mem_map_of_mem (mem_of_mem_eraseIdx hc)
    · rintro rfl
      exact (h.settle hj).2.2 hcall

lemma canceled (h : Listed s) {k : ℕ} (hk : k ∈ s.openLaunches) :
    k ∈ s.aleg.launches.entries.map Sigma.snd ++ s.doomed ∨ k ∈ s.gone := by
  rcases h.listed k hk with ⟨id, hid⟩ | hdoomed | hgone
  · exact .inl (mem_append_left _ (mem_map.mpr ⟨_, mem_entries_of_lookup hid, rfl⟩))
  · exact .inl (mem_append_right _ hdoomed)
  · exact .inr hgone

/-- The launch that the change of the list takes off it is canceled. -/
lemma replaced (h : Listed s) {k : ℕ} (hk : k ∈ s.openLaunches) (id : GoStr)
    {launches : Table GoStr ℕ}
    (hkept : ∀ id' ≠ id, launches.lookup id' = s.aleg.launches.lookup id') :
    (∃ id, launches.lookup id = some k) ∨ k ∈ s.doomed ∨
    k ∈ (s.aleg.launches.lookup id).toList ++ s.gone := by
  rcases h.listed k hk with ⟨id', hid⟩ | hdoomed | hgone
  · by_cases hsame : id' = id
    · refine .inr (.inr (mem_append_left _ ?_))
      rw [← hsame, hid]
      exact mem_singleton_self k
    · exact .inl ⟨id', (hkept id' hsame).trans hid⟩
  · exact .inr (.inl hdoomed)
  · exact .inr (.inr (mem_append_right _ hgone))

lemma step (h : Listed s) (hstep : Stepped s s') : Listed s' := by
  cases hstep with
  | idle => exact h
  | launch bLegID hopen =>
    refine ⟨fun call hcall => ?_, h.nodup, fun k hk => ?_⟩
    · obtain ⟨p, hp, hsettled⟩ := h.waiting call hcall
      exact ⟨p, by rw [List.getElem?_append_left (List.getElem?_eq_some_iff.mp hp).1, hp], hsettled⟩
    by_cases hnew : k = s.permits.length
    · exact .inl ⟨bLegID, by rw [lookup_insert_eq, if_pos rfl, hnew]⟩
    have hold : k ∈ s.openLaunches := by
      rw [mem_openLaunches] at hk ⊢
      have hlt (h : k < (s.permits ++ [({ bLegID } : LaunchPermit)]).length) :
          k < s.permits.length := by
        rw [length_append, length_singleton] at h
        omega
      rcases hk with ⟨p, hp, hsettled⟩ | ⟨hk, hcall⟩
      · rw [List.getElem?_append_left (hlt (List.getElem?_eq_some_iff.mp hp).1)] at hp
        exact .inl ⟨p, hp, hsettled⟩
      · exact .inr ⟨hlt hk, hcall⟩
    exact h.replaced hold bLegID fun id hne => by rw [lookup_insert_eq, if_neg hne]
  | ignore | register | turnAway | teardown => exact ⟨h.waiting, h.nodup, h.listed⟩
  | wait p call given hp hopen hcall =>
    obtain ⟨hlt, -⟩ := List.getElem?_eq_some_iff.mp hp
    have hfree : call.permit ∉ s.calls.map permit := by
      intro hmem
      obtain ⟨c, hc, hsame⟩ := mem_map.mp hmem
      obtain ⟨q, hq, hsettled⟩ := h.waiting c hc
      rw [hsame, hp, Option.some_inj] at hq
      rw [← hq, hopen] at hsettled
      cases hsettled
    refine ⟨fun c hc => ?_, ?_, fun k hk => h.listed k ?_⟩
    · rw [getElem?_set]
      split_ifs with hsame
      · exact ⟨_, rfl, rfl⟩
      · rcases mem_append.mp hc with hc | hc
        · exact h.waiting c hc
        · exact absurd (congrArg permit (mem_singleton.mp hc)).symm hsame
    · rw [map_append, nodup_append]
      refine ⟨h.nodup, nodup_singleton _, ?_⟩
      rintro k hk _ hk' rfl
      rw [map_singleton, mem_singleton] at hk'
      exact hfree (hk' ▸ hk)
    · rw [mem_openLaunches] at hk ⊢
      by_cases hself : k = call.permit
      · exact .inl ⟨p, hself ▸ hp, hopen⟩
      · rw [getElem?_set_ne (Ne.symm hself), length_set, map_append, mem_append, map_singleton, mem_singleton] at hk
        exact hk.imp_right fun hk => ⟨hk.1, hk.2.resolve_right hself⟩
  | refuse j call bLegID hj =>
    obtain ⟨hwaiting, hnodup, -⟩ := h.settle hj
    exact ⟨hwaiting, hnodup, fun k hk => (h.open_settle hj bLegID hk rfl rfl).imp_right (.imp_left (mem_cons_of_mem _))⟩
  | commit j call bLegID blegs hj hopen hblegs =>
    obtain ⟨hwaiting, hnodup, -⟩ := h.settle hj
    exact ⟨hwaiting, hnodup, fun k hk => h.open_settle hj bLegID hk rfl rfl⟩
  | release id =>
    exact ⟨h.waiting, h.nodup, fun k hk => h.replaced hk id fun id' hne => by rw [lookup_erase_eq, if_neg hne]⟩
  | cancel cause hopen =>
    exact ⟨h.waiting, h.nodup, fun k hk => .inr (h.canceled hk)⟩
  | context j k hj =>
    exact ⟨h.waiting, h.nodup, fun k' hk' => (h.listed k' hk').imp_right (mem_cancelContext hj)⟩

end Listed

/-- A canceled A-leg has nothing left, and the launches that its cancellation found are canceled. -/
structure Ended (s : System) : Prop where
  emptied : s.aleg.canceled → s.aleg.launches = ∅ ∧ s.aleg.blegs = ∅
  taken : s.taken.isSome = s.aleg.canceled
  first : ∀ x, s.taken = some x → x.cause = s.aleg.cause ∧ ∀ k ∈ x.launches, k ∈ s.doomed ∨
    k ∈ s.gone

lemma unlist_canceled (a : ALeg) (bLegID : GoStr) (k : ℕ) :
    (a.unlist bLegID k).canceled = a.canceled := by
  rw [unlist]
  split_ifs <;> rfl

lemma unlist_of_empty (h : a.launches = ∅) (bLegID : GoStr) (k : ℕ) : a.unlist bLegID k = a := by
  rw [unlist, if_neg]
  rw [h]
  exact (Option.some_ne_none k).symm

namespace Ended

variable {s s' : System}

lemma of_open (h : Ended s) (hopen : s.aleg.canceled = false) (hopen' : s'.aleg.canceled = false)
    (htaken : s'.taken = s.taken) : Ended s' where
  emptied hcanceled := absurd hcanceled (eq_false_iff.mp hopen')
  taken := by rw [htaken, h.taken, hopen, hopen']
  first x hx := by
    have hsome := h.taken
    rw [← htaken, hx, hopen] at hsome
    cases hsome

lemma of_same (h : Ended s) (haleg : s'.aleg = s.aleg) (htaken : s'.taken = s.taken)
    (hlaunches : ∀ k, k ∈ s.doomed ∨ k ∈ s.gone → k ∈ s'.doomed ∨ k ∈ s'.gone) : Ended s' where
  emptied := haleg ▸ h.emptied
  taken := by rw [htaken, haleg, h.taken]
  first x hx := by
    obtain ⟨hcause, hopen⟩ := h.first x (htaken ▸ hx)
    exact ⟨hcause.trans (by rw [haleg]), fun k hk => hlaunches k (hopen k hk)⟩

lemma step (h : Ended s) (hlisted : Listed s) (hstep : Stepped s s') : Ended s' := by
  cases hstep with
  | idle => exact h
  | launch _ hopen | register _ hopen => exact h.of_open hopen hopen rfl
  | ignore | wait | turnAway | teardown => exact h.of_same rfl rfl fun _ => id
  | refuse j call bLegID hj =>
    cases hcanceled : s.aleg.canceled with
    | false => exact h.of_open hcanceled ((unlist_canceled _ _ _).trans hcanceled) rfl
    | true =>
      refine h.of_same (unlist_of_empty (h.emptied hcanceled).1 _ _) rfl fun k hk => ?_
      exact hk.imp_left (mem_cons_of_mem _)
  | commit j call bLegID blegs hj hopen hblegs =>
    exact h.of_open hopen ((unlist_canceled _ _ _).trans hopen) rfl
  | release id =>
    cases hcanceled : s.aleg.canceled with
    | false => exact h.of_open hcanceled hcanceled rfl
    | true =>
      obtain ⟨hlaunches, hblegs⟩ := h.emptied hcanceled
      refine ⟨fun _ => ?_, h.taken, fun x hx => ?_⟩
      · rw [hlaunches, hblegs]
        exact ⟨rfl, rfl⟩
      · obtain ⟨hcause, hopen⟩ := h.first x hx
        exact ⟨hcause, fun k hk => (hopen k hk).imp_right (mem_append_right _)⟩
  | cancel cause hopen =>
    refine ⟨fun _ => ⟨rfl, rfl⟩, rfl, fun x hx => ?_⟩
    cases hx
    exact ⟨rfl, fun k hk => hlisted.canceled hk⟩
  | context j k hj => exact h.of_same rfl rfl fun _ => mem_cancelContext hj

end Ended

def Counted (s : System) : Prop :=
  ∀ n, registered n s.aleg.blegs + (s.calls.flatMap attempts).count n + s.released.count n +
    s.kept.count n +
    (s.teardowns.map attempt).count n = if n < s.attempts then 1 else 0

lemma registered_rows (n : ℕ) (blegs : Table GoStr ℕ) :
    registered n blegs = (blegs.entries.map Sigma.snd).count n := by
  rw [registered, total]
  induction blegs.entries with
  | nil => rfl
  | cons e rows ih =>
    rw [map_cons, sum_cons, ih, map_cons, ← singleton_append, count_append, Int.natCast_add, count_one]

lemma registered_erase (n : ℕ) (blegs : Table GoStr ℕ) (id : GoStr) :
    registered n (blegs.erase id) + (blegs.lookup id).toList.count n = registered n blegs := by
  rw [registered, total_erase, share]
  cases blegs.lookup id with
  | none => exact (add_zero _).trans (sub_zero _)
  | some h =>
    change total _ blegs - (if h = n then (1 : ℤ) else 0) + (([h].count n : ℕ) : ℤ) = _
    rw [count_one]
    exact sub_add_cancel _ _

lemma count_next (a n : ℕ) :
    (([a].count n : ℕ) : ℤ) + (if n < a then 1 else 0) = if n < a + 1 then 1 else 0 := by
  rw [count_one]
  split_ifs <;> omega

lemma count_offer (s : System) (given : Bool) (n : ℕ) :
    ((s.offer given).toList.count n : ℤ) + (if n < s.attempts then 1 else 0) =
      if n < s.attempts + given.toNat then 1 else 0 := by
  cases given with
  | false => exact zero_add _
  | true => exact count_next s.attempts n

lemma count_tearDown (s : System) (cause : CancelCause) (attempts : List ℕ) (n : ℕ) :
    ((s.tearDown cause attempts).map attempt).count n =
    (s.teardowns.map attempt).count n + attempts.count n := by
  rw [System.tearDown, map_append, map_map, count_append]
  congr 2
  exact map_id attempts

lemma count_calls {j : ℕ} (hj : s.calls[j]? = some call) (n : ℕ) :
    (s.calls.flatMap attempts).count n =
    call.attempts.count n + ((s.calls.eraseIdx j).flatMap attempts).count n := by
  rw [← ((perm_calls hj).flatMap_right attempts).count_eq, flatMap_cons, count_append]

lemma Counted.step (h : Counted s) {s' : System} (hstep : Stepped s s') : Counted s' := by
  intro n
  have hn := h n
  cases hstep with
  | idle | launch | context => exact hn
  | ignore given =>
    have hoffer := count_offer s given n
    dsimp only
    rw [count_append]
    omega
  | wait p call given hp hopen hcall =>
    have hoffer := count_offer s given n
    dsimp only
    rw [flatMap_append, flatMap_singleton, hcall, count_append]
    omega
  | refuse j call bLegID hj =>
    have hcalls := count_calls hj n
    dsimp only
    rw [unlist_blegs, count_append]
    omega
  | commit j call bLegID blegs hj hopen hblegs =>
    have hcalls := count_calls hj n
    have := hblegs n
    dsimp only
    omega
  | register id hopen hnew =>
    have hnext := count_next s.attempts n
    dsimp only
    rw [registered_insert hnew]
    omega
  | turnAway cause =>
    have hnext := count_next s.attempts n
    dsimp only
    rw [count_tearDown]
    omega
  | release id =>
    have herase := registered_erase n s.aleg.blegs id
    dsimp only
    rw [count_append]
    omega
  | cancel cause hopen =>
    have hrows := registered_rows n s.aleg.blegs
    have hnone : registered n (∅ : Table GoStr ℕ) = 0 := rfl
    dsimp only
    rw [count_tearDown]
    omega
  | teardown j t t' calls closes hj hsame hcalls hcloses hreturns =>
    obtain ⟨hlt, hget⟩ := List.getElem?_eq_some_iff.mp hj
    have hmap : (s.teardowns.set j t').map attempt = s.teardowns.map attempt := by
      rw [map_set, hsame, ← hget, ← getElem_map attempt (h := by rwa [length_map])]
      exact set_getElem_self _
    rw [hmap]
    exact hn

structure Logged (s : System) : Prop where
  cancels : ∀ n, s.cancelCalls.count n = s.teardowns.countP fun t => t.attempt = n && t.called
  closes : ∀ n, s.closeCalls.count n = s.teardowns.countP fun t => t.attempt = n && t.closed.isSome
  returned : ∀ t ∈ s.teardowns, t.returned.isSome → t.called

namespace Logged

variable {s s' : System}

lemma tearDown (h : Logged s) (cause : CancelCause) (attempts : List ℕ)
    (hteardowns : s'.teardowns = s.tearDown cause attempts)
    (hcancels : s'.cancelCalls = s.cancelCalls)
    (hcloses : s'.closeCalls = s.closeCalls) : Logged s' where
  cancels n := by
    rw [hteardowns, hcancels, h.cancels n]
    simp [System.tearDown, countP_map, Function.comp_def]
  closes n := by
    rw [hteardowns, hcloses, h.closes n]
    simp [System.tearDown, countP_map, Function.comp_def]
  returned t ht hreturned := by
    rw [hteardowns, System.tearDown, mem_append] at ht
    rcases ht with ht | ht
    · exact h.returned t ht hreturned
    · obtain ⟨a, -, rfl⟩ := mem_map.mp ht
      cases hreturned

lemma count_raised (flag : Teardown → Bool) {ts : List Teardown} {log : List ℕ} {n j : ℕ}
    {t t' : Teardown} {raises : Bool}
    (h : log.count n = ts.countP fun t => t.attempt = n && flag t) (hj : ts[j]? = some t)
    (hsame : t'.attempt = t.attempt) (hflag : (flag t').toNat = (flag t).toNat + raises.toNat) :
    ((if raises then [t.attempt] else []) ++ log).count n = (ts.set j t').countP
    fun t => t.attempt = n && flag t := by
  obtain ⟨hlt, rfl⟩ := List.getElem?_eq_some_iff.mp hj
  rw [count_append, h, ← (getElem_cons_eraseIdx_perm hlt).countP_eq,
    (set_perm_cons_eraseIdx hlt t').countP_eq, countP_cons, countP_cons, hsame]
  by_cases hn : ts[j].attempt = n
  · revert hflag
    cases flag t' <;> cases flag ts[j] <;> cases raises <;> simp [hn, add_comm]
  · cases raises <;> simp [hn]

lemma step (h : Logged s) (hstep : Stepped s s') : Logged s' := by
  cases hstep with
  | turnAway cause => exact h.tearDown cause _ rfl rfl rfl
  | cancel cause hopen => exact h.tearDown cause.orContextDone _ rfl rfl rfl
  | teardown j t t' calls closes hj hsame hcalls hcloses hreturns =>
    refine ⟨fun n => count_raised _ (h.cancels n) hj hsame hcalls,
      fun n => count_raised (fun t => t.closed.isSome)
      (h.closes n) hj hsame hcloses, fun u hu hreturned => ?_⟩
    rcases mem_or_eq_of_mem_set hu with hu | rfl
    · exact h.returned u hu hreturned
    rcases hreturns hreturned with hbefore | hcalled
    · have hcalled := h.returned t (mem_of_getElem? hj) hbefore
      revert hcalls
      rw [hcalled]
      cases u.called <;> cases calls <;> decide
    · exact hcalled
  | _ => exact ⟨h.cancels, h.closes, h.returned⟩

end Logged

structure Sound (s : System) : Prop where
  listed : Listed s
  ended : Ended s
  counted : Counted s
  logged : Logged s

structure Cancelled (s : System) (taken : Taken) : Prop where
  noLaunch : ∀ bLegID, perform s (.beginBLegLaunch bLegID) = (s, .fails .aLegCanceled)
  noAttempt : s.aleg.blegs = ∅
  contexts : ∀ k ∈ taken.launches, k ∈ s.doomed ∨ k ∈ s.gone
  tornDown : ∀ n < s.attempts, n ∉ s.released → n ∉ s.kept → n ∉ s.calls.flatMap attempts →
    ∃ t, s.teardowns.filter (fun t => t.attempt = n) = [t] ∧
      s.cancelCalls.count n = t.called.toNat ∧ s.closeCalls.count n = t.closed.isSome.toNat ∧
      (t.finished → s.cancelCalls.count n = 1 ∧ s.closeCalls.count n = 1)
  progress : ∀ t ∈ s.teardowns, t.finished = false → ∃ event, t.advance event ≠ none
  register :
    ∀ id ctxDone, ∃ s', perform s (.registerBLeg id ctxDone true) = (s', .fails .aLegCanceled) ∧
    s'.teardowns = s.tearDown taken.cause [s.attempts]
  commitWaits : ∀ k p handle, s.permits[k]? = some p → p.settled = false →
    ∃ s', perform s (.commit k handle) = (s', .waits) ∧
    s'.calls = s.calls ++ [.commit k p.bLegID (s.offer handle)]
  commit : ∀ j k bLegID handle, s.calls[j]? = some (.commit k bLegID handle) →
    (perform s (.settle j)).2 = .committed ⟨true, taken.cause⟩

lemma Teardown.advance_of_unfinished {t : Teardown} (h : t.finished = false) :
    ∃ event, t.advance event ≠ none := by
  by_cases hcalled : t.called
  · cases hreturned : t.returned with
    | none =>
      refine ⟨.cancelReturns [], ?_⟩
      rw [advance, if_pos ⟨hcalled, by rw [hreturned]; rfl⟩]
      exact Option.some_ne_none _
    | some errs =>
      have hclosed : t.closed.isSome = false := by
        rw [finished, hreturned] at h
        exact h
      refine ⟨.close [], ?_⟩
      rw [advance, if_pos ⟨.inr (by rw [hreturned]; rfl), Option.isSome_eq_false_iff.mp hclosed⟩]
      exact Option.some_ne_none _
  · refine ⟨.callCancel, ?_⟩
    rw [advance, if_neg hcalled]
    exact Option.some_ne_none _

namespace Sound

variable {s : System}

lemma step (h : Sound s) (op : Op) (hop : Unregistered s op) : Sound (step s op) :=
  have hstep := step_spec op hop
  ⟨h.listed.step hstep, h.ended.step h.listed hstep, h.counted.step hstep, h.logged.step hstep⟩

lemma empty : Sound {} where
  listed := ⟨nofun, nodup_nil, nofun⟩
  ended := ⟨nofun, rfl, nofun⟩
  counted _ := rfl
  logged := ⟨fun _ => rfl, fun _ => rfl, nofun⟩

lemma tornDown (h : Sound s) (hcanceled : s.aleg.canceled) {n : ℕ} (hn : n < s.attempts)
    (hreleased : n ∉ s.released) (hkept : n ∉ s.kept) (hcalls : n ∉ s.calls.flatMap attempts) :
    ∃ t, s.teardowns.filter (fun t => t.attempt = n) = [t] ∧
      s.cancelCalls.count n = t.called.toNat ∧ s.closeCalls.count n = t.closed.isSome.toNat ∧
      (t.finished → s.cancelCalls.count n = 1 ∧ s.closeCalls.count n = 1) := by
  have hcount := h.counted n
  rw [(h.ended.emptied hcanceled).2, count_eq_zero.mpr hreleased, count_eq_zero.mpr hkept,
    count_eq_zero.mpr hcalls, if_pos hn] at hcount
  have hone : (s.teardowns.filter fun t => t.attempt = n).length = 1 := by
    rw [← countP_eq_length_filter]
    have hmap : (s.teardowns.map attempt).count n = s.teardowns.countP fun t => t.attempt = n := by
      rw [count, countP_map]
      rfl
    have hnone : registered n (∅ : Table GoStr ℕ) = 0 := rfl
    omega
  obtain ⟨t, ht⟩ := length_eq_one_iff.mp hone
  have hflag (flag : Teardown → Bool) :
      (s.teardowns.countP fun t => t.attempt = n && flag t) = (flag t).toNat := by
    have hfilter := countP_filter (p := flag) (q := fun t => t.attempt = n) (l := s.teardowns)
    rw [ht, countP_singleton] at hfilter
    simp only [and_comm (decide _), ← hfilter]
    cases flag t <;> rfl
  have hcancels := (h.logged.cancels n).trans (hflag _)
  have hcloses := (h.logged.closes n).trans (hflag fun t => t.closed.isSome)
  refine ⟨t, ht, hcancels, hcloses, fun hfinished => ?_⟩
  rw [finished, and_eq_true] at hfinished
  have hmem : t ∈ s.teardowns := mem_of_mem_filter (ht ▸ mem_singleton_self t)
  rw [hcancels, hcloses, h.logged.returned t hmem hfinished.1, hfinished.2]
  exact ⟨rfl, rfl⟩

lemma cancelled (h : Sound s) {x : Taken} (hx : s.taken = some x) : Cancelled s x := by
  have hcanceled : s.aleg.canceled := by rw [← h.ended.taken, hx]; rfl
  obtain ⟨hcause, hopen⟩ := h.ended.first x hx
  refine ⟨fun bLegID => ?_, (h.ended.emptied hcanceled).2, hopen, fun n => h.tornDown hcanceled,
    fun t _ => advance_of_unfinished, fun id ctxDone => ?_, fun k p handle hp hsettled => ?_,
    fun j k bLegID handle hj => ?_⟩
  · rw [perform, beginBLegLaunch, if_pos hcanceled]
  · rw [perform, registerBLeg, if_pos hcanceled, hcause]
    exact ⟨_, rfl, rfl⟩
  · rw [perform, hp]
    dsimp only
    rw [if_neg (eq_false_iff.mp hsettled)]
    exact ⟨_, rfl, rfl⟩
  · have hcommit : s.aleg.commit bLegID k handle = (s.aleg.unlist bLegID k, ⟨true, s.aleg.cause⟩) :=
      if_pos hcanceled
    rw [perform, hj]
    dsimp only
    rw [hcommit, if_pos rfl, hcause]

end Sound

lemma canceled_step {s' : System} (hstep : Stepped s s') (h : s.aleg.canceled) :
    s'.aleg.canceled := by
  cases hstep with
  | refuse | commit => exact (unlist_canceled _ _ _).trans h
  | cancel cause hopen => rfl
  | _ => exact h

lemma canceled_cancel (s : System) (cause : CancelCause) :
    (step s (.cancel cause)).aleg.canceled := by
  rw [step, perform, cancel]
  split_ifs with hopen
  · exact hopen
  · rfl

namespace Coordinator

structure Sound (c : Coordinator) : Prop where
  legs : ∀ (r : ℕ) leg, c.legs[r]? = some leg → LegLifecycle.Sound leg
  named : ∀ id r, c.alegs.lookup id = some r → r < c.legs.length

variable {c : Coordinator}

lemma getElem?_onLeg (c : Coordinator) (r : ℕ) (op : LegLifecycle.Op) (r' : ℕ) :
    (c.onLeg r op).legs[r']? = if r = r' then (c.legs[r']?).map (LegLifecycle.step · op)
    else c.legs[r']? := by
  rw [onLeg, getElem?_modify]
  split_ifs <;> simp

namespace Sound

lemma aLegOf (h : Sound c) (id : GoStr) : Sound (c.aLegOf id).1 := by
  rw [Coordinator.aLegOf]
  cases hid : c.alegs.lookup id with
  | some r => exact h
  | none =>
    refine ⟨fun r leg hleg => ?_, fun id' r hr => ?_⟩
    · rw [getElem?_append] at hleg
      split_ifs at hleg
      · exact h.legs r leg hleg
      · rw [getElem?_singleton] at hleg
        split_ifs at hleg
        exact Option.some.inj hleg ▸ LegLifecycle.Sound.empty
    · rw [length_append]
      rw [lookup_insert_eq] at hr
      split_ifs at hr
      · cases hr
        exact Nat.lt_succ_self _
      · exact (h.named id' r hr).trans (Nat.lt_succ_self _)

lemma onLeg (h : Sound c) (r : ℕ) (op : LegLifecycle.Op)
    (hop : ∀ leg, c.legs[r]? = some leg → LegLifecycle.Unregistered leg op) :
    Sound (c.onLeg r op) where
  legs r' leg hleg := by
    rw [getElem?_onLeg] at hleg
    split_ifs at hleg with hsame
    · subst hsame
      obtain ⟨before, hbefore, rfl⟩ := Option.map_eq_some_iff.mp hleg
      exact (h.legs r before hbefore).step op (hop before hbefore)
    · exact h.legs r' leg hleg
  named id r' hr' := by
    rw [Coordinator.onLeg, length_modify]
    exact h.named id r' hr'

lemma step (h : Sound c) (op : Op) (hop : Unregistered c op) : Sound (c.step op) := by
  cases op with
  | startALeg id => exact h.aLegOf id
  | cancelALeg id cause => exact ⟨(h.aLegOf id).legs, (h.aLegOf id).named⟩
  | cancelFound j =>
    rw [Coordinator.step]
    cases c.cancels[j]? with
    | none => exact h
    | some call =>
      have hleg := h.onLeg call.1 (.cancel call.2) fun _ _ => trivial
      exact ⟨hleg.legs, hleg.named⟩
  | endALeg id =>
    refine ⟨h.legs, fun id' r hr => ?_⟩
    rw [show (c.step (.endALeg id)).alegs = c.alegs.erase id from rfl, lookup_erase_eq] at hr
    split_ifs at hr
    exact h.named id' r hr
  | onLeg r op => exact h.onLeg r op hop

lemma empty : Sound {} := ⟨nofun, nofun⟩

end Sound

/-- A call of `CancelALeg` has found the A-leg of the id, or has canceled it. -/
def Follows (c : Coordinator) (id : GoStr) (cause : CancelCause) : Prop :=
  ∃ r leg, c.alegs.lookup id = some r ∧ c.legs[r]? = some leg ∧
    ((r, cause) ∈ c.cancels ∨ leg.aleg.canceled)

namespace Follows

variable {id : GoStr} {cause : CancelCause}

lemma aLegOf (h : Follows c id cause) (id' : GoStr) : Follows (c.aLegOf id').1 id cause := by
  obtain ⟨r, leg, hid, hleg, hcall⟩ := h
  rw [Coordinator.aLegOf]
  cases hid' : c.alegs.lookup id' with
  | some r' => exact ⟨r, leg, hid, hleg, hcall⟩
  | none =>
    have hne : id ≠ id' := by
      rintro rfl
      rw [hid] at hid'
      cases hid'
    refine ⟨r, leg, ?_, ?_, hcall⟩
    · rw [lookup_insert_eq, if_neg hne, hid]
    · rw [List.getElem?_append_left (List.getElem?_eq_some_iff.mp hleg).1, hleg]

lemma start (h : Sound c) (id : GoStr) (cause : CancelCause) :
    Follows (c.cancelALeg id cause) id cause := by
  rw [cancelALeg, Coordinator.aLegOf]
  cases hid : c.alegs.lookup id with
  | some r =>
    obtain ⟨leg, hleg⟩ : ∃ leg, c.legs[r]? = some leg := ⟨_, getElem?_eq_getElem (h.named id r hid)⟩
    exact ⟨r, leg, hid, hleg, .inl (mem_append_right _ (mem_singleton_self _))⟩
  | none =>
    refine ⟨c.legs.length, {}, ?_, ?_, .inl (mem_append_right _ (mem_singleton_self _))⟩
    · rw [lookup_insert_eq, if_pos rfl]
    · exact getElem?_concat_length

lemma onLeg (h : Follows c id cause) (r' : ℕ) (op : LegLifecycle.Op)
    (hop : ∀ leg, c.legs[r']? = some leg → LegLifecycle.Unregistered leg op) :
    Follows (c.onLeg r' op) id cause := by
  obtain ⟨r, leg, hid, hleg, hcall⟩ := h
  by_cases hsame : r' = r
  · subst hsame
    refine ⟨r', LegLifecycle.step leg op, hid, ?_, hcall.imp_right (canceled_step (step_spec op (hop leg hleg)))⟩
    rw [getElem?_onLeg, if_pos rfl, hleg]
    rfl
  · refine ⟨r, leg, hid, ?_, hcall⟩
    rw [getElem?_onLeg, if_neg hsame, hleg]

lemma step (h : Follows c id cause) (op : Op) (hop : Unregistered c op) (hend : op ≠ .endALeg id) :
    Follows (c.step op) id cause := by
  cases op with
  | startALeg id' => exact h.aLegOf id'
  | cancelALeg id' cause' =>
    obtain ⟨r, leg, hid, hleg, hcall⟩ := h.aLegOf id'
    exact ⟨r, leg, hid, hleg, hcall.imp_left (mem_append_left _)⟩
  | cancelFound j =>
    rw [Coordinator.step]
    cases hj : c.cancels[j]? with
    | none => exact h
    | some call =>
      obtain ⟨hlt, hget⟩ := List.getElem?_eq_some_iff.mp hj
      obtain ⟨r, leg, hid, hleg, hcall⟩ := h
      by_cases hself : call.1 = r
      · -- the A-leg is canceled by this call
        refine ⟨r, LegLifecycle.step leg (.cancel call.2), hid, ?_, .inr (canceled_cancel _ _)⟩
        rw [getElem?_onLeg, if_pos hself, hleg]
        rfl
      · refine ⟨r, leg, hid, ?_, hcall.imp_left fun hmem => ?_⟩
        · rw [getElem?_onLeg, if_neg hself, hleg]
        · rw [← (getElem_cons_eraseIdx_perm hlt).mem_iff, hget, mem_cons] at hmem
          exact hmem.resolve_left fun heq => hself (congrArg Prod.fst heq).symm
  | endALeg id' =>
    obtain ⟨r, leg, hid, hleg, hcall⟩ := h
    refine ⟨r, leg, ?_, hleg, hcall⟩
    rw [show (c.step (.endALeg id')).alegs = c.alegs.erase id' from rfl, lookup_erase_eq, if_neg, hid]
    rintro rfl
    exact hend rfl
  | onLeg r op => exact h.onLeg r op hop

end Follows

end Coordinator

/-- However the calls on the A-legs interleave: an A-leg whose cancellation has taken effect is
canceled for good, with all that was launched or registered on it; and `CancelALeg` reaches the
A-leg that `StartALeg` returns, also when that is started later. -/
theorem aleg_cancellation_total (ops : List Coordinator.Op)
    (hids : Meets Coordinator.step Coordinator.Unregistered {} ops) :
    let c := run Coordinator.step {} ops
    (∀ (r : ℕ) leg, c.legs[r]? = some leg →
      leg.taken.isSome = leg.aleg.canceled ∧
      ∀ taken, leg.taken = some taken → Cancelled leg taken) ∧
    ∀ before id cause after, ops = before ++ .cancelALeg id cause :: after → .endALeg id ∉ after →
      ∃ r leg, c.startALeg id = (c, r) ∧ c.legs[r]? = some leg ∧
        ((r, cause) ∈ c.cancels ∨ leg.aleg.canceled = true) := by
  intro c
  have hsound {done : List Coordinator.Op} (hdone : done <+: ops) :
      Coordinator.Sound (run Coordinator.step {} done) :=
    run_induct (fun _ op hs hop => hs.step op hop) Coordinator.Sound.empty hids hdone
  refine ⟨fun r leg hleg => ?_, fun before id cause after hops hend => ?_⟩
  · have hleg := (hsound (prefix_refl ops)).legs r leg hleg
    exact ⟨hleg.ended.taken, fun taken => hleg.cancelled⟩
  have hrest : Meets Coordinator.step (fun c op => Coordinator.Unregistered c op ∧ op ≠ .endALeg id)
      ((run Coordinator.step {} before).cancelALeg id cause) after := by
    rw [hops] at hids
    exact hids.right.2.and_forall fun op hop heq => hend (heq ▸ hop)
  have hfollows : Coordinator.Follows c id cause := by
    have hrun :
        c = run Coordinator.step ((run Coordinator.step {} before).cancelALeg id cause) after := by
      rw [show c = run Coordinator.step {} ops from rfl, hops, run_append]
      rfl
    rw [hrun]
    have hstart := Coordinator.Follows.start (hsound (hops ▸ prefix_append before _)) id cause
    refine run_induct (fun c op (hs : Coordinator.Follows c id cause) hop => ?_) hstart hrest
      (prefix_refl after)
    exact hs.step op hop.1 hop.2
  obtain ⟨r, leg, hid, hleg, hcall⟩ := hfollows
  refine ⟨r, leg, ?_, hleg, hcall⟩
  rw [Coordinator.startALeg, Coordinator.aLegOf, hid]

def committedThenCanceled : List Coordinator.Op :=
  [.startALeg [0x61], .onLeg 0 (.beginBLegLaunch [0x62]), .onLeg 0 (.commit 0 true),
    .onLeg 0 (.settle 0), .cancelALeg [0x61] { kind := .explicit }, .cancelFound 0]

lemma committedThenCanceled_meets :
    Meets Coordinator.step Coordinator.Unregistered {} committedThenCanceled := by
  refine ⟨trivial, ⟨fun _ _ => trivial, ⟨fun _ _ => trivial, ⟨fun leg hleg k bLegID h _ => ?_, ?_⟩⟩⟩⟩
  swap
  · exact ⟨trivial, ⟨trivial, trivial⟩⟩
  cases hleg
  exact AList.lookup_empty bLegID

theorem aleg_cancellation_of_committed :
    Meets Coordinator.step Coordinator.Unregistered {} committedThenCanceled ∧
    ∃ leg taken, (run Coordinator.step {} committedThenCanceled).legs[0]? = some leg ∧
      leg.taken = some taken ∧ leg.attempts = 1 ∧ Cancelled leg taken :=
  ⟨committedThenCanceled_meets, _, _, rfl, rfl, rfl,
    ((aleg_cancellation_total committedThenCanceled committedThenCanceled_meets).1 0 _ rfl).2 _ rfl⟩

/-- However the calls interleave, each attempt is in one place (registered, in a `Commit` that waits
for the lock, released, left with its caller, in one teardown), and `Cancel` and `Close` are called
in the last one only, once each. -/
theorem attempt_in_one_place (ops : List Coordinator.Op)
    (hids : Meets Coordinator.step Coordinator.Unregistered {} ops)
    (r : ℕ) (leg : System) (hleg : (run Coordinator.step {} ops).legs[r]? = some leg) :
    Counted leg ∧ ∀ n, leg.cancelCalls.count n ≤ (leg.teardowns.map attempt).count n ∧
      leg.closeCalls.count n ≤ (leg.teardowns.map attempt).count n := by
  have hsound : Coordinator.Sound (run Coordinator.step {} ops) :=
    run_induct (fun _ op hs hop => hs.step op hop) Coordinator.Sound.empty hids (prefix_refl ops)
  have h := hsound.legs r leg hleg
  have hle (n : ℕ) (flag : Teardown → Bool) :
      (leg.teardowns.countP fun t => t.attempt = n && flag t) ≤
      (leg.teardowns.map attempt).count n := by
    rw [count, countP_map]
    exact countP_mono_left fun t _ ht => (and_eq_true_iff.mp ht).1
  exact ⟨h.counted, fun n => ⟨h.logged.cancels n ▸ hle n _, h.logged.closes n ▸ hle n fun t => t.closed.isSome⟩⟩

theorem attempt_in_one_place_of_committed :
    ∃ leg, (run Coordinator.step {} committedThenCanceled).legs[0]? = some leg ∧
    (leg.teardowns.map attempt).count 0 = 1 ∧ leg.cancelCalls.count 0 ≤ 1 :=
  ⟨_, rfl, rfl, ((attempt_in_one_place _ committedThenCanceled_meets 0 _ rfl).2 0).1⟩

/-- A permit that was settled before reports no cancellation, and a registration that brings no
attempt does not fail. -/
theorem commit_of_settled_permit :
    let s :=
    run step {} [.beginBLegLaunch [0x62], .commit 0 true, .settle 0, .cancel { kind := .explicit }]
    s.aleg.canceled = true ∧ (perform s (.commit 0 true)).2 = .committed {} ∧
      (perform s (.registerBLeg [0x63] false false)).2 = .returns := by
  decide +kernel

end InteractiveProxy.LegLifecycle
