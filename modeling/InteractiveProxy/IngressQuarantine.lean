import InteractiveProxy.SelfDefenseConfig

/-! How long quarantines last. A quarantine that is reported until an instant is in force up to it
when the limits keep inactive entries at least as long as the policy can quarantine; otherwise its
entry may expire first. -/
namespace InteractiveProxy.IngressDefense

open GoText GuardedRun KeyedTable NetAddress SignedWord SelfDefense List State

variable {n : ℕ} {limit : Duration}

lemma toInt_doubled {duration : Duration} (h : 0 < duration.toInt) :
    (doubled limit n duration).toInt = min (duration.toInt * 2 ^ n) limit.toInt := by
  have hlimit := (fits_toInt limit).2
  induction n generalizing duration with
  | zero =>
    rw [doubled]
    simp only [Int64.lt_iff_toInt_lt]
    split_ifs <;> omega
  | succ n ih =>
    have hpow : (1 : ℤ) ≤ 2 ^ n := one_le_pow₀ (by decide)
    have hgrow : duration.toInt * 2 ≤ duration.toInt * 2 ^ (n + 1) := by
      rw [pow_succ]
      nlinarith
    rw [doubled]
    simp only [Int64.le_iff_toInt_le, Int64.lt_iff_toInt_lt]
    have hhalf : (Int64.maxValue / 2).toInt = 4611686018427387903 := rfl
    split_ifs
    · omega
    have htwo : (2 : Int64).toInt = 2 := rfl
    have hdouble : (duration * 2).toInt = duration.toInt * 2 := by
      rw [toInt_mul (by rw [htwo]; exact ⟨by omega, by omega⟩), htwo]
    rw [ih (by omega), hdouble]
    ring_nf

lemma toInt_quarantineDuration {level : Int64} {initial : Duration} (hlevel : 1 ≤ level.toInt)
    (hinitial : 0 < initial.toInt) :
    (quarantineDuration level initial limit).toInt =
    min (initial.toInt * 2 ^ (level.toInt.toNat - 1)) limit.toInt := by
  have hfits := (fits_toInt level).2
  have hone := Int64.toInt_one
  have hpred : (level - 1).toInt = level.toInt - 1 := by
    rw [toInt_sub ⟨by omega, by omega⟩, hone]
  have hpos : ¬ initial ≤ 0 := by
    rw [Int64.le_iff_toInt_le]
    exact not_le.mpr hinitial
  rw [quarantineDuration, if_neg hpos, toInt_doubled hinitial, hpred, Int.pred_toNat]

lemma quarantineDuration_le (level : Int64) (initial limit : Duration) :
    (quarantineDuration level initial limit).toInt ≤ limit.toInt := by
  rw [quarantineDuration]
  split_ifs with h
  · exact le_rfl
  · rw [Int64.le_iff_toInt_le] at h
    rw [toInt_doubled (not_le.mp h)]
    exact min_le_right _ _

namespace State

variable {s : State} {key : Addr}

lemma entry_setShard (h : s.Sound) (sh : Shard) :
    (s.setShard key sh).entry key = sh.entries.lookup key := by
  rw [entry, shardFor_setShard h.shards_pos, if_pos rfl]

end State

lemma touch_found (sh : Shard) (key : Addr) (now : Time) (ttl : Duration) :
    let found := (sh.touch key now ttl).2.1
    found.lastHostileAt = now ∧
      ((∃ e, sh.entries.lookup key = some e ∧ found.quarantineUntil = e.quarantineUntil ∧
        found.offenseLevel = e.offenseLevel) ∨
      (∀ e, sh.entries.lookup key = some e → ¬ now.sub e.lastHostileAt < ttl) ∧
        found.quarantineUntil = 0 ∧ found.offenseLevel = 0) := by
  rw [Shard.touch]
  cases he : sh.entries.lookup key with
  | none => exact ⟨rfl, .inr ⟨by simp, rfl, rfl⟩⟩
  | some found =>
    dsimp only
    split_ifs with hlive
    · exact ⟨rfl, .inl ⟨found, rfl, rfl, rfl⟩⟩
    · refine ⟨rfl, .inr ⟨?_, rfl, rfl⟩⟩
      rintro e ⟨⟩
      exact hlive

variable {now : Time} {p : Policy} {key : Addr} {op : Op}

lemma record_entry {s : State} (h : s.Sound) (hrec : op.record = some (now, p))
    (hkey : stateKey op.target = some key) (henabled : p.enabled) :
    ∃ e t, (perform s op).2 = .transition t ∧ (step s op).entry key = some e ∧
      Recorded ((s.shardFor key).touch key now s.limits.stateTTL).2.1 now p e t := by
  obtain ⟨e, t, hentry, hperform⟩ := perform_record hrec hkey henabled
  refine ⟨e, t, by rw [hperform], ?_, hentry⟩
  rw [step, hperform]
  exact (entry_setShard h _).trans (AList.lookup_insert _)

variable {e : Entry} {ttl : Duration} {sh : Shard}

lemma lookup_live (he : sh.entries.lookup key = some e) (hlive : now.sub e.lastHostileAt < ttl) :
    sh.lookup key now ttl = (sh, some e) := by
  simp only [Shard.lookup, he, if_pos hlive]

lemma lookup_expired (he : sh.entries.lookup key = some e)
    (hexpired : ¬ now.sub e.lastHostileAt < ttl) :
    sh.lookup key now ttl = (sh.drop key, none) := by
  simp only [Shard.lookup, he, if_neg hexpired]

variable {limits : StateLimits}

def Op.time : Op → Option Time
  | .recordAuthFailure _ now _ => some now
  | .recordProbe _ now _ => some now
  | .isQuarantined _ now => some now
  | .clear _ => none

/-- The instant of an operation on `key`. -/
def Op.timeOn (key : Addr) (op : Op) : Option Time :=
  if stateKey op.target = some key then op.time else none

/-- The events that an operation records, it records under `p`. -/
def Op.Under (p : Policy) (op : Op) : Prop := ∀ now q, op.record = some (now, q) → q = p

/-- The operation reports that `key` is quarantined until `u`. -/
def Reports (s : State) (op : Op) (key : Addr) (u : Time) : Prop :=
  stateKey op.target = some key ∧
    ∃ t, (perform s op).2 = .transition t ∧ t.quarantineStarted ∧ t.quarantineUntil = u

/-- The operation clears `key`, or its entry is evicted by the admission of another address. -/
def Loses (key : Addr) (s : State) (op : Op) : Prop :=
  (∃ addr, op = .clear addr ∧ stateKey addr = some key) ∨
    stateKey op.target ≠ some key ∧ (s.entry key).isSome ∧ (step s op).entry key = none

/-- The entry of `key` lives through the operation: it is not lost, and has not expired when the
operation comes. -/
def Lives (key : Addr) (s : State) (op : Op) : Prop :=
  ¬ Loses key s op ∧ ∀ t e, op.timeOn key = some t → s.entry key = some e →
    t.sub e.lastHostileAt < s.limits.stateTTL

/-- The operations on `key` come at instants that do not decrease, from the zero instant on. -/
def Clock (key : Addr) (ops : List Op) : Prop :=
  (0 :: ops.filterMap (Op.timeOn key)).Pairwise (· ≤ ·)

/-- Quarantines are honoured: after a report that an address is quarantined until `u`, it is
quarantined at every later instant before `u`, unless it is cleared or evicted in between. -/
def Honoured (limits : StateLimits) (p : Policy) : Prop :=
  ∀ s₀, newState limits = .ok s₀ → ∀ (before : List Op) (op : Op) (after : List Op)
    (addr key : Addr) (u t : Time),
    (∀ o ∈ before ++ op :: after, o.Under p) → stateKey addr = some key →
    Reports (run step s₀ before) op key u →
    Meets step (fun s o => ¬ Loses key s o) (step (run step s₀ before) op) after →
    Clock key (before ++ op :: after ++ [.isQuarantined addr t]) → t < u →
    (perform (run step s₀ (before ++ op :: after)) (.isQuarantined addr t)).2 = .quarantined true

/-- What an operation makes of the entry of `key`: it leaves it, takes it away, or records an event
in it. -/
lemma entry_step {s : State} (h : s.Sound) (op : Op) (key : Addr) :
    (step s op).entry key = s.entry key ∨
      ((step s op).entry key = none ∧ ∀ e, s.entry key = some e → ¬ Lives key s op) ∨
      ∃ t q e tr, op.record = some (t, q) ∧ op.timeOn key = some t ∧
      (step s op).entry key = some e ∧
        Recorded ((s.shardFor key).touch key t s.limits.stateTTL).2.1 t q e tr := by
  cases hkey : stateKey op.target with
  | none => exact .inl (by rw [step, perform_none hkey])
  | some key' =>
    by_cases hne : key = key'
    · subst hne
      have hon : op.timeOn key = op.time := if_pos hkey
      cases hrec : op.record with
      | some event =>
        obtain ⟨t, q⟩ := event
        cases henabled : q.enabled with
        | false =>
          obtain ⟨n, hsame⟩ := perform_disabled hrec henabled
          exact .inl (by rw [step, hsame])
        | true =>
          obtain ⟨e, tr, -, hentry, hrecorded⟩ := record_entry h hrec hkey henabled
          exact .inr (.inr ⟨t, q, e, tr, rfl, by cases op <;> simp_all [Op.record, Op.time], hentry, hrecorded⟩)
      | none =>
        cases op with
        | recordAuthFailure addr t q => cases hrec
        | recordProbe addr t q => cases hrec
        | isQuarantined addr t =>
          change stateKey addr = some key at hkey
          rw [step, perform_isQuarantined hkey, entry_setShard h]
          cases he : s.entry key with
          | none => exact .inl (by simp only [Shard.lookup, show (s.shardFor key).entries.lookup key = none from he])
          | some e =>
            by_cases hlive : t.sub e.lastHostileAt < s.limits.stateTTL
            · exact .inl (by rw [lookup_live he hlive]; exact he)
            · rw [lookup_expired he hlive, Shard.drop, lookup_erase_eq, if_pos rfl]
              refine .inr (.inl ⟨rfl, fun e' he' hlives => hlive ?_⟩)
              exact hlives.2 t e hon he
        | clear addr =>
          change stateKey addr = some key at hkey
          rw [step, perform_clear hkey, entry_setShard h, Shard.lookup_vacate, if_pos rfl]
          exact .inr (.inl ⟨rfl, fun e he hlives => hlives.1 (.inl ⟨addr, rfl, hkey⟩)⟩)
    · obtain ⟨v, hothers⟩ := (h.effect_step hkey).others
      rcases hothers key hne with hsame | ⟨-, hgone, -⟩
      · exact .inl hsame
      · refine .inr (.inl ⟨hgone, fun e he hlives => hlives.1 (.inr ⟨?_, by rw [he]; rfl, hgone⟩)⟩)
        rw [hkey]
        exact fun hsame => hne (Option.some.inj hsame).symm

section Invariants

variable {limits : StateLimits} {p : Policy} {key : Addr}

/-- Up to `now`: the deadline of `key` is at most `q` past its last event. -/
structure Bounded (limits : StateLimits) (q : ℤ) (key : Addr) (now : Time) (s : State) : Prop where
  sound : s.Sound
  limits : s.limits = limits
  now_nonneg : 0 ≤ now
  deadline : ∀ e, s.entry key = some e → e.lastHostileAt ≤ now ∧
    e.quarantineUntil ≤ e.lastHostileAt + q

variable {s : State}

lemma Bounded.later {q : ℤ} {t t' : Time} (hle : t ≤ t') (h : Bounded limits q key t s) :
    Bounded limits q key t' s :=
  ⟨h.sound, h.limits, h.now_nonneg.trans hle, fun e he => ⟨(h.deadline e he).1.trans hle, (h.deadline e he).2⟩⟩

section

variable (h : Bounded limits p.maxQuarantine.toInt key now s) (hmax : 0 ≤ p.maxQuarantine.toInt)

include h hmax

/-- The deadline after an event. -/
lemma Bounded.recorded {t : Transition}
    (hrec : Recorded ((s.shardFor key).touch key now s.limits.stateTTL).2.1 now p e t) :
    e.lastHostileAt = now ∧ e.quarantineUntil ≤ now + p.maxQuarantine.toInt := by
  obtain ⟨hnow, hfound⟩ := touch_found (s.shardFor key) key now s.limits.stateTTL
  have hbase : ((s.shardFor key).touch key now s.limits.stateTTL).2.1.quarantineUntil ≤
      now + p.maxQuarantine.toInt := by
    rcases hfound with ⟨old, hold, huntil, -⟩ | ⟨-, huntil, -⟩
    · obtain ⟨hlast, hdead⟩ := h.deadline old hold
      rw [huntil]
      exact hdead.trans (Int.add_le_add_right hlast _)
    · rw [huntil]
      exact Int.add_nonneg h.now_nonneg hmax
  refine ⟨hrec.lastHostileAt.trans hnow, ?_⟩
  rcases hrec.deadline with ⟨-, huntil⟩ | ⟨-, -, -, huntil⟩
  · rw [huntil]
    exact hbase
  · rw [huntil]
    exact max_le hbase (Int.add_le_add_left (quarantineDuration_le _ _ _) now)

lemma Bounded.step (htime : ∀ t, op.timeOn key = some t → t = now) (hunder : op.Under p) :
    Bounded limits p.maxQuarantine.toInt key now (step s op) := by
  obtain ⟨hsound, hlimits, -⟩ := h.sound.step op
  refine ⟨hsound, hlimits.trans h.limits, h.now_nonneg, fun e he => ?_⟩
  rcases entry_step h.sound op key
    with hsame | ⟨hgone, -⟩ | ⟨t, q, e', tr, hrec, hon, hentry, hrecorded⟩
  · exact h.deadline e (hsame ▸ he)
  · rw [hgone] at he
    cases he
  · obtain rfl := hunder t q hrec
    obtain rfl := htime t hon
    cases hentry.symm.trans he
    obtain ⟨hlast, huntil⟩ := h.recorded hmax hrecorded
    rw [hlast]
    exact ⟨le_rfl, huntil⟩

end

/-- From `t₀` on: `key` has an entry whose deadline is not before `u`. -/
structure InForce (limits : StateLimits) (key : Addr) (t₀ u : Time) (s : State) : Prop where
  sound : s.Sound
  limits : s.limits = limits
  entry : ∃ e, s.entry key = some e ∧ t₀ ≤ e.lastHostileAt ∧ u ≤ e.quarantineUntil

lemma live_until {t0 u t last : ℤ} (hkeep : u ≤ t0 + ttl.toInt) (hpos : 0 < ttl.toInt)
    (hlast : t0 ≤ last) (ht : t < u) : Time.sub t last < ttl := by
  rw [Time.sub_lt_iff hpos]
  omega

variable {t0 u : Time} (h : InForce limits key t0 u s)

include h

/-- Events on a live entry do not shorten the quarantine. -/
lemma InForce.step (hlives : Lives key s op) (hfrom : ∀ t, op.timeOn key = some t → t0 ≤ t) :
    InForce limits key t0 u (step s op) := by
  obtain ⟨e, he, hlast, huntil⟩ := h.entry
  obtain ⟨hsound, hlimits, -⟩ := h.sound.step op
  refine ⟨hsound, hlimits.trans h.limits, ?_⟩
  rcases entry_step h.sound op key
    with hsame | ⟨-, hlost⟩ | ⟨t, q, e', tr, -, hon, hentry, hrecorded⟩
  · exact ⟨e, hsame.trans he, hlast, huntil⟩
  · exact absurd hlives (hlost e he)
  · obtain ⟨hnow, hfound⟩ := touch_found (s.shardFor key) key t s.limits.stateTTL
    refine ⟨e', hentry, by rw [hrecorded.lastHostileAt, hnow]; exact hfrom t hon, ?_⟩
    rcases hfound with ⟨old, hold, hkept, -⟩ | ⟨hexpired, -⟩
    · cases he.symm.trans hold
      rcases hrecorded.deadline with ⟨-, hdead⟩ | ⟨-, -, -, hdead⟩
      · rw [hdead, hkept]
        exact huntil
      · rw [hdead, hkept]
        exact le_max_of_le_left huntil
    · exact absurd (hlives.2 t e hon he) (hexpired e he)

end Invariants

/-- Only a hostile event under an enabled policy reports a quarantine. -/
lemma Reports.record {s : State} {u : Time} (h : Reports s op key u)
    (hunder : op.Under p) : ∃ t0, op.record = some (t0, p) ∧ op.time = some t0 ∧ p.enabled := by
  obtain ⟨-, tr, hreply, hstarted, -⟩ := h
  have hrecord : ∃ t0, op.record = some (t0, p) ∧ op.time = some t0 := by
    cases op with
    | recordAuthFailure addr t0 q => exact ⟨t0, by rw [hunder t0 q rfl]; rfl, rfl⟩
    | recordProbe addr t0 q => exact ⟨t0, by rw [hunder t0 q rfl]; rfl, rfl⟩
    | isQuarantined addr t => simp [perform] at hreply
    | clear addr => simp [perform] at hreply
  obtain ⟨t0, hrec, htime⟩ := hrecord
  refine ⟨t0, hrec, htime, ?_⟩
  by_contra hoff
  obtain ⟨n, hsame⟩ := perform_disabled hrec (Bool.not_eq_true _ ▸ hoff)
  rw [hsame] at hreply
  cases hreply
  cases hstarted

/-- What the clock says about the operations around one at `t₀`. -/
lemma Clock.around {addr : Addr} {before after : List Op} {t0 t : Time}
    (h : Clock key (before ++ op :: after ++ [.isQuarantined addr t]))
    (hop : op.timeOn key = some t0) (hkey : stateKey addr = some key) :
    (0 :: before.filterMap (Op.timeOn key)).Pairwise (· ≤ ·) ∧ 0 ≤ t0 ∧
      (∀ t' ∈ before.filterMap (Op.timeOn key), t' ≤ t0) ∧
      ∀ t' ∈ after.filterMap (Op.timeOn key), t0 ≤ t' ∧ t' ≤ t := by
  have hlast : (Op.isQuarantined addr t).timeOn key = some t := if_pos hkey
  rw [Clock, filterMap_append, filterMap_append, filterMap_cons_some hop, filterMap_cons_some hlast,
    filterMap_nil, ← cons_append, ← cons_append] at h
  obtain ⟨hinit, -, hend⟩ := pairwise_append.mp h
  obtain ⟨hbefore, hafter, hcross⟩ := pairwise_append.mp hinit
  refine ⟨hbefore, hcross 0 mem_cons_self t0 mem_cons_self, ?_, ?_⟩
  · intro t' ht'
    exact hcross t' (mem_cons_of_mem _ ht') t0 mem_cons_self
  · intro t' ht'
    refine ⟨(pairwise_cons.mp hafter).1 t' ht', hend t' ?_ t (mem_singleton.mpr rfl)⟩
    exact mem_append_right _ (mem_cons_of_mem _ ht')

lemma newState_entry {s0 : State} (hnew : newState limits = .ok s0) (key : Addr) :
    s0.entry key = none := by
  obtain ⟨-, -, rfl⟩ := newState_ok hnew
  generalize hi : shardIndex _ key = i
  rw [entry, shardFor, hi, getD_eq_getElem?_getD, getElem?_map]
  cases (range _)[i]? <;> rfl

lemma honoured_of_kept (hmax : 0 ≤ p.maxQuarantine.toInt)
    (hpos : 0 < limits.stateTTL.toInt)
    (hkept : p.enabled → p.maxQuarantine.toInt ≤ limits.stateTTL.toInt) : Honoured limits p := by
  intro s0 hnew before op after addr key u t hunder hkey hreport hstays hclock ht
  have hop : op.Under p := hunder op (mem_append_right _ mem_cons_self)
  obtain ⟨t0, hrec, htime, henabled⟩ := hreport.record hop
  obtain ⟨htarget, tr, hreply, hstarted, rfl⟩ := hreport
  have hon : op.timeOn key = some t0 := (if_pos htarget).trans htime
  obtain ⟨hbefore, hnonneg, hupto, hafter⟩ := hclock.around hon hkey
  have hstart : Bounded limits p.maxQuarantine.toInt key 0 s0 := by
    obtain ⟨hsound, hlimits, -⟩ := newState_sound hnew
    refine ⟨hsound, hlimits, le_rfl, fun e he => ?_⟩
    rw [newState_entry hnew] at he
    cases he
  -- up to the report: the deadlines of the address stay within the longest quarantine
  have hbounded : Bounded limits p.maxQuarantine.toInt key t0 (run step s0 before) :=
    stamped_induct (Op.timeOn key) (Bounded limits p.maxQuarantine.toInt key)
      (fun _ _ _ hle h => h.later hle)
      (fun s o t' hon h hunder => h.step hmax hon hunder) hstart hbefore
      (meets_of_forall (fun o ho => hunder o (mem_append_left _ ho)) s0) hnonneg hupto
  obtain ⟨e, tr', hreply', hentry, hrecorded⟩ := record_entry hbounded.sound hrec htarget henabled
  obtain rfl : tr' = tr := Reply.transition.inj (hreply'.symm.trans hreply)
  obtain ⟨hlast, hdead⟩ := hbounded.recorded hmax hrecorded
  have huntil : tr'.quarantineUntil = e.quarantineUntil := by
    rcases hrecorded.deadline with ⟨hno, -⟩ | ⟨-, huntil, -⟩
    · rw [hno] at hstarted
      cases hstarted
    · exact huntil
  have hkeep : tr'.quarantineUntil ≤ t0 + limits.stateTTL.toInt := by
    rw [huntil]
    exact hdead.trans (Int.add_le_add_left (hkept henabled) t0)
  -- from the report on: the entry stays, and its deadline does not shrink
  have hforce : InForce limits key t0 tr'.quarantineUntil
      (run step (step (run step s0 before) op) after) := by
    have htimes : ∀ o ∈ after, ∀ t', o.timeOn key = some t' → t0 ≤ t' ∧ t' < tr'.quarantineUntil := by
      intro o ho t' ht'
      exact (hafter t' (mem_filterMap.mpr ⟨o, ho, ht'⟩)).imp_right (lt_of_le_of_lt · ht)
    refine run_induct (fun s o h hok => ?_) ?_ (hstays.and_forall htimes) (prefix_refl after)
    · refine h.step ⟨hok.1, fun t' e ht' he => ?_⟩ fun t' ht' => (hok.2 t' ht').1
      obtain ⟨_, hsame, hlast, -⟩ := h.entry
      cases hsame.symm.trans he
      exact h.limits ▸ live_until hkeep hpos hlast (hok.2 t' ht').2
    · obtain ⟨hsound, hlimits, -⟩ := hbounded.sound.step op
      exact ⟨hsound, hlimits.trans hbounded.limits, e, hentry, hlast.ge, huntil.le⟩
  obtain ⟨e', he', hlast', huntil'⟩ := hforce.entry
  have hlive :
      t.sub e'.lastHostileAt < (run step (step (run step s0 before) op) after).limits.stateTTL :=
    hforce.limits ▸ live_until hkeep hpos hlast' ht
  rw [run_append, run_cons, perform_isQuarantined hkey, lookup_live he' hlive]
  exact congrArg Reply.quarantined (decide_eq_true (lt_of_lt_of_le ht huntil'))

section Escalation

variable {s : State} {p : Policy} {addr key : Addr}

section

variable (h : s.Sound) (hkey : stateKey addr = some key) (henabled : p.enabled = true)
  (hpos : 0 < s.limits.stateTTL.toInt)

include h hkey henabled hpos

lemma probe_escalates (hn : n < 64) (hnew : s.entry key = none → n = 0)
    (hold : ∀ e, s.entry key = some e → e.lastHostileAt = 0 ∧ e.offenseLevel.toInt = n) :
    ∃ e, (step s (.recordProbe addr 0 p)).entry key = some e ∧ e.lastHostileAt = 0 ∧
      e.offenseLevel.toInt = n + 1 ∧ Reports s (.recordProbe addr 0 p) key e.quarantineUntil ∧
      (quarantineDuration e.offenseLevel p.initialQuarantine p.maxQuarantine).toInt ≤
      e.quarantineUntil := by
  have hrec : (Op.recordProbe addr 0 p).record = some (0, p) := rfl
  obtain ⟨e, tr, hreply, hentry, hrecorded⟩ := record_entry h hrec hkey henabled
  obtain ⟨hnow, hfound⟩ := touch_found (s.shardFor key) key 0 s.limits.stateTTL
  generalize ((s.shardFor key).touch key 0 s.limits.stateTTL).2.1 = found at hrecorded hnow hfound
  have hlevel : found.offenseLevel.toInt = n := by
    rcases hfound with ⟨old, hlookup, -, hlevel⟩ | ⟨hexpired, -, hlevel⟩
    · rw [hlevel]
      exact (hold old hlookup).2
    have hnone : s.entry key = none := by
      rw [Option.eq_none_iff_forall_ne_some]
      intro old hlookup
      refine hexpired old hlookup ?_
      rw [(hold old hlookup).1]
      exact (Time.sub_lt_iff hpos).mpr hpos
    rw [hlevel, hnew hnone]
    rfl
  have hnext : (nextOffenseLevel found.offenseLevel).toInt = n + 1 := by
    have hmost : maxOffenseLevel.toInt = 64 := rfl
    have hone := Int64.toInt_one
    rw [nextOffenseLevel, if_neg (by rw [Int64.le_iff_toInt_le]; omega),
      toInt_add (by rw [hone]; exact ⟨by omega, by omega⟩), hlevel, hone]
  have hstarted : tr.quarantineStarted := by
    simp only [perform, recordProbe, henabled, hkey] at hreply
    cases hreply
    rfl
  rcases hrecorded.deadline with ⟨hno, -⟩ | ⟨-, huntil, hraised, hdead⟩
  · rw [hno] at hstarted
    cases hstarted
  · refine ⟨e, hentry, hrecorded.lastHostileAt.trans hnow, by rw [hraised, hnext],
      ⟨hkey, tr, hreply, hstarted, huntil⟩, ?_⟩
    rw [hdead, hraised]
    exact le_max_of_le_right (Int.zero_add _).ge

lemma probes_level (hnew : s.entry key = none) (hn : n ≤ 64) :
    let s' := run step s (replicate n (.recordProbe addr 0 p))
    (s'.entry key = none → n = 0) ∧ ∀ e, s'.entry key = some e → e.lastHostileAt = 0 ∧
      e.offenseLevel.toInt = n := by
  induction n with
  | zero =>
    refine ⟨fun _ => rfl, fun e he => ?_⟩
    rw [replicate_zero, run_nil, hnew] at he
    cases he
  | succ n ih =>
    obtain ⟨hnone, hsome⟩ := ih (by omega)
    obtain ⟨hsound, hlimits, -⟩ := run_sound h (replicate n (.recordProbe addr 0 p))
    obtain ⟨e, hentry, hlast, hlevel, -⟩ := probe_escalates hsound hkey henabled (hlimits ▸ hpos)
      (by omega) hnone hsome
    rw [replicate_succ', run_append, run_cons, run_nil]
    refine ⟨fun hgone => ?_, fun e' he' => ?_⟩
    · rw [hentry] at hgone
      cases hgone
    · cases hentry.symm.trans he'
      exact ⟨hlast, by rw [hlevel]; norm_cast⟩

end

end Escalation

lemma not_honoured (hvalid : limits.validate = .ok ())
    (hinitial : 0 < p.initialQuarantine.toInt) (hpos : 0 < limits.stateTTL.toInt)
    (henabled : p.enabled)
    (hlonger : limits.stateTTL.toInt < p.maxQuarantine.toInt) : ¬ Honoured limits p := by
  intro hon
  obtain ⟨s0, hnew⟩ : ∃ s0, newState limits = .ok s0 := ⟨_, by rw [newState, hvalid]; rfl⟩
  obtain ⟨hsound0, hlimits0, -⟩ := newState_sound hnew
  have hkey : stateKey (testAddr 1) = some (testAddr 1) := rfl
  have hpos0 : 0 < s0.limits.stateTTL.toInt := hlimits0 ▸ hpos
  obtain ⟨hsound, hlimits, -⟩ := run_sound hsound0 (replicate 63 (.recordProbe (testAddr 1) 0 p))
  obtain ⟨hnone, hsome⟩ :=
    probes_level (n := 63) hsound0 hkey henabled hpos0 (newState_entry hnew _) (by decide)
  obtain ⟨e, hentry, hlast, hlevel, hreport, huntil⟩ :=
    probe_escalates hsound hkey henabled (hlimits ▸ hpos0) (by decide) hnone hsome
  have hlong : limits.stateTTL.toInt < e.quarantineUntil := by
    refine hlonger.trans_le (le_trans ?_ huntil)
    have hfits := (fits_toInt p.maxQuarantine).2
    have hdoublings : (((63 : ℕ) : ℤ) + 1).toNat - 1 = 63 := rfl
    rw [toInt_quarantineDuration (by omega) hinitial, hlevel, hdoublings]
    exact le_min (by omega) le_rfl
  have hprobe : (Op.recordProbe (testAddr 1) 0 p).timeOn (testAddr 1) = some 0 := rfl
  have hlook : (Op.isQuarantined (testAddr 1) limits.stateTTL.toInt).timeOn (testAddr 1) =
    some limits.stateTTL.toInt := rfl
  have hanswer := hon s0 hnew (replicate 63 (.recordProbe (testAddr 1) 0 p))
    (.recordProbe (testAddr 1) 0 p) []
    (testAddr 1) (testAddr 1) e.quarantineUntil limits.stateTTL.toInt
    (by simp [Op.Under, Op.record]) hkey hreport trivial
    (by simp [Clock, hprobe, hlook, hpos.le]) hlong
  have hexpired : ¬ Time.sub limits.stateTTL.toInt e.lastHostileAt < limits.stateTTL := by
    rw [hlast, Time.sub_lt_iff hpos, sub_zero]
    exact lt_irrefl _
  have hlimits' := (hsound.step (.recordProbe (testAddr 1) 0 p)).2.1.trans (hlimits.trans hlimits0)
  rw [run_append, run_cons, run_nil, perform_isQuarantined hkey, hlimits', lookup_expired hentry hexpired] at hanswer
  cases Reply.quarantined.inj hanswer

/-- Quarantines are honoured by every accepted configuration that is switched off or keeps inactive
entries at least as long as it quarantines, and by no other. -/
theorem quarantine_honoured_iff (lib : Parsers) (config : SelfDefenseConfig)
    (c : CompiledSelfDefense) (h : compileSelfDefense lib config = .ok c) :
    Honoured c.stateLimits c.policy ↔ (c.enabled → c.maxQuarantine ≤ c.stateTTL) := by
  have hbounds := compileSelfDefense_ok h
  have hmax : 0 ≤ c.maxQuarantine.toInt := by
    have hpos := hbounds.initial_pos
    have hle := hbounds.initial_le_max
    omega
  constructor
  · intro hon henabled
    by_contra hlonger
    rw [Int64.le_iff_toInt_le, not_le] at hlonger
    have hnot : ¬ Honoured c.stateLimits c.policy :=
      not_honoured hbounds.limits hbounds.initial_pos hbounds.ttl_pos henabled hlonger
    exact hnot hon
  · intro hkept
    exact honoured_of_kept hmax hbounds.ttl_pos
      fun henabled => Int64.le_iff_toInt_le.mp (hkept henabled)

def sampleParsers : Parsers where
  parseDuration raw := if raw = lit "1m" then some minute
    else if raw = lit "1h" then some hour else none
  parsePrefix _ := none
  parseAddr _ := none

def defaultCompiled : CompiledSelfDefense :=
  ⟨true, true, 5, minute, minute, 2 * hour, 24 * hour, 100000, []⟩

theorem quarantine_honoured_default : compileSelfDefense sampleParsers {} = .ok defaultCompiled ∧
      Honoured defaultCompiled.stateLimits defaultCompiled.policy := by
  refine ⟨?compiles, (quarantine_honoured_iff _ _ _ ?compiles).mpr fun _ => by decide⟩
  rfl

def briefConfig : SelfDefenseConfig :=
  { adaptive := { initialQuarantine := lit "1h", stateTTL := lit "1m" } }

def briefCompiled : CompiledSelfDefense :=
  ⟨true, true, 5, minute, hour, 2 * hour, minute, 100000, []⟩

/-- Its first quarantine, reported for an hour, is gone after a minute. -/
theorem quarantine_outlasts_entry :
    compileSelfDefense sampleParsers briefConfig = .ok briefCompiled ∧
      ∃ s₀, newState briefCompiled.stateLimits = .ok s₀ ∧
        Reports s₀ (.recordProbe (testAddr 1) unixEpoch briefCompiled.policy) (testAddr 1)
        (unixEpoch + 3600000000000) ∧
        (perform (step s₀ (.recordProbe (testAddr 1) unixEpoch briefCompiled.policy))
          (.isQuarantined (testAddr 1) (unixEpoch + 60000000000))).2 = .quarantined false := by
  refine ⟨rfl, _, rfl, ⟨rfl, _, rfl, rfl, ?_⟩, congrArg Reply.quarantined ?_⟩
  · decide +kernel
  · decide +kernel

/-- A quarantine doubles with each offense up to the maximum, and while the entry of an address
lives its deadline does not move back. -/
theorem quarantine_escalates {p : Policy} (hp : p.validate = .ok ()) {level : Int64}
    (hlevel : 1 ≤ level)
    {s₀ : State} (hnew : newState limits = .ok s₀) (before ops : List Op)
    (he : (run step s₀ before).entry key = some e)
    (hlives : Meets step (Lives key) (run step s₀ before) ops)
    (hclock : ∀ o ∈ ops, ∀ t, o.timeOn key = some t → e.lastHostileAt ≤ t) :
    (quarantineDuration level p.initialQuarantine p.maxQuarantine).toInt =
        min (p.initialQuarantine.toInt * 2 ^ (level.toInt.toNat - 1)) p.maxQuarantine.toInt ∧
      ∃ e', (run step s₀ (before ++ ops)).entry key = some e' ∧
      e.quarantineUntil ≤ e'.quarantineUntil := by
  constructor
  · unfold Policy.validate at hp
    split_ifs at hp with _ _ hpos
    exact toInt_quarantineDuration (Int64.le_iff_toInt_le.mp hlevel)
      (by rwa [Int64.le_iff_toInt_le, not_le] at hpos)
  · obtain ⟨hsound, hlimits, -⟩ := newState_sound hnew
    obtain ⟨hsound', hlimits', -⟩ := run_sound hsound before
    have hforce : InForce limits key e.lastHostileAt e.quarantineUntil (run step (run step s₀ before) ops) := by
      refine run_induct (fun s o h hok => h.step hok.1 hok.2) ?_ (hlives.and_forall hclock)
        (prefix_refl ops)
      exact ⟨hsound', hlimits'.trans hlimits, e, he, le_rfl, le_rfl⟩
    obtain ⟨e', he', -, huntil⟩ := hforce.entry
    exact ⟨e', by rw [run_append, he'], huntil⟩

theorem quarantine_escalates_probes :
    let probe (t : Time) : Op := .recordProbe (testAddr 1) t defaultCompiled.policy
    ∃ s₀ e e', newState defaultCompiled.stateLimits = .ok s₀ ∧
      (run step s₀ [probe 0]).entry (testAddr 1) = some e ∧
      (run step s₀ [probe 0, probe 1]).entry (testAddr 1) = some e' ∧
      e.quarantineUntil ≤ e'.quarantineUntil := by
  intro probe
  obtain ⟨s₀, hnew⟩ : ∃ s₀, newState defaultCompiled.stateLimits = .ok s₀ := ⟨_, rfl⟩
  obtain ⟨hsound, hlimits, -⟩ := newState_sound hnew
  have hrec : (probe 0).record = some (0, defaultCompiled.policy) := rfl
  obtain ⟨e, tr, -, he, hrecorded⟩ := record_entry hsound hrec (rfl : _ = some (testAddr 1)) rfl
  have hlast : e.lastHostileAt = 0 := hrecorded.lastHostileAt.trans (touch_found _ _ _ _).1
  have hlives : Lives (testAddr 1) (run step s₀ [probe 0]) (probe 1) := by
    refine ⟨?_, ?_⟩
    · rintro (⟨_, hclear, -⟩ | ⟨hother, -⟩)
      · cases hclear
      · exact hother rfl
    · rintro _ _ ⟨⟩ hsame
      cases he.symm.trans hsame
      rw [hlast, run_cons, run_nil, (hsound.step _).2.1, hlimits]
      decide +kernel
  obtain ⟨-, e', he', hle⟩ :=
    quarantine_escalates (p := defaultCompiled.policy) rfl (Int64.le_refl 1) hnew [probe 0]
    [probe 1] he ⟨hlives, trivial⟩ (by simp [hlast, probe, Op.timeOn, Op.time])
  exact ⟨s₀, e, e', hnew, he, he', hle⟩

end InteractiveProxy.IngressDefense
