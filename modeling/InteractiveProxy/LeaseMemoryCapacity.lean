import InteractiveProxy.GuardedRun
import InteractiveProxy.LeaseMemoryStore

/-! How many leases of one rule and dimension key are live at once, and what an acquisition answers.
A replay is decided by the state that a lease keeps for its set, while a single release only changes
the state of the lease itself. -/
namespace InteractiveProxy.Concurrency

open GoText KeyedTable SignedWord Attribution GuardedRun List

section Capacity

variable (key : Dimensions → GoStr) (ruleID dimKey : GoStr)

def AcquireSetCommand.StrictLimit (limit : ℕ) (cmd : AcquireSetCommand) : Prop :=
  ∀ m ∈ cmd.members, m.ruleID = ruleID → key m.dimensions = dimKey → m.limit = limit ∧
    m.mode ≠ .advisory
  deriving Decidable

/-- A lease that will count against the rule is proposed by a member that is checked against it, as
the admission service builds its members. -/
def AcquireSetCommand.Aligned (cmd : AcquireSetCommand) : Prop :=
  ∀ m ∈ cmd.members, (cmd.grant m).under key ruleID dimKey → m.ruleID = ruleID ∧
    key m.dimensions = dimKey
  deriving Decidable

def AcquireSetCommand.ReplacesOwn (s : MemoryStore) (cmd : AcquireSetCommand) : Prop :=
  ∀ e ∈ s.leases.entries, e.2.under key ruleID dimKey → e.2.isLive cmd.now →
    trimSpace e.1 ∈ cmd.selfIDs → ∃ l ∈ cmd.stored, l.leaseID = e.1
  deriving Decidable

/-- Every lease of the set that counts against the rule is live at `now`. -/
def LeaseSet.LiveUnder (now : Time) (set : LeaseSet) : Prop :=
  ∀ m ∈ set.members, m.under key ruleID dimKey → m.isLive now
  deriving Decidable

def MemoryCall.StrictLimit (limit : ℕ) : MemoryCall → Prop
  | .acquireSet _ cmd => cmd.StrictLimit key ruleID dimKey limit
  | _ => True

/-- What a call has to meet in the state in which it is made: an acquisition is aligned and, unless
it replays, overwrites what it leaves out of the count; a renewal, or a mark, of a set that the
store would carry out finds the leases of the set live. -/
def CapacitySafe (s : MemoryStore) : MemoryCall → Prop
  | .acquireSet order cmd =>
    cmd.Aligned key ruleID dimKey ∧
      ((∀ set ∈ s.loadSet order cmd.setID, set.occupiesCapacity cmd.now = false) → cmd.ReplacesOwn key ruleID dimKey s)
  | .renewSet order cmd =>
    ∀ set ∈ s.loadSet order cmd.setID, set.state ≠ .released → set.state ≠ .failed →
      set.generation = cmd.expectedGeneration → set.LiveUnder key ruleID dimKey cmd.now
  | .releaseSet _ _ | .release _ => True
  | .markSetUncertain order setID now =>
    ∀ set ∈ s.loadSet order setID, set.state ≠ .released → set.state ≠ .failed →
      set.LiveUnder key ruleID dimKey now

instance (limit : ℕ) (c : MemoryCall) : Decidable (c.StrictLimit key ruleID dimKey limit) :=
  match c with
  | .acquireSet _ cmd => inferInstanceAs (Decidable (cmd.StrictLimit key ruleID dimKey limit))
  | .renewSet _ _ | .releaseSet _ _ | .release _ | .markSetUncertain _ _ _ => isTrue trivial

instance (s : MemoryStore) (c : MemoryCall) : Decidable (CapacitySafe key ruleID dimKey s c) :=
  match c with
  | .acquireSet _ _ => inferInstanceAs (Decidable (_ ∧ _))
  | .renewSet _ _ => inferInstanceAs (Decidable (∀ _ ∈ _, _))
  | .releaseSet _ _ | .release _ => isTrue trivial
  | .markSetUncertain _ _ _ => inferInstanceAs (Decidable (∀ _ ∈ _, _))

end Capacity

variable {cmd : AcquireSetCommand}

lemma AcquireSetCommand.memberFor_spec {id : GoStr} (h : id ∈ cmd.lockOrder) :
    cmd.memberFor id ∈ cmd.members ∧ trimSpace (cmd.memberFor id).ruleID = id := by
  obtain ⟨m, hm, htrim⟩ := mem_map.mp (mem_sortedRuleIDs.mp h)
  cases hfind : cmd.members.find? fun m => trimSpace m.ruleID == id with
  | none =>
    have hno := find?_eq_none.mp hfind m hm
    simp [htrim] at hno
  | some found =>
    have hmem := mem_of_find?_eq_some hfind
    have htest := find?_some hfind
    simp only [memberFor, hfind]
    exact ⟨hmem, by simpa using htest⟩

lemma AcquireSetCommand.mem_stored {l : Lease} (h : l ∈ cmd.stored) :
    ∃ id ∈ cmd.lockOrder, l = cmd.grant (cmd.memberFor id) := by
  have hmem := (takeWhile_sublist _).subset h
  obtain ⟨id, hid, rfl⟩ := mem_map.mp hmem
  exact ⟨id, hid, rfl⟩

variable {key : Dimensions → GoStr} {ruleID dimKey : GoStr}

lemma AcquireSetCommand.stored_under_unique (haligned : cmd.Aligned key ruleID dimKey)
    {l l' : Lease} (hl : l ∈ cmd.stored) (hl' : l' ∈ cmd.stored) (hu : l.under key ruleID dimKey)
    (hu' : l'.under key ruleID dimKey) : l = l' := by
  obtain ⟨id, hid, rfl⟩ := mem_stored hl
  obtain ⟨id', hid', rfl⟩ := mem_stored hl'
  obtain ⟨hmem, htrim⟩ := memberFor_spec hid
  obtain ⟨hmem', htrim'⟩ := memberFor_spec hid'
  have hrule := (haligned _ hmem hu).1
  have hrule' := (haligned _ hmem' hu').1
  have hsame : id = id' := by rw [← htrim, ← htrim', hrule, hrule']
  rw [hsame]

namespace MemoryStore

variable {s : MemoryStore} {limit : ℕ}

lemma countLive_putAll_le {ls : List Lease} {t : Time}
    (h : ∀ l' ∈ ls, l'.under key ruleID dimKey → l'.isLive t →
      ∃ l, s.leases.lookup l'.leaseID = some l ∧ l.under key ruleID dimKey ∧ l.isLive t) :
    (s.putAll ls).countLive key ruleID dimKey t ≤ s.countLive key ruleID dimKey t := by
  apply count_le_of_subset
  intro id l' hl' hcount
  obtain ⟨hunder, hlive⟩ := Bool.and_eq_true_iff.mp hcount
  rcases lookup_putAll hl' with ⟨hmem, rfl⟩ | ⟨-, hold⟩
  · obtain ⟨l, hl, hu, hlv⟩ := h l' hmem hunder hlive
    exact ⟨l, hl, by simp [hu, hlv]⟩
  · exact ⟨l', hold, hcount⟩

lemma countLive_reclaimed_le {s' : MemoryStore} {now t : Time} (h : Reclaimed now s s') :
    s'.countLive key ruleID dimKey t ≤ s.countLive key ruleID dimKey t :=
  countRows_reclaimed h fun _ hcount => (Bool.and_eq_true_iff.mp hcount).2

lemma countLive_antitone (s : MemoryStore) {t t' : Time} (ht : t ≤ t') :
    s.countLive key ruleID dimKey t' ≤ s.countLive key ruleID dimKey t := by
  apply count_le_of_subset
  intro id l hl hcount
  obtain ⟨hunder, hlive⟩ := Bool.and_eq_true_iff.mp hcount
  exact ⟨l, hl, by simp [hunder, Lease.isLive_antitone ht hlive]⟩

lemma countLive_granted_le {checked : MemoryStore} (hreclaimed : Reclaimed cmd.now s checked)
    (hroom : ∀ id ∈ cmd.lockOrder, (cmd.memberFor id).mode ≠ .advisory →
      checked.countLiveExcluding key (cmd.memberFor id).ruleID (key (cmd.memberFor id).dimensions) cmd.now cmd.selfIDs <
        (cmd.memberFor id).limit)
    (haligned : cmd.Aligned key ruleID dimKey) (hown : cmd.ReplacesOwn key ruleID dimKey s)
    (hstrict : cmd.StrictLimit key ruleID dimKey limit)
    (hs : s.countLive key ruleID dimKey cmd.now ≤ limit) :
    (checked.putAll cmd.stored).countLive key ruleID dimKey cmd.now ≤ limit := by
  by_cases hadds : ∃ l ∈ cmd.stored, l.under key ruleID dimKey
  · obtain ⟨added, hadded, hunder⟩ := hadds
    obtain ⟨id, hid, hgrant⟩ := AcquireSetCommand.mem_stored hadded
    obtain ⟨hmem, -⟩ := AcquireSetCommand.memberFor_spec hid
    obtain ⟨hrule, hdim⟩ := haligned _ hmem (hgrant ▸ hunder)
    obtain ⟨hlimit, hmode⟩ := hstrict _ hmem hrule hdim
    have hfree := hroom id hid hmode
    rw [hrule, hdim] at hfree
    have hsucc : (checked.putAll cmd.stored).countLive key ruleID dimKey cmd.now ≤
        checked.countLiveExcluding key ruleID dimKey cmd.now cmd.selfIDs + 1 := by
      apply count_le_succ added.leaseID
      intro k l hk hl hcount
      obtain ⟨hu, hlive⟩ := Bool.and_eq_true_iff.mp hcount
      rcases lookup_putAll hl with ⟨hstored, rfl⟩ | ⟨hnew, hold⟩
      · exact absurd (congrArg Lease.leaseID
          (AcquireSetCommand.stored_under_unique haligned hstored hadded hu hunder)) hk
      -- an old lease that is still there was not overwritten, so the check did count it
      obtain ⟨before, hbefore, hstep⟩ := hreclaimed k l hold
      obtain rfl : l = before := hstep.eq_of_live hlive
      have hcounted : trimSpace l.leaseID ∉ cmd.selfIDs := by
        rw [s.keyed k l hbefore]
        intro hself
        obtain ⟨m, hm, hmk⟩ := hown ⟨k, l⟩ (mem_entries_of_lookup hbefore) hu hlive hself
        exact hnew m hm hmk
      exact ⟨l, hold, by simp [hu, hlive, hcounted]⟩
    omega
  · refine (countLive_putAll_le ?_).trans ((countLive_reclaimed_le hreclaimed).trans hs)
    intro l' hmem hunder
    exact absurd ⟨l', hmem, hunder⟩ hadds

lemma step_countLive_le {c : MemoryCall} (hs : s.countLive key ruleID dimKey c.now ≤ limit)
    (hstrict : c.StrictLimit key ruleID dimKey limit) (hsafe : CapacitySafe key ruleID dimKey s c) :
    (s.step key c).countLive key ruleID dimKey c.now ≤ limit := by
  cases c with
  | acquireSet order cmd =>
    have heffect := s.acquireSet_effect key order cmd
    simp only [step] at hs ⊢
    generalize (s.acquireSet key order cmd).1 = after at heffect
    generalize (s.acquireSet key order cmd).2 = answer at heffect
    cases heffect with
    | refused e => exact hs
    | replayed result hload hoccupies => exact hs
    | denied _ result hreclaimed hexceeded => exact (countLive_reclaimed_le hreclaimed).trans hs
    | granted checked _ hreclaimed hroom htiming hfresh hanswer =>
      exact countLive_granted_le hreclaimed hroom hsafe.1 (hsafe.2 hfresh) hstrict hs
  | renewSet order cmd =>
    simp only [step]
    refine s.renewSet_effect order hs cmd
      fun set hload hreleased hfailed hgen => (countLive_putAll_le ?_).trans hs
    rintro l' hl' hunder -
    obtain ⟨m, hm, rfl⟩ := mem_map.mp hl'
    exact ⟨m, (((loadSet_some hload).2 m).mp hm).2, hunder, hsafe set hload hreleased hfailed hgen m hm hunder⟩
  | releaseSet order cmd =>
    simp only [step]
    refine s.releaseSet_effect order hs cmd fun set _ => (countLive_putAll_le ?_).trans hs
    intro l' hl' _ hlive
    obtain ⟨m, -, rfl⟩ := mem_map.mp hl'
    rw [Lease.not_live_of_released (m.releaseInSet_state cmd.now)] at hlive
    cases hlive
  | release cmd =>
    simp only [step]
    refine s.release_effect hs cmd fun l _ => (countLive_putAll_le ?_).trans hs
    intro l' hl' _ hlive
    rw [mem_singleton.mp hl', Lease.not_live_of_released (l.release_state cmd.now)] at hlive
    cases hlive
  | markSetUncertain order setID now =>
    simp only [step]
    refine s.markSetUncertain_effect order hs setID now fun set hload hreleased hfailed =>
      (countLive_putAll_le ?_).trans hs
    rintro l' hl' hunder -
    obtain ⟨m, hm, rfl⟩ := mem_map.mp hl'
    exact ⟨m, (((loadSet_some hload).2 m).mp hm).2, hunder, hsafe set hload hreleased hfailed m hm hunder⟩

end MemoryStore

/-- At every instant of a run whose calls carry non-decreasing instants, at most `limit` leases of
the rule and dimension key are live. -/
theorem live_leases_within_limit (key : Dimensions → GoStr) (ruleID dimKey : GoStr)
    (limit : ℕ) (calls : List MemoryCall) (hmono : calls.Pairwise fun c c' => c.now ≤ c'.now)
    (hstrict : ∀ c ∈ calls, c.StrictLimit key ruleID dimKey limit)
    (hsafe : Meets (MemoryStore.step key) (CapacitySafe key ruleID dimKey) .empty calls)
    (done : List MemoryCall) (hdone : done <+: calls) (t : Time) (ht : ∀ c ∈ done, c.now ≤ t) :
    (run (MemoryStore.step key) .empty done).countLive key ruleID dimKey t ≤ limit := by
  refine timed_run (fun t s => MemoryStore.countLive key s ruleID dimKey t ≤ limit) ?_ ?_ ?_ hmono
    (hsafe.and_forall hstrict) hdone ht
  · intro t t' s hle hs
    exact (s.countLive_antitone hle).trans hs
  · intro s c hs hc
    exact MemoryStore.step_countLive_le hs hc.2 hc.1
  · intro t
    exact Nat.zero_le limit

def oneSlotMember (leaseID : String) : AcquireSetMember where
  lease := { leaseID := lit leaseID, ruleID := lit "rule" }
  ruleID := lit "rule"
  limit := 1

def acquireOneSlot (setID leaseID : String) (now : Time) : MemoryCall :=
  .acquireSet .tableOrder
    { setID := lit setID, requestID := lit setID, members := [oneSlotMember leaseID], ttl := 60,
      renewBefore := 20, now := now }

def renewOneSlot (setID : String) (generation : Int64) (now : Time) : MemoryCall :=
  .renewSet .tableOrder
    { setID := lit setID, requestID := lit setID, expectedGeneration := generation, ttl := 60,
      renewBefore := 20, now := now }

def releaseOneSlot (setID : String) (now : Time) : MemoryCall :=
  .releaseSet .tableOrder { setID := lit setID, requestID := lit setID, reason := lit "done", now := now }

def takeTurns : List MemoryCall :=
  [acquireOneSlot "first" "a" 1000, renewOneSlot "first" 1 1040, acquireOneSlot "second" "b" 1050,
    releaseOneSlot "first" 1080, acquireOneSlot "second" "b" 1090]

theorem live_leases_within_limit_turns :
    (run (MemoryStore.step unlabelledKey) .empty takeTurns).countLive unlabelledKey (lit "rule")
      (unlabelledKey {}) 1090 ≤ 1 :=
  live_leases_within_limit unlabelledKey (lit "rule") (unlabelledKey {}) 1 takeTurns (by decide)
    (by decide +kernel) (by decide +kernel) takeTurns (prefix_refl takeTurns) 1090 (by decide)

/-- The first lease expires, the second request takes the slot, and the renewal of the first set is
carried out all the same: two live leases under a limit of one. -/
theorem live_leases_exceed_limit_after_late_renew :
    let calls :=
    [acquireOneSlot "first" "a" 1000, acquireOneSlot "second" "b" 1100, renewOneSlot "first" 1 1110]
    (calls.Pairwise fun c c' => c.now ≤ c'.now) ∧
      (∀ c ∈ calls, c.StrictLimit unlabelledKey (lit "rule") (unlabelledKey {}) 1) ∧
      (run (MemoryStore.step unlabelledKey) .empty calls).countLive unlabelledKey (lit "rule")
        (unlabelledKey {}) 1110 = 2 := by
  decide +kernel

open Lease MemoryStore LeaseSet AcquireSetCommand

def Lease.header (l : Lease) : LeaseSet := .fromLeases l []

@[simp] lemma Lease.header_state (l : Lease) : l.header.state = l.setState := rfl

@[simp] lemma Lease.header_expiresAt (l : Lease) : l.header.expiresAt = l.expiresAt := rfl

/-- What a call has to meet in the state in which it is made: a new acquisition files a lease under
every id that the set already has in the store, and no member of a set that still occupies capacity
is released on its own. -/
def ReplaySafe (s : MemoryStore) : MemoryCall → Prop
  | .acquireSet order cmd =>
    (∀ set ∈ s.loadSet order cmd.setID, set.occupiesCapacity cmd.now = false) →
      ∀ e ∈ s.leases.entries, e.2.setID = cmd.setID → ∃ l ∈ cmd.stored, l.leaseID = e.1
  | .release cmd => ∀ l ∈ s.leases.lookup cmd.leaseID, l.header.occupiesCapacity cmd.now = false
  | .renewSet _ _ | .releaseSet _ _ | .markSetUncertain _ _ _ => True

instance (s : MemoryStore) (c : MemoryCall) : Decidable (ReplaySafe s c) :=
  match c with
  | .acquireSet _ _ => inferInstanceAs (Decidable (_ → _))
  | .release _ => inferInstanceAs (Decidable (∀ _ ∈ _, _))
  | .renewSet _ _ | .releaseSet _ _ | .markSetUncertain _ _ _ => isTrue trivial

variable {set : LeaseSet}

lemma LeaseSet.occupiesCapacity_eq_true {now : Time} :
    set.occupiesCapacity now ↔ set.state = .uncertain ∨
      expiryPassed set.expiresAt now = false ∧
      (set.state = .active ∨ set.state = .expiring ∨ set.state = .unset) := by
  unfold occupiesCapacity
  cases set.state <;> cases expiryPassed set.expiresAt now <;> simp

variable {t t' : Time}

lemma LeaseSet.occupiesCapacity_antitone (ht : t ≤ t')
    (h : set.occupiesCapacity t') : set.occupiesCapacity t := by
  rw [occupiesCapacity_eq_true] at h ⊢
  rcases h with hu | ⟨hexp, hst⟩
  · exact .inl hu
  · exact .inr ⟨not_expiryPassed_antitone ht hexp, hst⟩

def Lease.Sound (t : Time) (l : Lease) : Prop :=
  l.header.occupiesCapacity t = true → l.state = .active ∨ l.state = .expiring

variable {l : Lease}

lemma Lease.Sound.later (ht : t ≤ t') (h : l.Sound t) : l.Sound t' :=
  fun hocc => h (occupiesCapacity_antitone ht hocc)

lemma Lease.Sound.isLive (h : l.Sound t) (hocc : l.header.occupiesCapacity t) : l.isLive t := by
  have hstate := h hocc
  rw [isLive_eq_true]
  refine ⟨by rcases hstate with h | h <;> simp [h], by rcases hstate with h | h <;> simp [h], ?_⟩
  rcases occupiesCapacity_eq_true.mp hocc with hu | ⟨hexp, -⟩
  · exact .inl hu
  · refine .inr ⟨hexp, ?_⟩
    rcases hstate with h | h
    · exact .inl h
    · exact .inr (.inl h)

def Lease.Agrees (l l' : Lease) : Prop := l.setState = l'.setState ∧ l.expiresAt = l'.expiresAt

lemma Lease.Agrees.occupies {l' : Lease} (h : l.Agrees l')
    (hocc : l.header.occupiesCapacity t) : l'.header.occupiesCapacity t := by
  rw [occupiesCapacity_eq_true] at hocc ⊢
  simpa only [header_state, header_expiresAt, h.1, h.2] using hocc

structure Coherent (t : Time) (s : MemoryStore) : Prop where
  agree : ∀ id id' l l', s.leases.lookup id = some l → s.leases.lookup id' = some l' →
    l.setID = l'.setID → l.Agrees l'
  sound : ∀ id l, s.leases.lookup id = some l → l.Sound t

namespace Coherent

lemma empty (t : Time) : Coherent t .empty where
  agree := by
    intro id id' l l' h
    simp [MemoryStore.empty] at h
  sound := by
    intro id l h
    simp [MemoryStore.empty] at h

variable {s : MemoryStore}

lemma later (ht : t ≤ t') (h : Coherent t s) : Coherent t' s where
  agree := h.agree
  sound id l hl := (h.sound id l hl).later ht

lemma reclaimed {now : Time} {s' : MemoryStore} (h : Coherent now s) (hr : Reclaimed now s s') :
    Coherent now s' where
  agree := by
    intro id id' l l' hl hl' hset
    obtain ⟨a, ha, hstep⟩ := hr id l hl
    obtain ⟨a', ha', hstep'⟩ := hr id' l' hl'
    have hagree := h.agree id id' a a' ha ha'
    rcases hstep with rfl | ⟨-, -, rfl⟩ <;> rcases hstep' with rfl | ⟨-, -, rfl⟩ <;>
      exact hagree hset
  sound := by
    intro id l hl
    obtain ⟨a, ha, hstep⟩ := hr id l hl
    rcases hstep with rfl | ⟨hpassed, hset, rfl⟩
    · exact h.sound id _ ha
    intro hocc
    rcases occupiesCapacity_eq_true.mp hocc with hu | ⟨hexp, -⟩
    · exact absurd hu hset
    · simp only [header_expiresAt, hpassed] at hexp
      cases hexp

lemma putAll {ls : List Lease} (setID : GoStr) (h : Coherent t s)
    (hset : ∀ l ∈ ls, l.setID = setID) (hagree : ∀ l ∈ ls, ∀ l' ∈ ls, l.Agrees l')
    (hsound : ∀ l ∈ ls, l.Sound t)
    (hcover : ∀ id l, s.leases.lookup id = some l → l.setID = setID → ∃ m ∈ ls, m.leaseID = id) :
    Coherent t (s.putAll ls) where
  agree := by
    intro id id' l l' hl hl' hsame
    rcases lookup_putAll hl with ⟨hmem, -⟩ | ⟨hnew, hold⟩ <;>
      rcases lookup_putAll hl' with ⟨hmem', -⟩ | ⟨hnew', hold'⟩
    · exact hagree l hmem l' hmem'
    · obtain ⟨m, hm, hid⟩ := hcover id' l' hold' (hsame ▸ hset l hmem)
      exact absurd hid (hnew' m hm)
    · obtain ⟨m, hm, hid⟩ := hcover id l hold (hsame.trans (hset l' hmem'))
      exact absurd hid (hnew m hm)
    · exact h.agree id id' l l' hold hold' hsame
  sound := by
    intro id l hl
    rcases lookup_putAll hl with ⟨hmem, -⟩ | ⟨-, hold⟩
    · exact hsound l hmem
    · exact h.sound id l hold

lemma putSet {order : RangeOrder Lease} {setID : GoStr}
    {f : Lease → Lease} (h : Coherent t s) (hload : s.loadSet order setID = some set)
    (hid : ∀ m, (f m).leaseID = m.leaseID) (hset : ∀ m, (f m).setID = m.setID)
    (hagree : ∀ m m', m.Agrees m' → (f m).Agrees (f m')) (hsound : ∀ m, (f m).Sound t) :
    Coherent t (s.putAll (set.members.map f)) := by
  have hmem := (loadSet_some hload).2
  apply h.putAll setID
  · intro l hl
    obtain ⟨m, hm, rfl⟩ := mem_map.mp hl
    rw [hset, ((hmem m).mp hm).1]
  · intro l hl l' hl'
    obtain ⟨m, hm, rfl⟩ := mem_map.mp hl
    obtain ⟨m', hm', rfl⟩ := mem_map.mp hl'
    obtain ⟨hmset, hmlook⟩ := (hmem m).mp hm
    obtain ⟨hmset', hmlook'⟩ := (hmem m').mp hm'
    exact hagree m m' (h.agree _ _ m m' hmlook hmlook' (hmset.trans hmset'.symm))
  · intro l hl
    obtain ⟨m, -, rfl⟩ := mem_map.mp hl
    exact hsound m
  · intro id l hl hlset
    refine ⟨f l, mem_map_of_mem (mem_loadSet hload hl hlset), ?_⟩
    rw [hid, s.keyed id l hl]

/-- A granted set covers all that the store has under its id. -/
lemma granted {checked : MemoryStore} {cmd : AcquireSetCommand} (h : Coherent cmd.now s)
    (hreclaimed : Reclaimed cmd.now s checked)
    (hcover : ∀ e ∈ s.leases.entries, e.2.setID = cmd.setID → ∃ l ∈ cmd.stored, l.leaseID = e.1) :
    Coherent cmd.now (checked.putAll cmd.stored) := by
  apply (h.reclaimed hreclaimed).putAll cmd.setID
  · intro l hl
    obtain ⟨id, -, rfl⟩ := mem_stored hl
    rfl
  · intro l hl l' hl'
    obtain ⟨id, -, rfl⟩ := mem_stored hl
    obtain ⟨id', -, rfl⟩ := mem_stored hl'
    exact ⟨rfl, rfl⟩
  · intro l hl _
    obtain ⟨id, -, rfl⟩ := mem_stored hl
    exact .inl rfl
  · intro id l hl hset
    obtain ⟨before, hbefore, hstep⟩ := hreclaimed id l hl
    have hsame : before.setID = cmd.setID := by
      rcases hstep with rfl | ⟨-, -, rfl⟩ <;> exact hset
    exact hcover ⟨id, before⟩ (mem_entries_of_lookup hbefore) hsame

/-- A single release of a lease whose set no longer occupies capacity. -/
lemma release {id : GoStr} (h : Coherent t s)
    (hl : s.leases.lookup id = some l) (hdead : l.header.occupiesCapacity t = false) :
    Coherent t (s.putAll [l.release t]) := by
  have hkeep : (l.release t).setID = l.setID ∧ (l.release t).Agrees l := by
    unfold Lease.release
    split_ifs <;> exact ⟨rfl, rfl, rfl⟩
  have hback : ∀ id' l', (s.putAll [l.release t]).leases.lookup id' = some l' →
      ∃ before, (∃ id, s.leases.lookup id = some before) ∧ l'.setID = before.setID ∧
        l'.Agrees before ∧ (l'.Sound t) := by
    intro id' l' hl'
    rcases lookup_putAll hl' with ⟨hmem, -⟩ | ⟨-, hold⟩
    · rw [mem_singleton.mp hmem]
      refine ⟨l, ⟨id, hl⟩, hkeep.1, hkeep.2, fun hocc => ?_⟩
      rw [hkeep.2.occupies hocc] at hdead
      cases hdead
    · exact ⟨l', ⟨id', hold⟩, rfl, ⟨rfl, rfl⟩, h.sound id' l' hold⟩
  constructor
  · intro id1 id2 l1 l2 hl1 hl2 hset
    obtain ⟨a, ⟨ida, ha⟩, hseta, hagreea, -⟩ := hback id1 l1 hl1
    obtain ⟨b, ⟨idb, hb⟩, hsetb, hagreeb, -⟩ := hback id2 l2 hl2
    have hab := h.agree ida idb a b ha hb (by rw [← hseta, ← hsetb, hset])
    exact ⟨by rw [hagreea.1, hab.1, hagreeb.1], by rw [hagreea.2, hab.2, hagreeb.2]⟩
  · intro id' l' hl'
    obtain ⟨-, -, -, -, hsound⟩ := hback id' l' hl'
    exact hsound

end Coherent

lemma Lease.sound_of_released (h : l.setState = .released) (t : Time) : l.Sound t := by
  intro hocc
  rw [occupiesCapacity_eq_true] at hocc
  simp [h] at hocc

lemma Lease.releaseInSet_keeps (m : Lease) (now : Time) :
    (m.releaseInSet now).leaseID = m.leaseID ∧ (m.releaseInSet now).setID = m.setID ∧
      (m.releaseInSet now).expiresAt = m.expiresAt := by
  unfold releaseInSet release
  split_ifs <;> exact ⟨rfl, rfl, rfl⟩

lemma MemoryStore.step_coherent {key : Dimensions → GoStr} {s : MemoryStore} {c : MemoryCall}
    (hs : Coherent c.now s) (hsafe : ReplaySafe s c) : Coherent c.now (s.step key c) := by
  cases c with
  | acquireSet order cmd =>
    have heffect := s.acquireSet_effect key order cmd
    simp only [step]
    generalize (s.acquireSet key order cmd).1 = after at heffect ⊢
    generalize (s.acquireSet key order cmd).2 = answer at heffect
    cases heffect with
    | refused e => exact hs
    | replayed result hload hoccupies => exact hs
    | denied _ result hreclaimed hexceeded => exact hs.reclaimed hreclaimed
    | granted checked _ hreclaimed hroom htiming hfresh hanswer =>
      exact hs.granted hreclaimed (hsafe hfresh)
  | renewSet order cmd =>
    simp only [step]
    refine s.renewSet_effect order hs cmd fun set hload _ _ _ => ?_
    exact hs.putSet hload (fun _ => rfl) (fun _ => rfl) (fun _ _ _ => ⟨rfl, rfl⟩)
      (fun _ _ => .inl rfl)
  | releaseSet order cmd =>
    simp only [step]
    refine s.releaseSet_effect order hs cmd fun set hload => ?_
    refine hs.putSet hload (fun m => (m.releaseInSet_keeps cmd.now).1)
      (fun m => (m.releaseInSet_keeps cmd.now).2.1) ?_ (fun m => sound_of_released rfl _)
    intro m m' hagree
    refine ⟨rfl, ?_⟩
    rw [(m.releaseInSet_keeps cmd.now).2.2, (m'.releaseInSet_keeps cmd.now).2.2]
    exact hagree.2
  | release cmd =>
    simp only [step]
    exact s.release_effect hs cmd fun l hl => hs.release hl (hsafe l hl)
  | markSetUncertain order setID now =>
    simp only [step]
    refine s.markSetUncertain_effect order hs setID now fun set hload _ _ => ?_
    exact hs.putSet hload (fun _ => rfl) (fun _ => rfl) (fun _ _ h => ⟨rfl, h.2⟩)
      (fun _ _ => .inr rfl)

def AnswersLive (now : Time) (answer : Except LeaseError AcquireSetResult) : Prop :=
  Holds answer fun result => result.capacityExceeded = false →
    ∀ m ∈ result.set.members, m.isLive now
  deriving Decidable

lemma Coherent.answersLive {s : MemoryStore} {cmd : AcquireSetCommand} (h : Coherent cmd.now s)
    (key : Dimensions → GoStr) (order : RangeOrder Lease) :
    AnswersLive cmd.now (s.acquireSet key order cmd).2 := by
  have heffect := s.acquireSet_effect key order cmd
  generalize (s.acquireSet key order cmd).1 = after at heffect
  generalize (s.acquireSet key order cmd).2 = answer at heffect ⊢
  cases heffect with
  | refused e => trivial
  | replayed result hload hoccupies =>
    obtain ⟨⟨first, hfirst, hheader⟩, hmem⟩ := loadSet_some hload
    intro _ m hm
    obtain ⟨hset, hlook⟩ := (hmem m).mp hm
    obtain ⟨hset', hlook'⟩ := (hmem first).mp hfirst
    have hagree := h.agree _ _ first m hlook' hlook (hset'.trans hset.symm)
    rw [hheader] at hoccupies
    exact (h.sound _ m hlook).isLive (hagree.occupies hoccupies)
  | denied _ result hreclaimed hexceeded =>
    intro hgranted
    rw [hexceeded] at hgranted
    cases hgranted
  | granted checked _ hreclaimed hroom htiming hfresh hanswer =>
    cases answer with
    | error e => trivial
    | ok result =>
      intro _ m hm
      rw [hanswer result rfl] at hm
      obtain ⟨id, -, rfl⟩ := mem_stored hm
      exact cmd.grant_isLive _ htiming

/-- Every acquisition of a run that succeeds, by a new set or by a replay, answers with members that
are live at the instant of the call. -/
theorem acquired_members_live (key : Dimensions → GoStr) (calls : List MemoryCall)
    (hmono : calls.Pairwise fun c c' => c.now ≤ c'.now)
    (hsafe : Meets (MemoryStore.step key) ReplaySafe .empty calls) (done : List MemoryCall)
    (order : RangeOrder Lease) (cmd : AcquireSetCommand)
    (hdone : done ++ [.acquireSet order cmd] <+: calls) :
    AnswersLive cmd.now ((run (MemoryStore.step key) .empty done).acquireSet key order cmd).2 := by
  have hbefore : ∀ c ∈ done, c.now ≤ cmd.now := by
    intro c hc
    have hpair := hmono.sublist hdone.sublist
    exact (pairwise_append.mp hpair).2.2 c hc _ mem_cons_self
  have hcoherent : Coherent cmd.now (run (step key) .empty done) :=
    timed_run Coherent (fun _ _ _ => Coherent.later) (fun _ _ => step_coherent) Coherent.empty hmono
      hsafe ((prefix_append done _).trans hdone) hbefore
  exact hcoherent.answersLive key order

/-- A set is acquired, replayed and renewed; its lease is released on its own only after it expired,
and the set is then acquired afresh. -/
theorem acquired_members_live_late_release :
    AnswersLive 1300 ((run (MemoryStore.step unlabelledKey) .empty
      [acquireOneSlot "first" "a" 1000, acquireOneSlot "first" "a" 1010, renewOneSlot "first" 1 1020,
        .release ⟨lit "a", lit "first", lit "admit_deny_rollback", 1200⟩]).acquireSet unlabelledKey .tableOrder
      { setID := lit "first", requestID := lit "first", members := [oneSlotMember "a"], ttl := 60,
        renewBefore := 20, now := 1300 }).2 :=
  acquired_members_live unlabelledKey _ (by decide) (by decide +kernel) _ _ _ (prefix_refl _)

/-- The rollback of an admission releases the lease, and the retry of the same request is answered
by a replay of the set that holds nothing. -/
theorem replay_of_rolled_back_set_not_live :
    ¬ AnswersLive 1002 ((run (MemoryStore.step unlabelledKey) .empty
      [acquireOneSlot "first" "a" 1000,
        .release ⟨lit "a", lit "first", lit "admit_deny_rollback", 1001⟩]).acquireSet unlabelledKey .tableOrder
      { setID := lit "first", requestID := lit "first", members := [oneSlotMember "a"], ttl := 60,
        renewBefore := 20, now := 1002 }).2 := by
  decide +kernel

end InteractiveProxy.Concurrency
