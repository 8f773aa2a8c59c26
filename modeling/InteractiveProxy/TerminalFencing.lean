import InteractiveProxy.TerminalWork

/-! Claims on terminal work fence off the processors that have lost them, but for the one transition
that does not ask for the owner. -/
namespace InteractiveProxy.TerminalWork

open GoText GuardedRun KeyedTable SignedWord List MemoryStore TerminalWork

namespace WorkItem

variable {w item : WorkItem} {ownerID : GoStr} {ttl : Duration} {now : Time} {err : BoundedError}

lemma claim_ok (h : w.claim ownerID ttl now = .ok item) :
    w.claimable now = .ok () ∧ item.state = .claimed ∧ item.lease.ownerID = ownerID := by
  rw [claim, seq_eq_ok, seq_eq_ok] at h
  obtain ⟨-, hclaimable, hitem⟩ := h
  cases hitem
  exact ⟨hclaimable, rfl, rfl⟩

lemma heldAt_of_claimable (h : w.claimable now = .ok ()) (hstate : w.state = .claimed) :
    w.lease.heldAt now = false := by
  rw [claimable, hstate, reject_eq_ok] at h
  exact Bool.eq_false_iff.mpr h

lemma renewClaim_ok (h : w.renewClaim ownerID ttl now = .ok item) :
    w.state = .claimed ∧ w.lease.ownerID = ownerID ∧ item.lease.ownerID = ownerID := by
  rw [renewClaim, seq_eq_ok, seq_eq_ok, seq_eq_ok, seq_eq_ok] at h
  obtain ⟨-, hstate, howner, -, hitem⟩ := h
  rw [reject_eq_ok, not_not] at hstate howner
  cases hitem
  exact ⟨hstate, howner, howner⟩

lemma quarantine_ok (h : w.quarantine err = .ok item) :
    (w.state = .pending ∨ w.state = .claimed ∨ w.state = .retry) ∧ item.state = .quarantined := by
  rw [quarantine] at h
  split at h
  case h_1 hstate => exact ⟨.inl hstate, Except.ok.inj h ▸ rfl⟩
  case h_2 hstate => exact ⟨.inr (.inl hstate), Except.ok.inj h ▸ rfl⟩
  case h_3 hstate => exact ⟨.inr (.inr hstate), Except.ok.inj h ▸ rfl⟩
  case h_4 => cases h

lemma quarantine_open (h : w.state = .pending ∨ w.state = .claimed ∨ w.state = .retry) :
    ∃ item, w.quarantine err = .ok item := by
  rcases h with h | h | h <;> exact ⟨_, by rw [quarantine, h]⟩

end WorkItem

namespace MemoryStore

variable {s : MemoryStore} {w : GoStr} {r : WorkRecord}

lemma storeKey_injective {w' : GoStr} (h : s.storeKey w = s.storeKey w') : w = w' :=
  cons_injective (append_cancel_left h)

def Keyed (s : MemoryStore) : Prop :=
  ∀ key r, s.byWork.lookup key = some r → key = s.storeKey r.workID

lemma Keyed.workID (h : s.Keyed) (hr : s.find w = some r) : r.workID = w :=
  (storeKey_injective (h _ r hr)).symm

lemma find_put (r : WorkRecord) (w : GoStr) :
    (s.put r).find w = if w = r.workID then some r else s.find w := by
  have hkey : (s.put r).storeKey w = s.storeKey w := rfl
  rw [find, hkey, put, lookup_insert_eq]
  by_cases hw : w = r.workID
  · rw [if_pos hw, if_pos (congrArg s.storeKey hw)]
  · rw [if_neg hw, if_neg fun hsame => hw (storeKey_injective hsame)]
    rfl

lemma Keyed.put (h : s.Keyed) (r : WorkRecord) : (s.put r).Keyed := by
  intro key found hfound
  rw [MemoryStore.put, lookup_insert_eq] at hfound
  split_ifs at hfound with hkey
  · cases hfound
    exact hkey
  · exact h key found hfound

lemma update_spec (s : MemoryStore) (w : GoStr) (now : Time)
    (transition : WorkRecord → Except WorkError WorkItem) :
    ((s.update w now transition).1 = s ∧ ∀ r, s.find w = some r → ∀ item, transition r ≠ .ok item) ∨
      ∃ r item, s.find w = some r ∧ transition r = .ok item ∧
        (s.update w now transition).1 = s.put (r.applyWorkItem item now) := by
  rw [update]
  cases hr : s.find w with
  | none =>
    refine .inl ⟨rfl, fun r hnone => ?_⟩
    cases hnone
  | some r =>
    dsimp only
    cases hitem : transition r with
    | error e =>
      refine .inl ⟨rfl, ?_⟩
      rintro r' ⟨⟩ item hok
      rw [hitem] at hok
      cases hok
    | ok item => exact .inr ⟨r, item, rfl, hitem, rfl⟩

lemma update_refused {now : Time} {transition : WorkRecord → Except WorkError WorkItem}
    (h : ∀ r item, s.find w = some r → transition r ≠ .ok item) :
    (s.update w now transition).1 = s := by
  rcases s.update_spec w now transition with ⟨hsame, -⟩ | ⟨r, item, hr, hitem, -⟩
  · exact hsame
  · exact absurd hitem (h r item hr)

lemma ifOwner_ok {ownerID : GoStr} {transition : WorkItem → Except WorkError WorkItem}
    {item : WorkItem} (h : ifOwner ownerID transition r = .ok item) :
    (r.state = .claimed ∧ r.lease.ownerID = ownerID) ∧ transition r.toWorkItem = .ok item := by
  rw [ifOwner] at h
  split_ifs at h with hother
  rw [not_or, not_not, not_not] at hother
  exact ⟨hother, h⟩

/-- A batch of claims puts back the records that it returns. -/
lemma claimEach_spec (cmd : ClaimDueCommand) (now : Time) (s : MemoryStore) (room : ℕ)
    (rs : List WorkRecord) :
    (claimEach cmd now s room rs).1 = (claimEach cmd now s room rs).2.foldl put s ∧
      ∀ out ∈ (claimEach cmd now s room rs).2, ∃ r ∈ rs, ∃ item,
        r.claim cmd.ownerID cmd.ttl now = .ok item ∧ out = r.applyWorkItem item now := by
  fun_induction claimEach cmd now s room rs with
  | case1 => simp
  | case2 => simp
  | case3 s room r rest e hclaim ih =>
    refine ⟨ih.1, fun out hout => ?_⟩
    obtain ⟨r', hr', hitem⟩ := ih.2 out hout
    exact ⟨r', mem_cons_of_mem r hr', hitem⟩
  | case4 s room r rest item hclaim r' s' out' heq ih =>
    rw [heq] at ih
    refine ⟨ih.1, fun out hout => ?_⟩
    rcases mem_cons.mp hout with rfl | hout
    · exact ⟨r, mem_cons_self, item, hclaim, rfl⟩
    · obtain ⟨r', hr', hitem⟩ := ih.2 out hout
      exact ⟨r', mem_cons_of_mem r hr', hitem⟩

lemma Keyed.foldl_put (h : s.Keyed) (out : List WorkRecord) : (out.foldl MemoryStore.put s).Keyed :=
  foldlRecOn out MemoryStore.put h fun _ hs r _ => hs.put r

lemma find_foldl_put (s : MemoryStore) (out : List WorkRecord) (w : GoStr) :
    (out.foldl put s).find w = s.find w ∧ (∀ r ∈ out, r.workID ≠ w) ∨
      ∃ r ∈ out, r.workID = w ∧ (out.foldl put s).find w = some r := by
  induction out generalizing s with
  | nil => exact .inl ⟨rfl, by simp⟩
  | cons r out ih =>
    rcases ih (s.put r) with ⟨hsame, hother⟩ | ⟨r', hr', hfind⟩
    · rw [foldl_cons, hsame, find_put]
      by_cases hw : w = r.workID
      · exact .inr ⟨r, mem_cons_self, hw.symm, if_pos hw⟩
      · exact .inl ⟨if_neg hw, forall_mem_cons.mpr ⟨Ne.symm hw, hother⟩⟩
    · exact .inr ⟨r', mem_cons_of_mem r hr', hfind⟩

lemma claimDue_put (h : s.Keyed) (cmd : ClaimDueCommand) (order : RangeOrder (GoStr × WorkRecord))
    (clock : Time) : (∃ e, s.claimDue cmd order clock = (s, .error e)) ∨
      ∃ out, s.claimDue cmd order clock = (out.foldl put s, .ok out) ∧ ∀ r' ∈ out, ∃ r item,
        s.find r.workID = some r ∧ r.claim cmd.ownerID cmd.ttl (orClock cmd.now clock) = .ok item ∧
          r' = r.applyWorkItem item (orClock cmd.now clock) := by
  rw [claimDue]
  cases checkClaimDue cmd with
  | error e => exact .inl ⟨e, rfl⟩
  | ok _ =>
    obtain ⟨hput, hout⟩ := claimEach_spec cmd (orClock cmd.now clock) s _ _
    refine .inr ⟨_, Prod.ext hput rfl, fun r' hr' => ?_⟩
    obtain ⟨r, hr, item, hitem⟩ := hout r' hr'
    rw [mem_insertionSort, mem_map] at hr
    obtain ⟨⟨key, r⟩, hrow, rfl⟩ := hr
    have hlookup := lookup_of_mem_pairsIn (mem_of_mem_filter hrow)
    rw [h key r hlookup] at hlookup
    exact ⟨r, item, hlookup, hitem⟩

structure Claimed (s : MemoryStore) (ownerID : GoStr) (now : Time) (s' : MemoryStore)
    (out : List WorkRecord) : Prop where
  keyed : s'.Keyed
  find : ∀ w, s'.find w = s.find w ∨ ∃ r r', s.find w = some r ∧
    r.toWorkItem.claimable now = .ok () ∧
    s'.find w = some r' ∧ r'.state = .claimed ∧ r'.lease.ownerID = ownerID
  taken : ∀ r ∈ out, ∃ r', s'.find r.workID = some r' ∧ r'.state = .claimed ∧
    r'.lease.ownerID = ownerID

lemma claimDue_spec (h : s.Keyed) (cmd : ClaimDueCommand) (order : RangeOrder (GoStr × WorkRecord))
    (clock : Time) : (∃ e, s.claimDue cmd order clock = (s, .error e)) ∨
      ∃ s' out, s.claimDue cmd order clock = (s', .ok out) ∧
      Claimed s cmd.ownerID (orClock cmd.now clock) s' out := by
  refine (claimDue_put h cmd order clock).imp_right ?_
  rintro ⟨out, hclaim, hout⟩
  refine ⟨_, out, hclaim, h.foldl_put out, fun w => ?_, fun r hr => ?_⟩
  · rcases find_foldl_put s out w with ⟨hsame, -⟩ | ⟨r', hr', rfl, hfind⟩
    · exact .inl hsame
    · obtain ⟨r, item, hr, hitem, rfl⟩ := hout r' hr'
      obtain ⟨hclaimable, hclaimed⟩ := WorkItem.claim_ok hitem
      exact .inr ⟨r, _, hr, hclaimable, hfind, hclaimed⟩
  · rcases find_foldl_put s out r.workID with ⟨-, hnone⟩ | ⟨r', hr', -, hfind⟩
    · exact absurd rfl (hnone r hr)
    · obtain ⟨_, item, -, hitem, rfl⟩ := hout r' hr'
      exact ⟨_, hfind, (WorkItem.claim_ok hitem).2⟩

lemma appendIntentOutcome_spec (s : MemoryStore) (r : WorkRecord) (clock : Time) :
    (s.appendIntentOutcome r clock).1 = s ∨ ∃ r', s.find r'.workID = none ∧
      s.bySource.lookup (s.sourceIndex r'.sourceKey) = none ∧ (s.appendIntentOutcome r clock).1 =
        { s.put r' with bySource := s.bySource.insert (s.sourceIndex r'.sourceKey) r'.workID } := by
  rw [appendIntentOutcome]
  cases r.validate with
  | error e => exact .inl rfl
  | ok _ =>
    dsimp only
    cases hfind : s.find r.workID with
    | some existing => exact .inl rfl
    | none =>
      cases hsource : s.bySource.lookup (s.sourceIndex r.sourceKey) with
      | some workID => exact .inl rfl
      | none =>
        exact .inr ⟨{ r with
          createdAt := if r.createdAt = 0 then clock else r.createdAt
          updatedAt := if r.updatedAt = 0 then clock else r.updatedAt }, hfind, hsource, rfl⟩

end MemoryStore

variable {ι : Type} (cfg : ι → Config)

def ClaimedBy (i : ι) (r : WorkRecord) : Prop :=
  r.state = .claimed ∧ r.lease.ownerID = (cfg i).ownerID

/-- The processor holds a claim on the item that has not expired at `t`. -/
def Holds (s : System ι) (i : ι) (workID : GoStr) (t : Time) : Prop :=
  ∃ r, s.store.find workID = some r ∧ ClaimedBy cfg i r ∧ r.lease.heldAt t

def Op.acts : Op ι → Option (ι × GoStr)
  | .renewClaim i workID _ _ => some (i, workID)
  | .giveUp i workID => some (i, workID)
  | .finish i workID _ _ _ => some (i, workID)
  | _ => none

/-- A provider reports a permanent error to a processor whose claim has been taken over, and the
item is still open. A cancellation does not count when a renewal has failed before. -/
def Stray (s : System ι) : Op ι → Prop
  | .finish i workID result _ _ => ∃ v e r, s.invocation i workID = some v ∧ v.takenOver = true ∧
    result = some e ∧ e.isPermanent = true ∧ ¬ (v.renewFailed = true ∧ e.is .canceled = true) ∧
    s.store.find workID = some r ∧ (r.state = .pending ∨ r.state = .claimed ∨ r.state = .retry)
  | _ => False

lemma Invocation.outcome_permanent (v : Invocation) (result : Option InvokeError) (e : InvokeError)
    (h : e.isPermanent) :
    v.outcome result = some e ↔ result = some e ∧ ¬ (v.renewFailed ∧ e.is .canceled) := by
  have hother : some InvokeError.renewFailed ≠ some e := by
    rintro ⟨⟩
    exact absurd h (by decide)
  cases result with
  | none =>
    rw [outcome]
    split_ifs
    · exact iff_of_false hother fun hno => hno.1
    · exact iff_of_false not_false fun hno => hno.1
  | some e' =>
    rw [outcome]
    split_ifs with hfailed hcanceled
    · refine iff_of_false hother ?_
      rintro ⟨⟨⟩, hno⟩
      exact hno ⟨hfailed, hcanceled⟩
    · refine (and_iff_left_of_imp ?_).symm
      rintro ⟨⟩ hno
      exact hcanceled hno.2
    · exact (and_iff_left_of_imp fun _ hno => hfailed hno.1).symm

structure Sound (s : System ι) : Prop where
  keyed : s.store.Keyed
  present : ∀ i, ∀ v ∈ s.working i, ∃ r, s.store.find v.workID = some r
  lost : ∀ i, ∀ v ∈ s.working i, v.takenOver → ∀ r, s.store.find v.workID = some r →
    ¬ ClaimedBy cfg i r

namespace Sound

variable {cfg} {s : System ι} (h : Sound cfg s)
include h

lemma working {working : ι → List Invocation}
    (hsub : ∀ i, ∀ v' ∈ working i, ∃ v ∈ s.working i, v.workID = v'.workID ∧ v.takenOver = v'.takenOver) :
    Sound cfg { s with working } where
  keyed := h.keyed
  present i v' hv' := by
    obtain ⟨v, hv, hid, -⟩ := hsub i v' hv'
    exact hid ▸ h.present i v hv
  lost i v' hv' hover r hr := by
    obtain ⟨v, hv, hid, hsame⟩ := hsub i v' hv'
    exact h.lost i v hv (hsame.trans hover) r (hid ▸ hr)

variable {w : GoStr} {now : Time}

/-- A transition that makes nobody an owner. -/
lemma update {transition : WorkRecord → Except WorkError WorkItem}
    (hkeeps : ∀ r item, transition r = .ok item → item.state = .claimed →
      r.state = .claimed ∧ item.lease.ownerID = r.lease.ownerID) :
    Sound cfg { s with store := (s.store.update w now transition).1 } := by
  rcases s.store.update_spec w now transition with ⟨hsame, -⟩ | ⟨r, item, hr, hitem, hput⟩
  · rw [hsame]
    exact h
  rw [hput]
  refine ⟨h.keyed.put _, fun i v hv => ?_, fun i v hv hover r' hr' => ?_⟩
  · rw [find_put]
    split_ifs
    · exact ⟨_, rfl⟩
    · exact h.present i v hv
  · rw [find_put] at hr'
    split_ifs at hr' with hw
    · cases hr'
      have hid : r.workID = w := h.keyed.workID hr
      rintro ⟨hstate, howner⟩
      obtain ⟨hstate', hsame⟩ := hkeeps r item hitem hstate
      have hfind : s.store.find v.workID = some r := by
        rw [hw]
        exact hid ▸ hr
      exact h.lost i v hv hover r hfind ⟨hstate', hsame.symm.trans howner⟩
    · exact h.lost i v hv hover r' hr'

/-- An intent under a new work id. -/
lemma append (r : WorkRecord) (clock : Time) :
    Sound cfg { s with store := (s.store.appendIntentOutcome r clock).1 } := by
  rcases s.store.appendIntentOutcome_spec r clock with hsame | ⟨r', hnew, -, hput⟩
  · rw [hsame]
    exact h
  rw [hput]
  have hfind : ∀ i, ∀ v ∈ s.working i, (s.store.put r').find v.workID = s.store.find v.workID := by
    intro i v hv
    obtain ⟨old, hold⟩ := h.present i v hv
    rw [find_put, if_neg]
    intro hid
    rw [hid, hnew] at hold
    cases hold
  exact ⟨h.keyed.put r', fun i v hv => (hfind i v hv).symm ▸ h.present i v hv,
    fun i v hv hover old hold => h.lost i v hv hover old ((hfind i v hv).symm.trans hold)⟩

variable {v : Invocation} {i : ι} {r : WorkRecord}

section

variable (hv : s.invocation i w = some v) (hover : v.takenOver = true)

include hv hover

lemma not_claimedBy (hr : s.store.find w = some r) : ¬ ClaimedBy cfg i r := by
  have hfits := find?_some hv
  obtain rfl : v.workID = w := of_decide_eq_true hfits
  exact h.lost i v (mem_of_find?_eq_some hv) hover r hr

lemma renewClaim_refused (now clock : Time) :
    (s.store.renewClaim ⟨w, (cfg i).ownerID, (cfg i).claimTTL, now⟩ clock).1 = s.store := by
  rw [renewClaim]
  cases checkRenewClaim _ with
  | error e => rfl
  | ok _ =>
    refine update_refused fun r item hr hitem => ?_
    obtain ⟨hstate, howner, -⟩ := WorkItem.renewClaim_ok hitem
    exact h.not_claimedBy hv hover hr ⟨hstate, howner⟩

lemma close_refused {outcome : Option InvokeError} (now clock : Time)
    (hquarantine : ∀ e r, outcome = some e → e.isPermanent → s.store.find w = some r →
      ¬ (r.state = .pending ∨ r.state = .claimed ∨ r.state = .retry)) :
    close s.store (cfg i) w outcome now clock = s.store := by
  cases outcome with
  | none =>
    refine update_refused fun r item hr hitem => ?_
    exact h.not_claimedBy hv hover hr (ifOwner_ok hitem).1
  | some e =>
    rw [close]
    split_ifs with hpermanent
    · refine update_refused fun r item hr hitem => ?_
      exact hquarantine e r rfl hpermanent hr (WorkItem.quarantine_ok hitem).1
    · refine update_refused fun r item hr hitem => ?_
      exact h.not_claimedBy hv hover hr (ifOwner_ok hitem).1

end

lemma close_quarantines {c : Config} {e : InvokeError} (now clock : Time)
    (hpermanent : e.isPermanent)
    (hr : s.store.find w = some r)
    (hopen : r.state = .pending ∨ r.state = .claimed ∨ r.state = .retry) :
    (close s.store c w (some e) now clock).find w ≠ s.store.find w := by
  obtain ⟨item, hitem⟩ : ∃ item, r.toWorkItem.quarantine (e.bounded true) = .ok item :=
    WorkItem.quarantine_open hopen
  obtain ⟨-, hclosed⟩ := WorkItem.quarantine_ok hitem
  have hput : close s.store c w (some e) now clock =
      s.store.put (r.applyWorkItem item (orClock now clock)) := by
    rw [close, if_pos hpermanent, MemoryStore.quarantine, MemoryStore.update, hr]
    dsimp only
    rw [hitem]
  intro hsame
  have hid : w = (r.applyWorkItem item (orClock now clock)).workID := (h.keyed.workID hr).symm
  rw [hput, find_put, if_pos hid, hr] at hsame
  have hstate : item.state = r.state := congrArg (fun r : WorkRecord => r.state)
    (Option.some.inj hsame)
  rw [hclosed] at hstate
  rw [← hstate] at hopen
  simp at hopen

lemma promote (cmd : PromotePendingCommand) (clock : Time) :
    Sound cfg { s with store := (s.store.promotePending cmd clock).1 } := by
  rw [promotePending]
  cases s.store.find cmd.workID with
  | none => exact h
  | some r =>
    dsimp only
    split_ifs
    · exact h
    refine h.update fun r item hitem hclaimed => ?_
    rw [WorkItem.markPending] at hitem
    split_ifs at hitem
    cases hitem
    cases hclaimed

lemma renew (cmd : RenewClaimCommand) (clock : Time) :
    Sound cfg { s with store := (s.store.renewClaim cmd clock).1 } := by
  rw [renewClaim]
  cases checkRenewClaim cmd with
  | error e => exact h
  | ok _ =>
    refine h.update fun r item hitem _ => ?_
    obtain ⟨hstate, howner, hnew⟩ := WorkItem.renewClaim_ok hitem
    exact ⟨hstate, hnew.trans howner.symm⟩

lemma close (c : Config) (w : GoStr) (outcome : Option InvokeError) (now clock : Time) :
    Sound cfg { s with store := close s.store c w outcome now clock } := by
  cases outcome with
  | none =>
    refine h.update fun r item hitem hclaimed => ?_
    obtain ⟨-, hitem⟩ := ifOwner_ok hitem
    rw [WorkItem.complete] at hitem
    split_ifs at hitem
    cases hitem
    cases hclaimed
  | some e =>
    rw [TerminalWork.close]
    split_ifs
    · refine h.update fun r item hitem hclaimed => ?_
      rw [(WorkItem.quarantine_ok hitem).2] at hclaimed
      cases hclaimed
    · refine h.update fun r item hitem hclaimed => ?_
      obtain ⟨-, hitem⟩ := ifOwner_ok hitem
      rw [WorkItem.retry] at hitem
      split_ifs at hitem
      cases hitem
      cases hclaimed

variable [DecidableEq ι]

/-- A batch of claims: the other processors that work on its items are taken over. -/
lemma claim (hids : Function.Injective fun i => (cfg i).ownerID) {store : MemoryStore}
    {out : List WorkRecord} (hclaimed : s.store.Claimed (cfg i).ownerID now store out) :
    Sound cfg ⟨store, fun j => if j = i then out.map ({ workID := ·.workID })
      else System.supersede out (s.working j)⟩ where
  keyed := hclaimed.keyed
  present j v hv := by
    dsimp only at hv ⊢
    split_ifs at hv
    · obtain ⟨r, hr, rfl⟩ := mem_map.mp hv
      obtain ⟨r', hr', -⟩ := hclaimed.taken r hr
      exact ⟨r', hr'⟩
    · obtain ⟨v', hv', rfl⟩ := mem_map.mp hv
      obtain ⟨old, hold⟩ := h.present j v' hv'
      rcases hclaimed.find v'.workID with hsame | ⟨-, r', -, -, hr', -⟩
      · exact ⟨old, hsame.trans hold⟩
      · exact ⟨r', hr'⟩
  lost j v hv hover r hr := by
    dsimp only at hv hr
    split_ifs at hv with hj
    · obtain ⟨r', -, rfl⟩ := mem_map.mp hv
      cases hover
    obtain ⟨v', hv', rfl⟩ := mem_map.mp hv
    have hother : ∀ r', store.find v'.workID = some r' → r'.lease.ownerID = (cfg i).ownerID →
        ¬ ClaimedBy cfg j r := by
      rintro r' hr' howner ⟨-, hown⟩
      cases hr'.symm.trans hr
      exact hj (hids (hown.symm.trans howner))
    rcases Bool.or_eq_true_iff.mp hover with hover | htaken
    · rcases hclaimed.find v'.workID with hsame | ⟨-, r', -, -, hr', -, howner⟩
      · exact h.lost j v' hv' hover r (hsame.symm.trans hr)
      · exact hother r' hr' howner
    · obtain ⟨taken, htaken, hid⟩ := any_eq_true.mp htaken
      obtain ⟨r', hr', -, howner⟩ := hclaimed.taken taken htaken
      exact hother r' (of_decide_eq_true hid ▸ hr') howner

lemma setWorking (i : ι) {f : List Invocation → List Invocation}
    (hf : ∀ v' ∈ f (s.working i), ∃ v ∈ s.working i, v.workID = v'.workID ∧ v.takenOver = v'.takenOver) :
    Sound cfg { s with working := s.setWorking i f } := by
  refine h.working fun j v' hv' => ?_
  by_cases hj : j = i
  · subst hj
    rw [System.setWorking, Function.update_self] at hv'
    exact hf v' hv'
  · rw [System.setWorking, Function.update_of_ne hj] at hv'
    exact ⟨v', hv', rfl, rfl⟩

lemma drop (i : ι) (w : GoStr) : Sound cfg { s with working := s.setWorking i (System.drop w) } :=
  h.setWorking i fun v hv => ⟨v, mem_of_mem_filter hv, rfl, rfl⟩

lemma step (hids : Function.Injective fun i => (cfg i).ownerID) (op : Op ι) :
    Sound cfg (step cfg s op) := by
  cases op with
  | appendIntent r clock => exact h.append r clock
  | promotePending cmd clock => exact h.promote cmd clock
  | claimDue i now clock order =>
    rw [TerminalWork.step]
    split_ifs
    · exact h
    rcases claimDue_spec h.keyed ⟨(cfg i).ownerID, (cfg i).claimTTL, (cfg i).claimLimit, now, [], none⟩
      order clock with ⟨e, hclaim⟩ | ⟨store, out, hclaim, hclaimed⟩
    · rw [hclaim]
      exact h
    · rw [hclaim]
      exact h.claim hids hclaimed
  | renewClaim i w now clock =>
    have hstore := h.renew ⟨w, (cfg i).ownerID, (cfg i).claimTTL, now⟩ clock
    rw [TerminalWork.step]
    cases s.invocation i w with
    | none => exact h
    | some v =>
      dsimp only
      split_ifs
      · exact h
      generalize s.store.renewClaim ⟨w, (cfg i).ownerID, (cfg i).claimTTL, now⟩ clock =
        outcome at hstore
      obtain ⟨store, _ | _⟩ := outcome
      · refine hstore.setWorking i fun v' hv' => ?_
        obtain ⟨v, hv, rfl⟩ := mem_map.mp hv'
        refine ⟨v, hv, ?_⟩
        split_ifs <;> exact ⟨rfl, rfl⟩
      · exact hstore
  | giveUp i w => exact h.drop i w
  | finish i w result now clock =>
    rw [TerminalWork.step]
    cases s.invocation i w with
    | none => exact h
    | some v => exact (h.close (cfg i) w (v.outcome result) now clock).drop i w

end Sound

variable [DecidableEq ι]

def TakesLapsed (s : System ι) : Op ι → Prop
  | .claimDue i now clock order => ∀ workID j, Holds cfg s j workID (orClock now clock) →
    (step cfg s (.claimDue i now clock order)).store.find workID = s.store.find workID
  | _ => True

def FencedOff (s : System ι) (op : Op ι) : Prop :=
  ∀ i workID v, op.acts = some (i, workID) → s.invocation i workID = some v → v.takenOver →
    (step cfg s op).store.find workID = s.store.find workID

/-- At most one processor holds an unexpired claim on an item at an instant, and lost claims are
fenced off. -/
structure Fenced (s : System ι) (op : Op ι) : Prop where
  holder : ∀ workID t i j, Holds cfg s i workID t → Holds cfg s j workID t → i = j
  lapsed : TakesLapsed cfg s op
  off : FencedOff cfg s op

namespace Sound

variable {cfg} {s : System ι} (h : Sound cfg s)
include h

lemma takesLapsed (op : Op ι) : TakesLapsed cfg s op := by
  cases op with
  | claimDue i now clock order =>
    intro w j hholds
    obtain ⟨r, hr, ⟨hstate, -⟩, hheld⟩ := hholds
    rw [TerminalWork.step]
    split_ifs
    · rfl
    rcases claimDue_spec h.keyed ⟨(cfg i).ownerID, (cfg i).claimTTL, (cfg i).claimLimit, now, [], none⟩
      order clock with ⟨e, hclaim⟩ | ⟨store, out, hclaim, hclaimed⟩
    · rw [hclaim]
    rw [hclaim]
    rcases hclaimed.find w with hsame | ⟨r', -, hr', hclaimable, -⟩
    · exact hsame
    · cases hr.symm.trans hr'
      rw [WorkItem.heldAt_of_claimable hclaimable hstate] at hheld
      cases hheld
  | _ => trivial

lemma fencedOff_iff (op : Op ι) : FencedOff cfg s op ↔ ¬ Stray s op := by
  cases op with
  | appendIntent r clock => exact iff_of_true nofun not_false
  | promotePending cmd clock => exact iff_of_true nofun not_false
  | claimDue i now clock order => exact iff_of_true nofun not_false
  | giveUp i w => exact iff_of_true (fun _ _ _ _ _ _ => rfl) not_false
  | renewClaim i w now clock =>
    refine iff_of_true ?_ not_false
    rintro _ _ v ⟨⟩ hv hover
    have hrefused := h.renewClaim_refused hv hover now clock
    rw [TerminalWork.step, hv]
    dsimp only
    split_ifs
    · rfl
    · generalize s.store.renewClaim ⟨w, (cfg i).ownerID, (cfg i).claimTTL, now⟩ clock =
        outcome at hrefused
      obtain ⟨store, _ | _⟩ := outcome
      · exact congrArg (find · w) hrefused
      · exact congrArg (find · w) hrefused
  | finish i w result now clock =>
    constructor
    · rintro hoff ⟨v, e, r, hv, hover, hresult, hpermanent, hcounts, hr, hopen⟩
      have houtcome := (v.outcome_permanent result e hpermanent).mpr ⟨hresult, hcounts⟩
      have hsame := hoff i w v rfl hv hover
      rw [TerminalWork.step, hv] at hsame
      dsimp only at hsame
      rw [houtcome] at hsame
      exact h.close_quarantines now clock hpermanent hr hopen hsame
    · rintro hno _ _ v ⟨⟩ hv hover
      rw [TerminalWork.step, hv]
      dsimp only
      rw [h.close_refused hv hover now clock]
      intro e r houtcome hpermanent hr hopen
      obtain ⟨hresult, hcounts⟩ := (v.outcome_permanent result e hpermanent).mp houtcome
      exact hno ⟨v, e, r, hv, hover, hresult, hpermanent, hcounts, hr, hopen⟩

lemma fenced_iff (hids : Function.Injective fun i => (cfg i).ownerID) (op : Op ι) :
    Fenced cfg s op ↔ ¬ Stray s op := by
  constructor
  · intro hfenced
    exact (h.fencedOff_iff op).mp hfenced.off
  · intro hno
    refine ⟨?_, h.takesLapsed op, (h.fencedOff_iff op).mpr hno⟩
    rintro w t i j ⟨r, hr, ⟨-, howner⟩, -⟩ ⟨r', hr', ⟨-, howner'⟩, -⟩
    cases hr.symm.trans hr'
    exact hids (howner.symm.trans howner')

end Sound

/-- Processors with distinct owner ids are fenced off from the items that they have lost throughout
a run exactly when none of them is told of a permanent error about such an item while it is open. -/
theorem terminal_work_fenced_iff (hids : Function.Injective fun i => (cfg i).ownerID)
    (storeID : GoStr) (ops : List (Op ι)) :
    Meets (step cfg) (Fenced cfg) { store := { storeID } } ops ↔
      Meets (step cfg) (fun s op => ¬ Stray s op) { store := { storeID } } ops := by
  have hstart : Sound cfg { store := { storeID } } := by
    refine ⟨fun key r hr => ?_, nofun, nofun⟩
    cases hr
  exact meets_congr (fun s op h => h.step hids op) (fun s op h => h.fenced_iff hids op) hstart ops

def pairConfig (second : Bool) : Config where
  ownerID := if second then lit "b" else lit "a"
  claimTTL := 60000000000
  claimLimit := 1
  retrySchedule := ⟨1000000000, 2, 30000000000⟩

def pairIntent : WorkRecord :=
  { zeroRecord with
    sourceKey := ⟨1, lit "fact"⟩
    workID := lit "w"
    payloadVersion := 1
    kind := .appendFact
    state := .intent }

/-- The first processor claims an item, and the second claims it when the claim has lapsed. -/
def takeover : List (Op Bool) :=
  [.appendIntent pairIntent unixEpoch, .promotePending ⟨lit "w", unixEpoch⟩ unixEpoch,
    .claimDue false unixEpoch unixEpoch .tableOrder,
    .claimDue true (unixEpoch + 120000000000) unixEpoch .tableOrder]

theorem terminal_work_fenced_takeover : Function.Injective (fun i => (pairConfig i).ownerID) ∧
      Meets (step pairConfig) (Fenced pairConfig) { store := { storeID := lit "s" } } takeover := by
  have hids : Function.Injective (fun i => (pairConfig i).ownerID) := by
    intro i j hsame
    revert i j
    decide
  exact ⟨hids, (terminal_work_fenced_iff pairConfig hids (lit "s") takeover).mpr
    ⟨not_false, ⟨not_false, ⟨not_false, ⟨not_false, trivial⟩⟩⟩⟩⟩

def afterTakeover : System Bool :=
  run (step pairConfig) { store := { storeID := lit "s" } } takeover

/-- The provider of the first processor reports an invalid payload after the takeover: the item that
the second holds is quarantined. -/
theorem quarantine_of_lost_claim :
    afterTakeover.invocation false (lit "w") = some ⟨lit "w", false, true⟩ ∧
      (afterTakeover.store.find (lit "w")).map (fun r => (r.state, r.lease)) =
        some (.claimed, ⟨lit "b", unixEpoch + 180000000000⟩) ∧
      ((step pairConfig afterTakeover (.finish false (lit "w") (some ⟨(· = .invalidPayload)⟩)
        (unixEpoch + 121000000000) unixEpoch)).store.find (lit "w")).map (·.state) =
        some .quarantined :=
  ⟨by decide +kernel, by decide +kernel, by decide +kernel⟩

end InteractiveProxy.TerminalWork
