import InteractiveProxy.TerminalFencing

/-! The two indexes of the terminal work store stay in step over every run, closed items stay as
they are, and an intent is stored once. -/
namespace InteractiveProxy.TerminalWork
open GoText GuardedRun KeyedTable List SignedWord

inductive StoreOp
  | appendIntentOutcome (r : WorkRecord) (clock : Time)
  | promotePending (cmd : PromotePendingCommand) (clock : Time)
  | claimDue (cmd : ClaimDueCommand) (order : RangeOrder (GoStr × WorkRecord)) (clock : Time)
  | renewClaim (cmd : RenewClaimCommand) (clock : Time)
  | scheduleRetry (cmd : ScheduleRetryCommand) (clock : Time)
  | complete (cmd : CompleteCommand) (clock : Time)
  | quarantine (cmd : QuarantineCommand) (clock : Time)

def StoreOp.step (s : MemoryStore) : StoreOp → MemoryStore
  | .appendIntentOutcome r clock => (s.appendIntentOutcome r clock).1
  | .promotePending cmd clock => (s.promotePending cmd clock).1
  | .claimDue cmd order clock => (s.claimDue cmd order clock).1
  | .renewClaim cmd clock => (s.renewClaim cmd clock).1
  | .scheduleRetry cmd clock => (s.scheduleRetry cmd clock).1
  | .complete cmd clock => (s.complete cmd clock).1
  | .quarantine cmd clock => (s.quarantine cmd clock).1

def WorkState.Closed (state : WorkState) : Prop := state = .completed ∨ state = .quarantined

namespace MemoryStore

variable {s s' : MemoryStore} {w : GoStr} {r old : WorkRecord}

/-- Records stand under their own work id, and the source index leads from each source key to the
record that carries it. -/
structure Integrity (s : MemoryStore) : Prop where
  keyed : s.Keyed
  index :
    ∀ key w, s.bySource.lookup key = some w ↔ (s.find w).map (s.sourceIndex ·.sourceKey) = some key

/-- A sound store with all intents of `s`, and with its closed records as they were. -/
structure Advances (s s' : MemoryStore) : Prop where
  integrity : s'.Integrity
  keeps : ∀ w r, s.find w = some r → ∃ r', s'.find w = some r' ∧ r'.toIntent = r.toIntent ∧
    (r.state.Closed → r' = r)

lemma Advances.trans {s'' : MemoryStore} (h : s.Advances s') (h' : s'.Advances s'') :
    s.Advances s'' := by
  refine ⟨h'.integrity, fun w r hr => ?_⟩
  obtain ⟨r', hr', hintent, hclosed⟩ := h.keeps w r hr
  obtain ⟨r'', hr'', hintent', hclosed'⟩ := h'.keeps w r' hr'
  refine ⟨r'', hr'', hintent'.trans hintent, fun hr => ?_⟩
  obtain rfl := hclosed hr
  exact hclosed' hr

lemma append_inserts (s : MemoryStore) (r : WorkRecord) (clock : Time) :
    (s.appendIntentOutcome r clock).2 = .ok { inserted := true } ↔
      r.validate = .ok () ∧ s.find r.workID = none ∧
      s.bySource.lookup (s.sourceIndex r.sourceKey) = none := by
  have hresolve (found incoming : WorkRecord) :
      resolveExistingOutcome found incoming ≠ .ok { inserted := true } := by
    unfold resolveExistingOutcome
    split_ifs <;> simp
  rw [appendIntentOutcome]
  cases r.validate with
  | error e => simp
  | ok _ =>
    dsimp only
    cases s.find r.workID with
    | some existing => simp [hresolve]
    | none =>
      cases s.bySource.lookup (s.sourceIndex r.sourceKey) with
      | some workID => simp [hresolve]
      | none => simp

lemma find_inserted {clock : Time}
    (h : (s.appendIntentOutcome r clock).2 = .ok { inserted := true }) :
    ∃ r', (s.appendIntentOutcome r clock).1.find r.workID = some r' ∧ r'.toIntent = r.toIntent ∧
      r'.toWorkItem = r.toWorkItem := by
  obtain ⟨hvalid, hnew, hsource⟩ := (s.append_inserts r clock).mp h
  refine ⟨{ r with
    createdAt := if r.createdAt = 0 then clock else r.createdAt
    updatedAt := if r.updatedAt = 0 then clock else r.updatedAt }, ?_, rfl, rfl⟩
  simp only [appendIntentOutcome, hvalid, hnew, hsource]
  exact (find_put _ r.workID).trans (if_pos rfl)

namespace Integrity

lemma stay (h : s.Integrity) : s.Advances s := ⟨h, fun _ r hr => ⟨r, hr, rfl, fun _ => rfl⟩⟩

lemma indexed (h : s.Integrity) (hr : s.find w = some r) :
    s.bySource.lookup (s.sourceIndex r.sourceKey) = some w :=
  (h.index _ w).mpr (by rw [hr]; rfl)

/-- Records that are open are replaced by others with their intents. -/
lemma foldl_put (h : s.Integrity) (out : List WorkRecord)
    (hout : ∀ r ∈ out, ∃ old, s.find r.workID = some old ∧ r.toIntent = old.toIntent ∧ ¬ old.state.Closed) :
    s.Advances (out.foldl MemoryStore.put s) := by
  have hfind (w : GoStr) :
      (out.foldl MemoryStore.put s).find w = s.find w ∨ ∃ old r, s.find w = some old ∧
      (out.foldl MemoryStore.put s).find w = some r ∧ r.toIntent = old.toIntent ∧
      ¬ old.state.Closed := by
    rcases find_foldl_put s out w with ⟨hsame, -⟩ | ⟨r, hr, rfl, hr'⟩
    · exact .inl hsame
    · obtain ⟨old, hold, hopen⟩ := hout r hr
      exact .inr ⟨old, r, hold, hr', hopen⟩
  obtain ⟨hid, hsource⟩ := foldlRecOn
    (motive := fun t : MemoryStore => t.storeID = s.storeID ∧ t.bySource = s.bySource) out
    MemoryStore.put ⟨rfl, rfl⟩ fun _ hs _ _ => hs
  refine ⟨⟨h.keyed.foldl_put out, fun key w => ?_⟩, fun w r hr => ?_⟩
  · rw [hsource, h.index]
    rcases hfind w with hsame | ⟨old, r, hold, hr, hintent, -⟩
    · simp [hsame, sourceIndex, hid]
    · simp [hold, hr, sourceIndex, hid, show r.sourceKey = old.sourceKey from congrArg Intent.sourceKey hintent]
  · rcases hfind w with hsame | ⟨old, r', hold, hr', hintent, hopen⟩
    · exact ⟨r, hsame.trans hr, rfl, fun _ => rfl⟩
    · cases hold.symm.trans hr
      exact ⟨r', hr', hintent, fun hclosed => absurd hclosed hopen⟩

lemma update (h : s.Integrity) {now : Time} {transition : WorkRecord → Except WorkError WorkItem}
    (hopen : ∀ r item, transition r = .ok item → ¬ r.state.Closed) :
    s.Advances (s.update w now transition).1 := by
  rcases s.update_spec w now transition with ⟨hsame, -⟩ | ⟨r, item, hr, hitem, hput⟩
  · rw [hsame]
    exact h.stay
  · rw [hput]
    refine h.foldl_put [r.applyWorkItem item now] fun r' hr' => ⟨r, ?_⟩
    obtain rfl := mem_singleton.mp hr'
    exact ⟨(h.keyed.workID hr).symm ▸ hr, rfl, hopen r item hitem⟩

lemma append (h : s.Integrity) (r : WorkRecord) (clock : Time) :
    s.Advances (s.appendIntentOutcome r clock).1 := by
  rcases s.appendIntentOutcome_spec r clock with hsame | ⟨r', hnew, hsource, hput⟩
  · rw [hsame]
    exact h.stay
  rw [hput]
  refine ⟨⟨h.keyed.put r', fun key w => ?_⟩, fun w found hfound => ⟨found, ?_, rfl, fun _ => rfl⟩⟩
  · change (s.bySource.insert _ _).lookup key = some w ↔
      ((s.put r').find w).map (s.sourceIndex ·.sourceKey) = some key
    have hindex := h.index key w
    rw [lookup_insert_eq, find_put]
    split_ifs with hkey hw hw
    · exact iff_of_true (congrArg some hw.symm) (congrArg some hkey.symm)
    · rw [hkey, hsource] at hindex
      rw [hkey, ← hindex]
      simp [Ne.symm hw]
    · rw [hw, hnew] at hindex
      rw [hw, hindex]
      simp [Ne.symm hkey]
    · exact hindex
  · refine (find_put r' w).trans ((if_neg ?_).trans hfound)
    rintro rfl
    cases hnew.symm.trans hfound

lemma claimDue (h : s.Integrity) (cmd : ClaimDueCommand) (order : RangeOrder (GoStr × WorkRecord))
    (clock : Time) : s.Advances (s.claimDue cmd order clock).1 := by
  rcases claimDue_put h.keyed cmd order clock with ⟨e, hclaim⟩ | ⟨out, hclaim, hout⟩
  · rw [hclaim]
    exact h.stay
  rw [hclaim]
  refine h.foldl_put out fun r' hr' => ?_
  obtain ⟨r, item, hr, hitem, rfl⟩ := hout r' hr'
  refine ⟨r, hr, rfl, ?_⟩
  have hclaimable := (WorkItem.claim_ok hitem).1
  rintro (hclosed | hclosed) <;> simp [WorkItem.claimable, hclosed] at hclaimable

lemma step (h : s.Integrity) (op : StoreOp) : s.Advances (op.step s) := by
  cases op with
  | appendIntentOutcome r clock => exact h.append r clock
  | claimDue cmd order clock => exact h.claimDue cmd order clock
  | promotePending cmd clock =>
    rw [StoreOp.step, MemoryStore.promotePending]
    cases s.find cmd.workID with
    | none => exact h.stay
    | some r =>
      dsimp only
      split_ifs
      · exact h.stay
      · refine h.update fun r item hitem => ?_
        rw [WorkItem.markPending] at hitem
        split_ifs at hitem with hstate
        simp_all [WorkState.Closed]
  | renewClaim cmd clock =>
    rw [StoreOp.step, MemoryStore.renewClaim]
    cases checkRenewClaim cmd with
    | error e => exact h.stay
    | ok _ =>
      refine h.update fun r item hitem => ?_
      simp [WorkState.Closed, (WorkItem.renewClaim_ok hitem).1]
  | scheduleRetry cmd clock =>
    exact h.update fun r item hitem => by simp [WorkState.Closed, (ifOwner_ok hitem).1.1]
  | complete cmd clock =>
    exact h.update fun r item hitem => by simp [WorkState.Closed, (ifOwner_ok hitem).1.1]
  | quarantine cmd clock =>
    refine h.update fun r item hitem => ?_
    rcases (WorkItem.quarantine_ok hitem).1 with hstate | hstate | hstate <;>
      simp [WorkState.Closed, hstate]

lemma run (h : s.Integrity) (ops : List StoreOp) : s.Advances (run StoreOp.step s ops) := by
  induction ops generalizing s with
  | nil => exact h.stay
  | cons op ops ih => exact (h.step op).trans (ih (h.step op).integrity)

variable {r' : WorkRecord} (h : s.Integrity) (hr : s.find w = some r)

include h hr

lemma eq_of_sourceKey {w' : GoStr} (hr' : s.find w' = some r') (hkey : r'.sourceKey = r.sourceKey) :
    w' = w :=
  Option.some.inj ((h.indexed hr').symm.trans (hkey ▸ h.indexed hr))

lemma replay (hvalid : r'.validate = .ok ()) (hintent : r'.toIntent = r.toIntent) (clock : Time) :
    s.appendIntentOutcome r' clock = (s, .ok { replay := true }) := by
  have hid : r'.workID = w := (congrArg Intent.workID hintent).trans (h.keyed.workID hr)
  simp only [appendIntentOutcome, hvalid, hid, hr]
  simp [resolveExistingOutcome, WorkRecord.sameIntentReplay, hintent]

lemma refuses (hsame : r'.workID = w ∨ r'.sourceKey = r.sourceKey)
    (hother : r'.toIntent ≠ r.toIntent) (clock : Time) :
    ∃ e, s.appendIntentOutcome r' clock = (s, .error e) := by
  have hrefused : ∀ {found incoming : WorkRecord}, found.toIntent ≠ incoming.toIntent →
      resolveExistingOutcome found incoming = .error _ := fun hne =>
    if_neg (by simpa [WorkRecord.sameIntentReplay] using hne)
  rw [appendIntentOutcome]
  cases r'.validate with
  | error e => exact ⟨_, rfl⟩
  | ok _ =>
    dsimp only
    cases hfind : s.find r'.workID with
    | some found =>
      refine ⟨_, Prod.ext rfl (hrefused fun hintent => hother ?_)⟩
      have hw : r'.workID = w := hsame.elim id fun hkey =>
        h.eq_of_sourceKey hr hfind ((congrArg Intent.sourceKey hintent).trans hkey)
      rw [hw, hr] at hfind
      exact (Option.some.inj hfind ▸ hintent).symm
    | none =>
      have hkey : r'.sourceKey = r.sourceKey :=
        hsame.resolve_left fun hw => by simp [hw, hr] at hfind
      have hindex : s.bySource.lookup (s.sourceIndex r'.sourceKey) = some w := hkey ▸ h.indexed hr
      rw [hindex]
      dsimp only
      rw [hr]
      exact ⟨_, Prod.ext rfl (hrefused hother.symm)⟩

end Integrity

end MemoryStore

open MemoryStore

/-- Over every run of the store's operations: no two records share a source key, the source index
and the records lead to each other, a valid intent is inserted and found from then on when its work
id and source key are new, closed records stay as they are, and an intent that is there is replayed,
or refused to another one under its work id or source key, with the store as it was. -/
theorem work_store_integrity (storeID : GoStr) (ops : List StoreOp) :
    let s := run StoreOp.step { storeID } ops
    (∀ w w' r r', s.find w = some r → s.find w' = some r' → r.sourceKey = r'.sourceKey → w = w') ∧
    (∀ key w, s.bySource.lookup key = some w → ∃ r, s.find w = some r ∧ r.workID = w ∧
      key = s.sourceIndex r.sourceKey) ∧
    (∀ r clock, ((s.appendIntentOutcome r clock).2 = .ok { inserted := true } ↔
        r.validate = .ok () ∧ s.find r.workID = none ∧
        s.bySource.lookup (s.sourceIndex r.sourceKey) = none) ∧
      ((s.appendIntentOutcome r clock).2 = .ok { inserted := true } →
        ∃ r', (s.appendIntentOutcome r clock).1.find r.workID = some r' ∧ r'.toIntent = r.toIntent ∧
          r'.toWorkItem = r.toWorkItem)) ∧
    ∀ w r, s.find w = some r →
      s.bySource.lookup (s.sourceIndex r.sourceKey) = some w ∧
      (r.state.Closed → ∀ later, (run StoreOp.step s later).find w = some r) ∧
      (∀ r' clock later, r'.validate = .ok () → r'.toIntent = r.toIntent →
        (run StoreOp.step s later).appendIntentOutcome r' clock =
        (run StoreOp.step s later, .ok { replay := true })) ∧
      ∀ r' clock, r'.workID = w ∨ r'.sourceKey = r.sourceKey → r'.toIntent ≠ r.toIntent →
        ∃ e, s.appendIntentOutcome r' clock = (s, .error e) := by
  have hempty : Integrity { storeID } := by
    refine ⟨fun _ _ hlookup => ?_, fun key w => iff_of_false ?_ ?_⟩ <;> simp_all [find]
  have h := (hempty.run ops).integrity
  refine ⟨fun w w' r r' hr hr' hkey => h.eq_of_sourceKey hr' hr hkey, fun key w hkey => ?_,
    fun r clock => ⟨append_inserts _ r clock, find_inserted⟩, fun w r hr => ?_⟩
  · obtain ⟨r, hr, hindex⟩ := Option.map_eq_some_iff.mp ((h.index key w).mp hkey)
    exact ⟨r, hr, h.keyed.workID hr, hindex.symm⟩
  · refine ⟨h.indexed hr, fun hclosed later => ?_, fun r' clock later hvalid hintent => ?_, fun r' clock hsame hother =>
      h.refuses hr hsame hother clock⟩
    · obtain ⟨r', hr', -, hstays⟩ := (h.run later).keeps w r hr
      rw [hr', hstays hclosed]
    · obtain ⟨r', hr', hkept, -⟩ := (h.run later).keeps w r hr
      exact (h.run later).integrity.replay hr' hvalid (hintent.trans hkept.symm) clock

/-- An intent is stored, and then comes again and comes with another payload version. -/
theorem work_store_integrity_pair :
    let s := run StoreOp.step { storeID := lit "s" } [.appendIntentOutcome pairIntent unixEpoch]
    s.appendIntentOutcome pairIntent unixEpoch = (s, .ok { replay := true }) ∧
      ∃ e, s.appendIntentOutcome { pairIntent with payloadVersion := 2 } unixEpoch =
      (s, .error e) := by
  intro s
  have hvalid : pairIntent.validate = .ok () := eq_ok_of_isOk (by decide +kernel)
  obtain ⟨-, -, hinserts, -⟩ := work_store_integrity (lit "s") []
  obtain ⟨r, hr, hintent, -⟩ :=
    (hinserts pairIntent unixEpoch).2 ((hinserts pairIntent unixEpoch).1.mpr ⟨hvalid, rfl, rfl⟩)
  obtain ⟨-, -, -, hstored⟩ :=
    work_store_integrity (lit "s") [.appendIntentOutcome pairIntent unixEpoch]
  obtain ⟨-, -, hreplay, hrefuse⟩ := hstored _ r hr
  refine ⟨hreplay pairIntent unixEpoch [] hvalid hintent.symm, hrefuse _ unixEpoch (.inl rfl) ?_⟩
  rw [hintent]
  decide

end InteractiveProxy.TerminalWork
