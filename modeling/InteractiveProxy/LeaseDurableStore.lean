import InteractiveProxy.GuardedRun
import InteractiveProxy.LeaseDomain

/-! The durable lease store: the rows of `concurrency_leases` under one store id, and each call as
the statements that it runs on them. A call is one transaction; the capacity rows that it locks only
order concurrent transactions and are left out. -/
namespace InteractiveProxy.Concurrency

open GoText KeyedTable SignedWord Attribution

/-- A row of `concurrency_leases`; the dimensions are kept decoded. -/
structure LeaseRow where
  leaseID : GoStr := []
  ruleID : GoStr := []
  ruleVersion : GoStr := []
  leaseNamespace : GoStr := []
  dimensionKey : GoStr := []
  logicalID : GoStr := []
  holderID : GoStr := []
  acquiredAtUnix : Int64 := 0
  renewedAtUnix : Int64 := 0
  expiresAtUnix : Int64 := 0
  releasedAtUnix : Int64 := 0
  generation : Int64 := 0
  state : LeaseState := .unset
  dimensions : Dimensions := {}
  identityVersion : ℤ := 0
  setID : GoStr := []
  setGeneration : Int64 := 0
  setState : LeaseSetState := .unset

def rowToLease (row : LeaseRow) : Lease :=
  let lease : Lease :=
    { leaseID := row.leaseID
      ruleID := row.ruleID
      ruleVersion := row.ruleVersion
      leaseNamespace := row.leaseNamespace
      dimensions := row.dimensions
      logicalID := row.logicalID
      holderID := row.holderID
      acquiredAt := .ofUnixNano row.acquiredAtUnix
      renewedAt := .ofUnixNano row.renewedAtUnix
      expiresAt := .ofUnixNano row.expiresAtUnix
      releasedAt := if row.releasedAtUnix ≠ 0 then .ofUnixNano row.releasedAtUnix else 0
      generation := row.generation
      state := row.state
      identityVersion := row.identityVersion
      setID := row.setID
      setGeneration := row.setGeneration
      setState := row.setState }
  -- a row from before lease sets is a set of one member
  if lease.identityVersion = 0 ∧ lease.setID = [] then
    { lease with
      identityVersion := 1
      setID := lease.leaseID
      setGeneration := lease.generation
      setState := if lease.state = .released then LeaseSetState.released else LeaseSetState.active }
  else lease

/-- The row counts against capacity, as `countLiveTx` selects it. -/
def LeaseRow.occupies (nowUnix : Int64) (r : LeaseRow) : Bool :=
  (r.state = .active || r.state = .expiring) &&
    (nowUnix < r.expiresAtUnix || r.setState = .uncertain)

structure DurableStore where
  rows : Table GoStr LeaseRow

namespace DurableStore

def empty : DurableStore := ⟨∅⟩

variable (s : DurableStore)

/-- `UPDATE concurrency_leases SET … WHERE …`. -/
def update (cond : LeaseRow → Bool) (assign : LeaseRow → LeaseRow) : DurableStore :=
  ⟨mapRows (fun r => if cond r then assign r else r) s.rows⟩

/-- `INSERT … ON CONFLICT(store_id, lease_id) DO UPDATE`. -/
def upsert (r : LeaseRow) : DurableStore := ⟨s.rows.insert r.leaseID r⟩

/-- The lease occupies capacity at an instant, given in Unix nanoseconds. -/
def occupies (s : DurableStore) (leaseID : GoStr) (nowUnix : Int64) : Bool :=
  (s.rows.lookup leaseID).any fun r => r.occupies nowUnix

def reclaimExpired (ruleID dimKey : GoStr) (nowUnix : Int64) : DurableStore :=
  s.update (fun r => r.ruleID = ruleID && r.dimensionKey = dimKey && (r.state = .active || r.state = .expiring) &&
      r.expiresAtUnix ≤ nowUnix && r.setState ≠ .uncertain)
    fun r => { r with state := .expired }

def countLiveExcluding (ruleID dimKey : GoStr) (nowUnix : Int64) (exclude : List GoStr) : ℕ :=
  countRows (fun r => r.ruleID = ruleID && r.dimensionKey = dimKey && r.occupies nowUnix &&
    !exclude.contains r.leaseID) s.rows

/-- `loadSetTx`: the members in the order of their rule ids, ties as the database returns them; the
fields of the set are those of the first. -/
def loadSet (order : RangeOrder LeaseRow) (setID : GoStr) : Option LeaseSet :=
  match ((rowsIn order s.rows).filter fun r => r.setID = setID).insertionSort fun a b => a.ruleID ≤
    b.ruleID with
  | [] => none
  | first :: rest =>
    some { LeaseSet.fromLeases (rowToLease first) ((first :: rest).map rowToLease) with setID := setID }

end DurableStore

section Store

variable (key : Dimensions → GoStr)

def leaseToRow (lease : Lease) (dimKey : GoStr) : LeaseRow where
  leaseID := lease.leaseID
  ruleID := lease.ruleID
  ruleVersion := lease.ruleVersion
  leaseNamespace := lease.leaseNamespace
  dimensionKey := if dimKey = [] then key lease.dimensions else dimKey
  logicalID := lease.logicalID
  holderID := lease.holderID
  acquiredAtUnix := lease.acquiredAt.unixNano
  renewedAtUnix := lease.renewedAt.unixNano
  expiresAtUnix := lease.expiresAt.unixNano
  releasedAtUnix := lease.releasedAt.unixNano
  generation := lease.generation
  state := lease.state
  dimensions := lease.dimensions
  identityVersion := if lease.identityVersion = 0 then 1 else lease.identityVersion
  setID := lease.setID
  setGeneration := lease.setGeneration
  setState := lease.setState

/-- `byRule`: of several members with one trimmed rule id the last stands for it. -/
def AcquireSetCommand.byRule (cmd : AcquireSetCommand) (ruleID : GoStr) : AcquireSetMember :=
  (cmd.members.reverse.find? fun m => trimSpace m.ruleID == ruleID).getD {}

def AcquireSetCommand.excludeIDs (cmd : AcquireSetCommand) : List GoStr :=
  (cmd.members.map fun m => trimSpace m.lease.leaseID).filter fun id => id ≠ []

def AcquireSetCommand.newRows (cmd : AcquireSetCommand) : List LeaseRow :=
  cmd.lockOrder.map fun ruleID =>
    leaseToRow key (cmd.grant (cmd.byRule ruleID)) (key (cmd.byRule ruleID).dimensions)

namespace DurableStore

def checkCapacity (cmd : AcquireSetCommand) (s : DurableStore) :
    List GoStr → DurableStore × Option GoStr
  | [] => (s, none)
  | ruleID :: rest =>
    let m := cmd.byRule ruleID
    let dimKey := key m.dimensions
    let reclaimed := s.reclaimExpired m.ruleID dimKey cmd.now.unixNano
    if m.limit ≤ reclaimed.countLiveExcluding m.ruleID dimKey cmd.now.unixNano cmd.excludeIDs ∧
        m.mode ≠ .advisory then
      (reclaimed, some ruleID)
    else checkCapacity cmd reclaimed rest

def acquireSet (s : DurableStore) (order : RangeOrder LeaseRow) (cmd : AcquireSetCommand) :
    DurableStore × Except LeaseError AcquireSetResult :=
  if trimSpace cmd.setID = [] ∨ cmd.members.isEmpty then (s, .error .invalidAcquireSet)
  else
    match validateTiming cmd.ttl cmd.renewBefore with
    | .error e => (s, .error e)
    | .ok () =>
      match (s.loadSet order cmd.setID).filter fun set => set.occupiesCapacity cmd.now with
      | some existing => (s, .ok { set := existing, replayed := true, lockOrder := cmd.lockOrder })
      | none =>
        match s.checkCapacity key cmd cmd.lockOrder with
        | (checked, some ruleID) =>
          (checked, .ok { capacityExceeded := true, lockOrder := cmd.lockOrder, denyingRuleID := ruleID })
        | (checked, none) =>
          let members := cmd.lockOrder.map fun ruleID => cmd.grant (cmd.byRule ruleID)
          ((cmd.newRows key).foldl upsert checked, .ok { set := cmd.acquiredSet members, lockOrder := cmd.lockOrder })

end DurableStore

/-- The rows that the update of `RenewSet` selects. -/
def RenewSetCommand.selects (cmd : RenewSetCommand) (r : LeaseRow) : Bool :=
  r.setID = cmd.setID && r.setGeneration = cmd.expectedGeneration

namespace DurableStore

/-- `RenewSet`: past the generation test on the loaded set, every row of that set and generation is
made active, whatever its state was. -/
def renewSet (s : DurableStore) (order : RangeOrder LeaseRow) (cmd : RenewSetCommand) :
    DurableStore × Except LeaseError LeaseSet :=
  match validateTiming cmd.ttl cmd.renewBefore with
  | .error e => (s, .error e)
  | .ok () =>
    match s.loadSet order cmd.setID with
    | none => (s, .error .notFound)
    | some set =>
      if set.generation ≠ cmd.expectedGeneration then (s, .error .generationMismatch)
      else
        let next := set.generation + 1
        let after := s.update cmd.selects fun r =>
          { r with
            renewedAtUnix := cmd.now.unixNano
            expiresAtUnix := (cmd.now.add cmd.ttl).unixNano
            generation := r.generation + 1
            setGeneration := next
            setState := .active
            state := .active }
        if countRows cmd.selects s.rows = 0 then (s, .error .generationMismatch)
        else (after, .ok ((after.loadSet order cmd.setID).getD {}))

def releaseSet (s : DurableStore) (order : RangeOrder LeaseRow) (cmd : ReleaseSetCommand) :
    DurableStore × Bool × LeaseSet :=
  match s.loadSet order cmd.setID with
  | none => (s, false, {})
  | some set =>
    if set.state = .released then (s, false, set)
    else
      let after := s.update (fun r => r.setID = cmd.setID) fun r =>
        { r with state := .released, setState := .released, releasedAtUnix := cmd.now.unixNano }
      (after, true, { set with state := .released, releasedAt := cmd.now })

/-- `MarkSetUncertain`: an update of every row of the set, with no test of its state. -/
def markSetUncertain (s : DurableStore) (setID : GoStr) (now : Time) : DurableStore :=
  s.update (fun r => r.setID = setID) fun r =>
    { r with setState := .uncertain, state := .expiring, renewedAtUnix := now.unixNano }

end DurableStore

inductive DurableCall
  | acquireSet (order : RangeOrder LeaseRow) (cmd : AcquireSetCommand)
  | renewSet (order : RangeOrder LeaseRow) (cmd : RenewSetCommand)
  | releaseSet (order : RangeOrder LeaseRow) (cmd : ReleaseSetCommand)
  | markSetUncertain (setID : GoStr) (now : Time)

def DurableCall.now : DurableCall → Time
  | acquireSet _ cmd => cmd.now
  | renewSet _ cmd => cmd.now
  | releaseSet _ cmd => cmd.now
  | markSetUncertain _ now => now

def DurableStore.step (s : DurableStore) : DurableCall → DurableStore
  | .acquireSet order cmd => (s.acquireSet key order cmd).1
  | .renewSet order cmd => (s.renewSet order cmd).1
  | .releaseSet order cmd => (s.releaseSet order cmd).1
  | .markSetUncertain setID now => s.markSetUncertain setID now

end Store

open GuardedRun List

variable {r : LeaseRow} {n' : Int64}

lemma LeaseRow.occupies_antitone {n : Int64} (hn : n ≤ n') (h : r.occupies n') : r.occupies n := by
  simp only [LeaseRow.occupies, Bool.and_eq_true, Bool.or_eq_true, decide_eq_true_eq] at h ⊢
  refine ⟨h.1, ?_⟩
  rcases h.2 with hlt | hu
  · rw [Int64.lt_iff_toInt_lt] at hlt ⊢
    rw [Int64.le_iff_toInt_le] at hn
    omega
  · exact .inr hu

namespace DurableStore

variable {s : DurableStore} {id : GoStr} {n : Int64}

lemma occupies_eq_false :
    s.occupies id n = false ↔ ∀ r, s.rows.lookup id = some r → r.occupies n = false := by
  unfold occupies
  cases s.rows.lookup id with
  | none => simp
  | some r => simp

lemma occupies_later (hn : n ≤ n') (h : s.occupies id n = false) : s.occupies id n' = false := by
  rw [occupies_eq_false] at h ⊢
  intro r hr
  by_contra hne
  have hocc := LeaseRow.occupies_antitone hn (Bool.eq_true_of_not_eq_false hne)
  rw [h r hr] at hocc
  cases hocc

lemma occupies_update {cond : LeaseRow → Bool} {assign : LeaseRow → LeaseRow}
    (h : s.occupies id n = false)
    (hsel : ∀ r, s.rows.lookup id = some r → cond r → (assign r).occupies n = false) :
    (s.update cond assign).occupies id n = false := by
  rw [occupies_eq_false] at h ⊢
  intro r' hr'
  simp only [update, lookup_mapRows, Option.map_eq_some_iff] at hr'
  obtain ⟨r, hr, rfl⟩ := hr'
  split_ifs with hcond
  · exact hsel r hr hcond
  · exact h r hr

lemma occupies_upserts {rows : List LeaseRow} (h : s.occupies id n = false)
    (hid : ∀ r ∈ rows, r.leaseID ≠ id) : (rows.foldl upsert s).occupies id n = false := by
  induction rows generalizing s with
  | nil => exact h
  | cons r rows ih =>
    refine ih ?_ fun r' hr' => hid r' (mem_cons_of_mem r hr')
    have hne : id ≠ r.leaseID := fun heq => hid r mem_cons_self heq.symm
    simpa only [occupies, upsert, AList.lookup_insert_ne hne] using h

lemma occupies_checkCapacity (key : Dimensions → GoStr) (cmd : AcquireSetCommand)
    (h : s.occupies id n = false) (ruleIDs : List GoStr) :
    (s.checkCapacity key cmd ruleIDs).1.occupies id n = false := by
  induction ruleIDs generalizing s with
  | nil => exact h
  | cons ruleID rest ih =>
    have hreclaimed :
        (s.reclaimExpired (cmd.byRule ruleID).ruleID (key (cmd.byRule ruleID).dimensions)
        cmd.now.unixNano).occupies id n = false :=
      occupies_update h fun r _ _ => by simp [LeaseRow.occupies]
    simp only [checkCapacity]
    split_ifs
    · exact hreclaimed
    · exact ih hreclaimed

end DurableStore

def DurableCall.Proposes (id : GoStr) : DurableCall → Prop
  | .acquireSet _ cmd => ∃ m ∈ cmd.members, m.lease.leaseID = id
  | _ => False

/-- What a call has to meet in the state in which it is made: every row that a renewal or a mark
would rewrite still occupies capacity. -/
def SelectsOccupying (s : DurableStore) : DurableCall → Prop
  | .renewSet order cmd =>
    ∀ set ∈ s.loadSet order cmd.setID, set.generation = cmd.expectedGeneration →
      ∀ e ∈ s.rows.entries, cmd.selects e.2 = true → e.2.occupies cmd.now.unixNano = true
  | .markSetUncertain setID now =>
    ∀ e ∈ s.rows.entries, e.2.setID = setID → e.2.occupies now.unixNano = true
  | .acquireSet _ _ | .releaseSet _ _ => True

instance (id : GoStr) (c : DurableCall) : Decidable (c.Proposes id) :=
  match c with
  | .acquireSet _ _ => inferInstanceAs (Decidable (∃ _ ∈ _, _))
  | .renewSet _ _ | .releaseSet _ _ | .markSetUncertain _ _ => isFalse not_false

instance (s : DurableStore) (c : DurableCall) : Decidable (SelectsOccupying s c) :=
  match c with
  | .renewSet _ _ => inferInstanceAs (Decidable (∀ _ ∈ _, _))
  | .markSetUncertain _ _ => inferInstanceAs (Decidable (∀ _ ∈ _, _))
  | .acquireSet _ _ | .releaseSet _ _ => isTrue trivial

variable {cmd : AcquireSetCommand}

lemma AcquireSetCommand.byRule_mem {id : GoStr} (h : id ∈ cmd.lockOrder) :
    cmd.byRule id ∈ cmd.members := by
  obtain ⟨m, hm, htrim⟩ := mem_map.mp (mem_sortedRuleIDs.mp h)
  cases hfind : cmd.members.reverse.find? fun m => trimSpace m.ruleID == id with
  | none =>
    have hno := find?_eq_none.mp hfind m (mem_reverse.mpr hm)
    simp [htrim] at hno
  | some found =>
    simp only [byRule, hfind]
    exact mem_reverse.mp (mem_of_find?_eq_some hfind)

lemma DurableStore.step_occupies {key : Dimensions → GoStr} {s : DurableStore} {c : DurableCall}
    {id : GoStr} (h : s.occupies id c.now.unixNano = false) (hsel : SelectsOccupying s c)
    (hnew : ¬ c.Proposes id) : (s.step key c).occupies id c.now.unixNano = false := by
  cases c with
  | acquireSet order cmd =>
    simp only [step, acquireSet]
    split_ifs
    · exact h
    split
    · exact h
    split
    · exact h
    have hchecked := occupies_checkCapacity key cmd h cmd.lockOrder
    split
    · rename_i checked ruleID hcheck
      rw [hcheck] at hchecked
      exact hchecked
    · rename_i checked hcheck
      rw [hcheck] at hchecked
      refine occupies_upserts hchecked fun r hr heq => hnew ?_
      obtain ⟨ruleID, hrule, rfl⟩ := mem_map.mp hr
      exact ⟨_, AcquireSetCommand.byRule_mem hrule, heq⟩
  | renewSet order cmd =>
    simp only [step, renewSet]
    split
    · exact h
    split
    · exact h
    rename_i set hload
    split_ifs with hgen hnone
    · exact h
    · exact h
    · refine occupies_update h fun r hr hr' => ?_
      have hocc := hsel set hload (not_not.mp hgen) ⟨id, r⟩ (mem_entries_of_lookup hr) hr'
      exact absurd ((occupies_eq_false.mp h r hr).symm.trans hocc) Bool.false_ne_true
  | releaseSet order cmd =>
    simp only [step, releaseSet]
    split
    · exact h
    · split_ifs
      · exact h
      · exact occupies_update h fun r _ _ => by simp [LeaseRow.occupies]
  | markSetUncertain setID now =>
    refine occupies_update h fun r hr hr' => ?_
    have hocc := hsel ⟨id, r⟩ (mem_entries_of_lookup hr) (by simpa using hr')
    exact absurd ((occupies_eq_false.mp h r hr).symm.trans hocc) Bool.false_ne_true

/-- Once a lease does not occupy capacity, because its set was released or its expiry passed, no
later part of the run brings it back, at any instant, unless a call of that part acquires it anew.
-/
theorem lease_not_revived (key : Dimensions → GoStr) (calls : List DurableCall)
    (hmono : calls.Pairwise fun c c' => c.now ≤ c'.now) (hrange : ∀ c ∈ calls, c.now.Representable)
    (hsel : Meets (DurableStore.step key) SelectsOccupying .empty calls)
    (before after : List DurableCall)
    (hpart : before ++ after <+: calls) (id : GoStr) (t t' : Time) (ht : t.Representable)
    (ht' : t'.Representable)
    (hdead : (run (DurableStore.step key) .empty before).occupies id t.unixNano = false)
    (hnew : ∀ c ∈ after, ¬ c.Proposes id) (hfrom : ∀ c ∈ after, t ≤ c.now)
    (hupto : ∀ c ∈ after, c.now ≤ t')
    (hle : t ≤ t') :
    (run (DurableStore.step key) .empty (before ++ after)).occupies id t'.unixNano = false := by
  obtain ⟨rest, rfl⟩ := hpart
  have hmem : ∀ c ∈ after, c ∈ before ++ after ++ rest := by
    intro c hc
    simp [hc]
  have hafter : after.Pairwise fun c c' => c.now.unixNano ≤ c'.now.unixNano := by
    have hpair := (pairwise_append.mp (pairwise_append.mp hmono).1).2.1
    refine hpair.imp_of_mem ?_
    intro c c' hc hc' hcc
    exact Time.unixNano_mono (hrange c (hmem c hc)) (hrange c' (hmem c' hc')) hcc
  have hstart : ∀ c ∈ after, t.unixNano ≤ c.now.unixNano := fun c hc =>
    Time.unixNano_mono ht (hrange c (hmem c hc)) (hfrom c hc)
  have hend : ∀ c ∈ after, c.now.unixNano ≤ t'.unixNano := fun c hc =>
    Time.unixNano_mono (hrange c (hmem c hc)) ht' (hupto c hc)
  have hstep : ∀ s c, DurableStore.occupies s id c.now.unixNano = false →
      (SelectsOccupying s c ∧ ¬ c.Proposes id) →
      (s.step key c).occupies id c.now.unixNano = false :=
    fun _ _ hs hc => DurableStore.step_occupies hs hc.1 hc.2
  rw [run_append]
  exact timed_induct (fun c : DurableCall => c.now.unixNano) (fun n s => s.occupies id n = false)
    (fun _ _ _ => DurableStore.occupies_later) hstep hdead hstart hafter
    (hsel.left.right.and_forall hnew)
    (prefix_refl after) (Time.unixNano_mono ht ht' hle) hend

def afterEpoch (n : ℤ) : Time := unixEpoch + n

def acquireLease (now : ℤ) : DurableCall :=
  let member : AcquireSetMember :=
    { lease := { leaseID := lit "a", ruleID := lit "rule" }, ruleID := lit "rule", limit := 1 }
  .acquireSet .tableOrder
    { setID := lit "set", requestID := lit "request", members := [member], ttl := 60,
      renewBefore := 20, now := afterEpoch now }

def renewLease (generation : Int64) (now : ℤ) : DurableCall :=
  .renewSet .tableOrder
    { setID := lit "set", requestID := lit "request", expectedGeneration := generation, ttl := 60,
      renewBefore := 20, now := afterEpoch now }

def releaseLease (now : ℤ) : DurableCall :=
  .releaseSet .tableOrder
    { setID := lit "set", requestID := lit "request", reason := lit "done", now := afterEpoch now }

/-- Renewed while it holds its slot, released, and then asked for with a stale generation. -/
theorem lease_not_revived_stale_renew : (run (DurableStore.step unlabelledKey) .empty
      [acquireLease 1000, renewLease 1 1030, releaseLease 1050, renewLease 1 1060]).occupies (lit "a")
        (afterEpoch 1070).unixNano = false :=
  lease_not_revived unlabelledKey _ (by decide) (by decide) (by decide +kernel)
    [acquireLease 1000, renewLease 1 1030, releaseLease 1050] [renewLease 1 1060] (prefix_refl _)
    (lit "a") (afterEpoch 1055) (afterEpoch 1070) (by decide) (by decide) (by decide +kernel)
    (by decide) (by decide) (by decide) (by decide)

/-- A set is released and then renewed with the generation that it had: its lease occupies capacity
again. A mark does the same to a set whose expiry has passed. -/
theorem lease_revived_by_renew_and_by_mark :
    let released :=
      run (DurableStore.step unlabelledKey) .empty [acquireLease 1000, releaseLease 1010]
    let expired := run (DurableStore.step unlabelledKey) .empty [acquireLease 1000]
    let mark := DurableCall.markSetUncertain (lit "set") (afterEpoch 1200)
    (released.occupies (lit "a") (afterEpoch 1010).unixNano = false ∧
      (released.step unlabelledKey (renewLease 1 1020)).occupies (lit "a")
      (afterEpoch 1020).unixNano = true) ∧
    expired.occupies (lit "a") (afterEpoch 1200).unixNano = false ∧
      (expired.step unlabelledKey mark).occupies (lit "a") (afterEpoch 1200).unixNano = true := by
  decide +kernel

end InteractiveProxy.Concurrency
