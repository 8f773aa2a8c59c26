import InteractiveProxy.LeaseDomain

/-! The in-memory lease store. `key` is the text that groups leases of one caller
(`Dimensions.Key`); every loop over the lease map is given the order in which it ran. -/
namespace InteractiveProxy.Concurrency

open GoText KeyedTable SignedWord Attribution

/-- The leases of one store, each filed under its own id. -/
structure MemoryStore where
  leases : Table GoStr Lease
  keyed : ∀ id l, leases.lookup id = some l → l.leaseID = id

namespace MemoryStore

/-- `NewMemoryState`. -/
def empty : MemoryStore := ⟨∅, fun _ _ h => by simp at h⟩

def put (s : MemoryStore) (l : Lease) : MemoryStore where
  leases := s.leases.insert l.leaseID l
  keyed := by
    intro id l' h
    rw [lookup_insert_eq] at h
    split_ifs at h with hid
    · cases h
      exact hid.symm
    · exact s.keyed id l' h

def putAll (s : MemoryStore) (ls : List Lease) : MemoryStore := ls.foldl put s

def rewrite (s : MemoryStore) (f : Lease → Lease) (hf : ∀ l, (f l).leaseID = l.leaseID) :
    MemoryStore where
  leases := mapRows f s.leases
  keyed := by
    intro id l' h
    rw [lookup_mapRows, Option.map_eq_some_iff] at h
    obtain ⟨l, hl, rfl⟩ := h
    rw [hf, s.keyed id l hl]

end MemoryStore

section Store

variable (key : Dimensions → GoStr)

/-- The lease counts against the rule and dimension key. -/
def Lease.under (ruleID dimKey : GoStr) (l : Lease) : Bool :=
  l.ruleID == ruleID && key l.dimensions == dimKey

/-- What `reclaimLocked` does to one lease. -/
def reclaimLease (ruleID dimKey : GoStr) (now : Time) (l : Lease) : Lease :=
  if !l.under key ruleID dimKey then l
  else if l.state = .released ∨ l.state = .expired then l
  else if l.setState = .uncertain then l
  else if expiryPassed l.expiresAt now then l.expire now
  else l

lemma reclaimLease_leaseID (ruleID dimKey : GoStr) (now : Time) (l : Lease) :
    (reclaimLease key ruleID dimKey now l).leaseID = l.leaseID := by
  unfold reclaimLease Lease.expire
  split_ifs <;> rfl

namespace MemoryStore

variable (s : MemoryStore)

def reclaim (ruleID dimKey : GoStr) (now : Time) : MemoryStore :=
  s.rewrite (reclaimLease key ruleID dimKey now) (reclaimLease_leaseID key ruleID dimKey now)

def countLiveExcluding (ruleID dimKey : GoStr) (now : Time) (exclude : List GoStr) : ℕ :=
  countRows (fun l => l.under key ruleID dimKey && !exclude.contains (trimSpace l.leaseID) && l.isLive now) s.leases

def countLive (ruleID dimKey : GoStr) (now : Time) : ℕ :=
  countRows (fun l => l.under key ruleID dimKey && l.isLive now) s.leases

def remaining (ruleID dimKey : GoStr) (limit : ℤ) (now : Time) : ℤ :=
  max 0 (limit - s.countLive key ruleID dimKey now)

/-- The smallest number of free slots over the members of a command; `0` for none. -/
def minRemain (cmd : AcquireSetCommand) : ℤ :=
  max 0 <| cmd.members.foldl (fun least m =>
    let rem := s.remaining key m.ruleID (key m.dimensions) m.limit cmd.now
    if least < 0 ∨ rem < least then rem else least) (-1)

/-- `loadSetLocked`: the fields of the set come from the lease that the loop meets first. -/
def loadSet (order : RangeOrder Lease) (setID : GoStr) : Option LeaseSet :=
  match (rowsIn order s.leases).filter fun l => l.setID = setID with
  | [] => none
  | first :: rest => some (.fromLeases first (sortByRule (first :: rest)))

end MemoryStore

def AcquireSetCommand.memberFor (cmd : AcquireSetCommand) (ruleID : GoStr) : AcquireSetMember :=
  (cmd.members.find? fun m => trimSpace m.ruleID == ruleID).getD {}

def AcquireSetCommand.selfIDs (cmd : AcquireSetCommand) : List GoStr :=
  cmd.members.map fun m => trimSpace m.lease.leaseID

/-- The leases that the call files, in lock order, up to the first member with an empty lease id. -/
def AcquireSetCommand.stored (cmd : AcquireSetCommand) : List Lease :=
  (cmd.lockOrder.map fun ruleID => cmd.grant (cmd.memberFor ruleID)).takeWhile
    fun l => l.leaseID ≠ []

namespace MemoryStore

/-- The capacity check over the locked rules, with the rule that refuses. Reclaimed leases stay
reclaimed also where a later rule refuses. -/
def checkCapacity (cmd : AcquireSetCommand) (s : MemoryStore) :
    List GoStr → MemoryStore × Option GoStr
  | [] => (s, none)
  | ruleID :: rest =>
    let member := cmd.memberFor ruleID
    let dimKey := key member.dimensions
    let reclaimed := s.reclaim key member.ruleID dimKey cmd.now
    if member.limit ≤ reclaimed.countLiveExcluding key member.ruleID dimKey cmd.now cmd.selfIDs then
      if member.mode = .advisory then checkCapacity cmd reclaimed rest else (reclaimed, some ruleID)
    else checkCapacity cmd reclaimed rest

/-- `AcquireSet` past the replay test. -/
def acquireNew (s : MemoryStore) (cmd : AcquireSetCommand) :
    MemoryStore × Except LeaseError AcquireSetResult :=
  match s.checkCapacity key cmd cmd.lockOrder with
  | (checked, some ruleID) =>
    (checked, .ok { capacityExceeded := true, lockOrder := cmd.lockOrder, denyingRuleID := ruleID })
  | (checked, none) =>
    let after := checked.putAll cmd.stored
    if cmd.stored.length < cmd.lockOrder.length then (after, .error .emptyMemberLeaseID)
    else
      let set := cmd.acquiredSet cmd.stored
      (after, .ok { set := set, remainingSlots := after.minRemain key cmd, lockOrder := cmd.lockOrder })

def acquireSet (s : MemoryStore) (order : RangeOrder Lease) (cmd : AcquireSetCommand) :
    MemoryStore × Except LeaseError AcquireSetResult :=
  if trimSpace cmd.setID = [] ∨ trimSpace cmd.requestID = [] ∨ cmd.members.isEmpty then
    (s, .error .invalidAcquireSet)
  else
    match validateTiming cmd.ttl cmd.renewBefore with
    | .error e => (s, .error e)
    | .ok () =>
      match (s.loadSet order cmd.setID).filter fun set => set.occupiesCapacity cmd.now with
      | some existing =>
        let remain := s.minRemain key cmd
        (s, .ok { set := existing, replayed := true, remainingSlots := remain, lockOrder := cmd.lockOrder })
      | none => s.acquireNew key cmd

end MemoryStore

/-- What a successful `RenewSet` writes for one member. -/
def RenewSetCommand.renewed (cmd : RenewSetCommand) (next : Int64) (m : Lease) : Lease :=
  { m with
    renewedAt := cmd.now
    expiresAt := cmd.now.add cmd.ttl
    generation := m.generation + 1
    setGeneration := next
    setState := .active
    state := .active }

/-- What `ReleaseSet` writes for one member. -/
def Lease.releaseInSet (m : Lease) (now : Time) : Lease :=
  { m.release now with setState := .released }

@[simp] lemma Lease.releaseInSet_state (m : Lease) (now : Time) :
    (m.releaseInSet now).state = .released :=
  m.release_state now

/-- What `MarkSetUncertain` writes for one member. -/
def Lease.markUncertain (m : Lease) : Lease := { m with setState := .uncertain, state := .expiring }

namespace MemoryStore

def renewSet (s : MemoryStore) (order : RangeOrder Lease) (cmd : RenewSetCommand) :
    MemoryStore × Except LeaseError LeaseSet :=
  if trimSpace cmd.setID = [] then (s, .error .emptySetID)
  else
    match validateTiming cmd.ttl cmd.renewBefore with
    | .error e => (s, .error e)
    | .ok () =>
      match s.loadSet order cmd.setID with
      | none => (s, .error .notFound)
      | some set =>
        if set.state = .released ∨ set.state = .failed then (s, .error .leaseReleased)
        else if set.generation ≠ cmd.expectedGeneration then (s, .error .generationMismatch)
        else
          let next := set.generation + 1
          let members := set.members.map (cmd.renewed next)
          (s.putAll members,
            .ok { set with
              members := members
              generation := next
              renewedAt := cmd.now
              expiresAt := cmd.now.add cmd.ttl
              state := .active
              ttl := cmd.ttl
              renewBefore := cmd.renewBefore })

/-- `ReleaseSet`; the result says whether the call changed the set. -/
def releaseSet (s : MemoryStore) (order : RangeOrder Lease) (cmd : ReleaseSetCommand) :
    MemoryStore × Bool × LeaseSet :=
  match s.loadSet order cmd.setID with
  | none => (s, false, {})
  | some set =>
    if set.state = .released then (s, false, set)
    else
      let members := set.members.map fun m => m.releaseInSet cmd.now
      (s.putAll members, true, { set with members := members, state := .released, releasedAt := cmd.now })

/-- `Release` of a single lease, as the rollback of an admission uses it. The state that the lease
keeps for its set is not touched. -/
def release (s : MemoryStore) (cmd : ReleaseCommand) : MemoryStore × Bool × Lease :=
  match s.leases.lookup cmd.leaseID with
  | none => (s, false, {})
  | some l => (s.put (l.release cmd.now), true, l.release cmd.now)

def markSetUncertain (s : MemoryStore) (order : RangeOrder Lease) (setID : GoStr) (now : Time) :
    MemoryStore × Except LeaseError Unit :=
  match s.loadSet order setID with
  | none => (s, .error .notFound)
  | some set =>
    match set.markUncertain now with
    | .error e => (s, .error e)
    | .ok marked => (s.putAll (marked.members.map Lease.markUncertain), .ok ())

end MemoryStore

inductive MemoryCall
  | acquireSet (order : RangeOrder Lease) (cmd : AcquireSetCommand)
  | renewSet (order : RangeOrder Lease) (cmd : RenewSetCommand)
  | releaseSet (order : RangeOrder Lease) (cmd : ReleaseSetCommand)
  | release (cmd : ReleaseCommand)
  | markSetUncertain (order : RangeOrder Lease) (setID : GoStr) (now : Time)

def MemoryCall.now : MemoryCall → Time
  | acquireSet _ cmd => cmd.now
  | renewSet _ cmd => cmd.now
  | releaseSet _ cmd => cmd.now
  | release cmd => cmd.now
  | markSetUncertain _ _ now => now

def MemoryStore.step (s : MemoryStore) : MemoryCall → MemoryStore
  | .acquireSet order cmd => (s.acquireSet key order cmd).1
  | .renewSet order cmd => (s.renewSet order cmd).1
  | .releaseSet order cmd => (s.releaseSet order cmd).1
  | .release cmd => (s.release cmd).1
  | .markSetUncertain order setID now => (s.markSetUncertain order setID now).1

end Store

open MemoryStore List AcquireSetCommand

/-- A lease before and after the store reclaims at `now`: unchanged, or marked expired because its
expiry had passed. -/
def ReclaimedLease (now : Time) (l l' : Lease) : Prop :=
  l' = l ∨ expiryPassed l.expiresAt now ∧ l.setState ≠ .uncertain ∧
    l' = { l with state := .expired }

variable {l l' : Lease}

lemma ReclaimedLease.eq_of_live {now t : Time} (h : ReclaimedLease now l l') (hlive : l'.isLive t) :
    l' = l := by
  rcases h with rfl | ⟨-, -, rfl⟩
  · rfl
  · simp [Lease.isLive] at hlive

variable {now : Time} {s' : MemoryStore}

lemma ReclaimedLease.trans {l'' : Lease} (h : ReclaimedLease now l l')
    (h' : ReclaimedLease now l' l'') : ReclaimedLease now l l'' := by
  rcases h' with rfl | ⟨hpassed, hset, rfl⟩
  · exact h
  · rcases h with rfl | ⟨hpassed', hset', rfl⟩
    · exact .inr ⟨hpassed, hset, rfl⟩
    · exact .inr ⟨hpassed', hset', rfl⟩

lemma reclaimLease_reclaimed (key : Dimensions → GoStr) (ruleID dimKey : GoStr) (now : Time)
    (l : Lease) : ReclaimedLease now l (reclaimLease key ruleID dimKey now l) := by
  unfold reclaimLease
  split_ifs with hunder hstate hset hpassed
  · exact .inl rfl
  · exact .inl rfl
  · exact .inl rfl
  · refine .inr ⟨hpassed, hset, ?_⟩
    simp only [expiryPassed, Bool.and_eq_true, decide_eq_true_eq] at hpassed
    have hkeep : ¬ (l.expiresAt = 0 ∨ now < l.expiresAt) := by
      rintro (hzero | hlater)
      · exact hpassed.1 hzero
      · exact absurd hpassed.2 (not_le.mpr hlater)
    rw [Lease.expire, if_neg hstate, if_neg hkeep]
  · exact .inl rfl

/-- The store after reclaiming at `now`. -/
def Reclaimed (now : Time) (s s' : MemoryStore) : Prop :=
  ∀ id l', s'.leases.lookup id = some l' → ∃ l, s.leases.lookup id = some l ∧
    ReclaimedLease now l l'

lemma Reclaimed.refl (now : Time) (s : MemoryStore) : Reclaimed now s s :=
  fun _ l h => ⟨l, h, .inl rfl⟩

lemma Reclaimed.trans {s s'' : MemoryStore} (h : Reclaimed now s s') (h' : Reclaimed now s' s'') :
    Reclaimed now s s'' := by
  intro id l'' hl''
  obtain ⟨l', hl', hstep'⟩ := h' id l'' hl''
  obtain ⟨l, hl, hstep⟩ := h id l' hl'
  exact ⟨l, hl, hstep.trans hstep'⟩

variable (key : Dimensions → GoStr)

namespace MemoryStore

lemma reclaim_reclaimed (s : MemoryStore) (ruleID dimKey : GoStr) (now : Time) :
    Reclaimed now s (s.reclaim key ruleID dimKey now) := by
  intro id l' h
  simp only [reclaim, rewrite, lookup_mapRows, Option.map_eq_some_iff] at h
  obtain ⟨l, hl, rfl⟩ := h
  exact ⟨l, hl, reclaimLease_reclaimed key ruleID dimKey now l⟩

variable {s : MemoryStore} {setID id : GoStr} {set : LeaseSet}

lemma lookup_putAll {ls : List Lease} (h : (s.putAll ls).leases.lookup id = some l) :
    (l ∈ ls ∧ l.leaseID = id) ∨ ((∀ m ∈ ls, m.leaseID ≠ id) ∧ s.leases.lookup id = some l) := by
  induction ls generalizing s with
  | nil => exact .inr ⟨by simp, h⟩
  | cons m ls ih =>
    rcases ih h with ⟨hmem, hid⟩ | ⟨hnew, hold⟩
    · exact .inl ⟨mem_cons_of_mem m hmem, hid⟩
    simp only [put, lookup_insert_eq] at hold
    split_ifs at hold with hm
    · cases hold
      exact .inl ⟨mem_cons_self, hm.symm⟩
    · refine .inr ⟨?_, hold⟩
      intro m' hm'
      rcases mem_cons.mp hm' with rfl | hm'
      · exact fun heq => hm heq.symm
      · exact hnew m' hm'

lemma loadSet_some {order : RangeOrder Lease} (h : s.loadSet order setID = some set) :
    (∃ first ∈ set.members, set = .fromLeases first set.members) ∧
      ∀ m, m ∈ set.members ↔ m.setID = setID ∧ s.leases.lookup m.leaseID = some m := by
  unfold loadSet at h
  split at h
  · cases h
  rename_i first rest hrows
  cases h
  refine ⟨⟨first, mem_sortByRule.mpr mem_cons_self, rfl⟩, ?_⟩
  intro m
  rw [LeaseSet.fromLeases, mem_sortByRule, ← hrows, mem_filter, mem_rowsIn, decide_eq_true_eq, and_comm]
  refine and_congr_right fun _ => ⟨?_, fun hm => ⟨_, hm⟩⟩
  rintro ⟨id, hid⟩
  rw [s.keyed id m hid]
  exact hid

lemma mem_loadSet {order : RangeOrder Lease} (h : s.loadSet order setID = some set)
    (hl : s.leases.lookup id = some l) (hset : l.setID = setID) : l ∈ set.members := by
  refine ((loadSet_some h).2 l).mpr ⟨hset, ?_⟩
  rw [s.keyed id l hl]
  exact hl

lemma checkCapacity_reclaimed (cmd : AcquireSetCommand) (s : MemoryStore)
    (ruleIDs : List GoStr) : Reclaimed cmd.now s (s.checkCapacity key cmd ruleIDs).1 := by
  induction ruleIDs generalizing s with
  | nil => exact Reclaimed.refl cmd.now s
  | cons ruleID rest ih =>
    have hreclaim := s.reclaim_reclaimed key (cmd.memberFor ruleID).ruleID
      (key (cmd.memberFor ruleID).dimensions) cmd.now
    simp only [checkCapacity]
    split_ifs
    · exact hreclaim.trans (ih _)
    · exact hreclaim
    · exact hreclaim.trans (ih _)

lemma countRows_reclaimed (h : Reclaimed now s s') {p : Lease → Bool} {t : Time}
    (hp : ∀ l, p l → l.isLive t) : countRows p s'.leases ≤ countRows p s.leases := by
  apply count_le_of_subset
  intro id l' hl' hcount
  obtain ⟨l, hl, hstep⟩ := h id l' hl'
  obtain rfl : l' = l := hstep.eq_of_live (hp l' hcount)
  exact ⟨l', hl, hcount⟩

lemma checkCapacity_room {cmd : AcquireSetCommand} {ruleIDs : List GoStr}
    (h : s.checkCapacity key cmd ruleIDs = (s', none)) {ruleID : GoStr} (hmem : ruleID ∈ ruleIDs)
    (hmode : (cmd.memberFor ruleID).mode ≠ .advisory) :
    s'.countLiveExcluding key (cmd.memberFor ruleID).ruleID (key (cmd.memberFor ruleID).dimensions)
    cmd.now
      cmd.selfIDs < (cmd.memberFor ruleID).limit := by
  induction ruleIDs generalizing s with
  | nil => cases hmem
  | cons first rest ih =>
    simp only [checkCapacity] at h
    split_ifs at h with hfull hadvisory
    · rcases mem_cons.mp hmem with rfl | hmem
      · exact absurd hadvisory hmode
      · exact ih h hmem
    · cases h
    · rcases mem_cons.mp hmem with rfl | hmem
      · -- the later rules only reclaim, so the room found here is still there at the end
        have hrest := checkCapacity_reclaimed key cmd (s.reclaim key (cmd.memberFor ruleID).ruleID
          (key (cmd.memberFor ruleID).dimensions) cmd.now) rest
        rw [h] at hrest
        refine lt_of_le_of_lt (Int.ofNat_le.mpr ?_) (not_le.mp hfull)
        exact countRows_reclaimed hrest fun _ hcount => (Bool.and_eq_true_iff.mp hcount).2
      · exact ih h hmem

end MemoryStore

/-- Every outcome of `AcquireSet`: the store and the answer that it leaves. -/
inductive AcquireEffect (s : MemoryStore) (order : RangeOrder Lease) (cmd : AcquireSetCommand) :
    MemoryStore → Except LeaseError AcquireSetResult → Prop
  | refused (e : LeaseError) : AcquireEffect s order cmd s (.error e)
  | replayed (result : AcquireSetResult) (hload : s.loadSet order cmd.setID = some result.set)
      (hoccupies : result.set.occupiesCapacity cmd.now) : AcquireEffect s order cmd s (.ok result)
  | denied (checked : MemoryStore) (result : AcquireSetResult)
      (hreclaimed : Reclaimed cmd.now s checked)
      (hexceeded : result.capacityExceeded) : AcquireEffect s order cmd checked (.ok result)
  | granted (checked : MemoryStore) (answer : Except LeaseError AcquireSetResult)
      (hreclaimed : Reclaimed cmd.now s checked)
      (hroom : ∀ ruleID ∈ cmd.lockOrder, (cmd.memberFor ruleID).mode ≠ .advisory →
        checked.countLiveExcluding key (cmd.memberFor ruleID).ruleID (key (cmd.memberFor ruleID).dimensions)
          cmd.now cmd.selfIDs < (cmd.memberFor ruleID).limit)
      (htiming : validateTiming cmd.ttl cmd.renewBefore = .ok ())
      (hfresh : ∀ set, s.loadSet order cmd.setID = some set → set.occupiesCapacity cmd.now = false)
      (hanswer : ∀ result, answer = .ok result → result.set.members = cmd.stored) :
      AcquireEffect s order cmd (checked.putAll cmd.stored) answer

variable (s : MemoryStore) (order : RangeOrder Lease)

lemma MemoryStore.acquireSet_effect (cmd : AcquireSetCommand) :
    AcquireEffect key s order cmd (s.acquireSet key order cmd).1 (s.acquireSet key order cmd).2 := by
  unfold acquireSet
  split_ifs
  · exact .refused _
  split
  · exact .refused _
  rename_i htiming
  split
  · rename_i existing hexisting
    obtain ⟨hload, hoccupies⟩ := Option.filter_eq_some_iff.mp hexisting
    exact .replayed _ hload hoccupies
  · rename_i hnone
    have hfresh :
        ∀ set, s.loadSet order cmd.setID = some set → set.occupiesCapacity cmd.now = false := by
      intro set hset
      rw [hset, Option.filter_eq_none_iff] at hnone
      simpa using hnone set rfl
    have hreclaimed := checkCapacity_reclaimed key cmd s cmd.lockOrder
    unfold acquireNew
    split
    · rename_i checked ruleID hcheck
      rw [hcheck] at hreclaimed
      exact .denied checked _ hreclaimed rfl
    · rename_i checked hcheck
      rw [hcheck] at hreclaimed
      have hroom := fun ruleID (hmem : ruleID ∈ cmd.lockOrder) => checkCapacity_room key hcheck hmem
      split_ifs
      · exact .granted checked _ hreclaimed hroom htiming hfresh (by simp)
      · refine .granted checked _ hreclaimed hroom htiming hfresh ?_
        rintro result ⟨⟩
        rfl

section

variable {P : MemoryStore → Prop} (hs : P s)
include hs

/-- `RenewSet` leaves the store, or writes every lease of a set that was not released or failed. -/
@[elab_as_elim] lemma MemoryStore.renewSet_effect (cmd : RenewSetCommand)
    (hput : ∀ set, s.loadSet order cmd.setID = some set → set.state ≠ .released → set.state ≠ .failed →
      set.generation = cmd.expectedGeneration →
      P (s.putAll (set.members.map (cmd.renewed (set.generation + 1))))) :
    P (s.renewSet order cmd).1 := by
  unfold renewSet
  split_ifs
  · exact hs
  split
  · exact hs
  split
  · exact hs
  rename_i set hload
  split_ifs with hdone hgen
  · exact hs
  · exact hs
  · obtain ⟨hreleased, hfailed⟩ := not_or.mp hdone
    exact hput set hload hreleased hfailed (not_not.mp hgen)

@[elab_as_elim] lemma MemoryStore.releaseSet_effect (cmd : ReleaseSetCommand)
    (hput : ∀ set, s.loadSet order cmd.setID = some set →
      P (s.putAll (set.members.map fun m => m.releaseInSet cmd.now))) :
      P (s.releaseSet order cmd).1 := by
  unfold releaseSet
  split
  · exact hs
  · rename_i set hload
    split_ifs
    · exact hs
    · exact hput set hload

@[elab_as_elim] lemma MemoryStore.release_effect (cmd : ReleaseCommand)
    (hput : ∀ l, s.leases.lookup cmd.leaseID = some l → P (s.putAll [l.release cmd.now])) :
    P (s.release cmd).1 := by
  unfold release
  split
  · exact hs
  · rename_i l hl
    exact hput l hl

@[elab_as_elim] lemma MemoryStore.markSetUncertain_effect (setID : GoStr) (now : Time)
    (hput : ∀ set, s.loadSet order setID = some set → set.state ≠ .released → set.state ≠ .failed →
      P (s.putAll (set.members.map Lease.markUncertain))) :
      P (s.markSetUncertain order setID now).1 := by
  unfold markSetUncertain
  split
  · exact hs
  rename_i set hload
  cases hmark : set.markUncertain now with
  | error e => exact hs
  | ok marked =>
    unfold LeaseSet.markUncertain at hmark
    split at hmark
    · cases hmark
    · cases hmark
    rename_i hreleased hfailed
    cases hmark
    dsimp only
    rw [map_map]
    exact hput set hload hreleased hfailed

end

/-- The lease ids that the members propose, in lock order. -/
def AcquireSetCommand.proposedIDs (cmd : AcquireSetCommand) : List GoStr :=
  cmd.lockOrder.map fun ruleID => (cmd.memberFor ruleID).lease.leaseID

/-- The command is well formed and no strict rule has a limit that refuses every request. -/
def AcquireSetCommand.Grantable (cmd : AcquireSetCommand) : Prop :=
  trimSpace cmd.setID ≠ [] ∧ trimSpace cmd.requestID ≠ [] ∧ cmd.members ≠ [] ∧
    validateTiming cmd.ttl cmd.renewBefore = .ok () ∧
    ∀ ruleID ∈ cmd.lockOrder, (cmd.memberFor ruleID).mode ≠ .advisory →
      0 < (cmd.memberFor ruleID).limit

/-- Where `AcquireSet` fails or refuses, the store keeps its leases; a lease that had expired may be
marked. -/
def MemoryStore.AcquiresAtomically (s : MemoryStore) (order : RangeOrder Lease)
    (cmd : AcquireSetCommand) : Prop :=
  (∀ result, (s.acquireSet key order cmd).2 = .ok result → result.capacityExceeded) →
    Reclaimed cmd.now s (s.acquireSet key order cmd).1 ∧
      ∀ id, id ∈ (s.acquireSet key order cmd).1.leases ↔ id ∈ s.leases

namespace MemoryStore

variable {id : GoStr}

lemma mem_reclaim {s : MemoryStore} {ruleID dimKey : GoStr} :
    id ∈ (s.reclaim key ruleID dimKey now).leases ↔ id ∈ s.leases := by
  simp [← AList.lookup_isSome, reclaim, rewrite, lookup_mapRows]

lemma mem_checkCapacity (cmd : AcquireSetCommand) (s : MemoryStore) (ruleIDs : List GoStr)
    (id : GoStr) : id ∈ (s.checkCapacity key cmd ruleIDs).1.leases ↔ id ∈ s.leases := by
  induction ruleIDs generalizing s with
  | nil => rfl
  | cons ruleID rest ih =>
    simp only [checkCapacity]
    split_ifs <;> simp only [ih, mem_reclaim]

lemma mem_putAll {s : MemoryStore} {ls : List Lease} :
    id ∈ (s.putAll ls).leases ↔ id ∈ s.leases ∨ ∃ l ∈ ls, l.leaseID = id := by
  induction ls generalizing s with
  | nil => simp [putAll]
  | cons l ls ih =>
    change id ∈ ((s.put l).putAll ls).leases ↔ _
    rw [ih]
    simp only [put, AList.mem_insert]
    grind

lemma checkCapacity_empty {cmd : AcquireSetCommand} {ruleIDs : List GoStr}
    (h : ∀ ruleID ∈ ruleIDs, (cmd.memberFor ruleID).mode ≠ .advisory → 0 < (cmd.memberFor ruleID).limit) :
    empty.checkCapacity key cmd ruleIDs = (empty, none) := by
  induction ruleIDs with
  | nil => rfl
  | cons ruleID rest ih =>
    have hrest := ih fun r hr => h r (mem_cons_of_mem _ hr)
    have hreclaim :
        empty.reclaim key (cmd.memberFor ruleID).ruleID (key (cmd.memberFor ruleID).dimensions)
        cmd.now = empty := rfl
    have hcount : empty.countLiveExcluding key (cmd.memberFor ruleID).ruleID
        (key (cmd.memberFor ruleID).dimensions) cmd.now cmd.selfIDs = 0 := rfl
    simp only [checkCapacity, hreclaim]
    split_ifs with hfull hmode
    · exact hrest
    · have := h ruleID mem_cons_self hmode
      omega
    · exact hrest

end MemoryStore

lemma AcquireSetCommand.stored_length_lt {cmd : AcquireSetCommand} :
    cmd.stored.length < cmd.lockOrder.length ↔ [] ∈ cmd.proposedIDs := by
  unfold stored proposedIDs
  induction cmd.lockOrder with
  | nil => simp
  | cons ruleID rest ih =>
    by_cases hid : (cmd.memberFor ruleID).lease.leaseID = []
    · simp [grant, hid]
    · simpa [grant, hid] using ih

lemma AcquireSetCommand.stored_eq_nil {cmd : AcquireSetCommand} (h : [] ∈ cmd.proposedIDs) :
    cmd.stored = [] ↔ cmd.proposedIDs.head? = some [] := by
  unfold stored proposedIDs at *
  cases horder : cmd.lockOrder with
  | nil => simp [horder] at h
  | cons ruleID rest => simp [grant, takeWhile_cons]

/-- The acquisition is atomic in every state just if a member without a lease id, in a command that
can be granted, is the first one to be filed. -/
theorem acquire_atomic_iff (cmd : AcquireSetCommand) :
    (∀ s order, MemoryStore.AcquiresAtomically key s order cmd) ↔
      (cmd.Grantable → [] ∈ cmd.proposedIDs → cmd.proposedIDs.head? = some []) := by
  constructor
  · intro hatomic hgrant hmissing
    have hshort := stored_length_lt.mpr hmissing
    obtain ⟨hset, hrequest, hmembers, htiming, hlimits⟩ := hgrant
    have hcall : empty.acquireSet key .tableOrder cmd =
        (empty.putAll cmd.stored, .error .emptyMemberLeaseID) := by
      have hload : empty.loadSet .tableOrder cmd.setID = none := rfl
      simp [acquireSet, hset, hrequest, hmembers, htiming, hload, acquireNew, checkCapacity_empty key hlimits, hshort]
    have hsame := hatomic .empty .tableOrder
    simp only [MemoryStore.AcquiresAtomically, hcall, mem_putAll] at hsame
    obtain ⟨-, hids⟩ := hsame (by simp)
    refine (stored_eq_nil hmissing).mp (eq_nil_iff_forall_not_mem.mpr ?_)
    intro l hl
    exact AList.notMem_empty _ ((hids l.leaseID).mp (.inr ⟨l, hl, rfl⟩))
  · intro hcond s order
    unfold MemoryStore.AcquiresAtomically acquireSet
    split_ifs with hinvalid
    · exact fun _ => ⟨.refl _ _, fun _ => .rfl⟩
    split
    · exact fun _ => ⟨.refl _ _, fun _ => .rfl⟩
    rename_i htiming
    split
    · intro hfail
      cases hfail _ rfl
    have hreclaimed := s.checkCapacity_reclaimed key cmd cmd.lockOrder
    have hmem := s.mem_checkCapacity key cmd cmd.lockOrder
    unfold acquireNew
    split
    · rename_i hcheck
      rw [hcheck] at hreclaimed hmem
      exact fun _ => ⟨hreclaimed, hmem⟩
    rename_i hcheck
    split_ifs with hshort
    · have hmissing := stored_length_lt.mp hshort
      have hgrant : cmd.Grantable := by
        simp only [List.isEmpty_iff, not_or] at hinvalid
        refine ⟨hinvalid.1, hinvalid.2.1, hinvalid.2.2, htiming, ?_⟩
        intro ruleID hrule hstrict
        have := checkCapacity_room key hcheck hrule hstrict
        omega
      rw [(stored_eq_nil hmissing).mpr (hcond hgrant hmissing)]
      rw [hcheck] at hreclaimed hmem
      exact fun _ => ⟨hreclaimed, hmem⟩
    · intro hfail
      cases hfail _ rfl

/-- Of two members the second to be filed has no lease id: the call fails, and the first lease is
held all the same. -/
theorem failed_acquire_holds_lease :
    let member (rule id : String) : AcquireSetMember :=
      { lease := { leaseID := lit id, ruleID := lit rule }, ruleID := lit rule, limit := 1 }
    let cmd : AcquireSetCommand :=
      { setID := lit "set", requestID := lit "request",
        members := [member "a" "lease", member "b" ""], ttl := 60, renewBefore := 20, now := 1000 }
    ¬ empty.AcquiresAtomically unlabelledKey .tableOrder cmd := by
  intro member cmd hatomic
  have hanswer :
    (empty.acquireSet unlabelledKey .tableOrder cmd).2.toOption = none := by decide +kernel
  obtain ⟨-, hids⟩ := hatomic (by
    intro result hok
    simp [hok, Except.toOption] at hanswer)
  exact absurd (hids (lit "lease")) (by decide +kernel)

end InteractiveProxy.Concurrency
