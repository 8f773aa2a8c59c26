import InteractiveProxy.AttributionDimensions
import InteractiveProxy.SignedWord

/-! Concurrency leases and lease sets: their states, the two occupancy tests, the transitions of a
single lease and the commands of the lease stores. -/
namespace InteractiveProxy.Concurrency
open GoText KeyedTable SignedWord Attribution

inductive LeaseState
  | unset
  | active
  | expiring
  | expired
  | released
  | unknown (name : GoStr)
  deriving DecidableEq

inductive LeaseSetState
  | unset
  | active
  | uncertain
  | expiring
  | released
  | failed
  | unknown (name : GoStr)
  deriving DecidableEq

inductive RuleMode
  | strict
  | advisory
  | unknown (name : GoStr)
  deriving DecidableEq

inductive TimingFault
  | ttlNotPositive
  | renewBeforeNotPositive
  | renewBeforeNotBelowTTL
  | ttlTooLong
  | renewBeforeTooLong

inductive LeaseError
  | invalidTiming (fault : TimingFault)
  | invalidAcquireSet
  | emptySetID
  | emptyMemberLeaseID
  | notFound
  | generationMismatch
  | leaseNotActive
  | leaseReleased
  | leaseExpired

structure Lease where
  leaseID : GoStr := []
  ruleID : GoStr := []
  ruleVersion : GoStr := []
  leaseNamespace : GoStr := []
  dimensions : Dimensions := {}
  logicalID : GoStr := []
  holderID : GoStr := []
  acquiredAt : Time := 0
  renewedAt : Time := 0
  expiresAt : Time := 0
  releasedAt : Time := 0
  generation : Int64 := 0
  state : LeaseState := .unset
  identityVersion : ℤ := 0
  setID : GoStr := []
  setGeneration : Int64 := 0
  setState : LeaseSetState := .unset

/-- The atomic occupancy of one request under several rules. -/
structure LeaseSet where
  setID : GoStr := []
  requestID : GoStr := []
  generation : Int64 := 0
  state : LeaseSetState := .unset
  members : List Lease := []
  acquiredAt : Time := 0
  renewedAt : Time := 0
  expiresAt : Time := 0
  releasedAt : Time := 0
  renewBefore : Duration := 0
  ttl : Duration := 0

/-- `!expiresAt.IsZero() && !now.Before(expiresAt)`: a zero expiry never passes. -/
def expiryPassed (expiresAt now : Time) : Bool := expiresAt ≠ 0 && expiresAt ≤ now

def Lease.isLive (l : Lease) (now : Time) : Bool :=
  match l.state with
  | .released | .expired => false
  | _ =>
    if l.setState = .uncertain then true
    else if expiryPassed l.expiresAt now then false
    else l.state = .active || l.state = .expiring || l.state = .unset

def Lease.release (l : Lease) (now : Time) : Lease :=
  if l.state = .released then l else { l with state := .released, releasedAt := now }

def Lease.expire (l : Lease) (now : Time) : Lease :=
  if l.state = .released ∨ l.state = .expired then l
  else { l with
    state := .expired
    expiresAt := if l.expiresAt = 0 ∨ now < l.expiresAt then now else l.expiresAt }

def LeaseSet.occupiesCapacity (s : LeaseSet) (now : Time) : Bool :=
  match s.state with
  | .released | .failed => false
  | .uncertain => true
  | _ =>
    if expiryPassed s.expiresAt now then false
    else s.state = .active || s.state = .expiring || s.state = .unset

def LeaseSet.markUncertain (s : LeaseSet) (now : Time) : Except LeaseError LeaseSet :=
  match s.state with
  | .released | .failed => .error .leaseReleased
  | _ =>
    .ok { s with
      state := .uncertain
      renewedAt := now
      members := s.members.map fun m => { m with state := .expiring } }

def maxTTL : Duration := 86400000000000

def maxRenew : Duration := 43200000000000

def validateTiming (leaseTTL renewBefore : Duration) : Except LeaseError Unit :=
  if leaseTTL ≤ 0 then .error (.invalidTiming .ttlNotPositive)
  else if renewBefore ≤ 0 then .error (.invalidTiming .renewBeforeNotPositive)
  else if leaseTTL ≤ renewBefore then .error (.invalidTiming .renewBeforeNotBelowTTL)
  else if maxTTL < leaseTTL then .error (.invalidTiming .ttlTooLong)
  else if maxRenew < renewBefore then .error (.invalidTiming .renewBeforeTooLong)
  else .ok ()

def sortedRuleIDs (ruleIDs : List GoStr) : List GoStr := ruleIDs.insertionSort (· ≤ ·)

def sortByRule (leases : List Lease) : List Lease :=
  leases.insertionSort fun a b => a.ruleID ≤ b.ruleID

/-- The set that a store rebuilds from its leases: the fields of the set are those of `first`. -/
def LeaseSet.fromLeases (first : Lease) (members : List Lease) : LeaseSet where
  setID := first.setID
  requestID := first.logicalID
  generation := first.setGeneration
  state := first.setState
  expiresAt := first.expiresAt
  acquiredAt := first.acquiredAt
  renewedAt := first.renewedAt
  members := members

structure AcquireSetMember where
  lease : Lease := {}
  ruleID : GoStr := []
  dimensions : Dimensions := {}
  limit : ℤ := 0
  mode : RuleMode := .strict

structure AcquireSetCommand where
  setID : GoStr
  requestID : GoStr
  members : List AcquireSetMember
  ttl : Duration
  renewBefore : Duration
  now : Time

structure AcquireSetResult where
  set : LeaseSet := {}
  replayed : Bool := false
  remainingSlots : ℤ := 0
  capacityExceeded : Bool := false
  rejected : Bool := false
  lockOrder : List GoStr := []
  denyingRuleID : GoStr := []

structure RenewSetCommand where
  setID : GoStr
  requestID : GoStr
  expectedGeneration : Int64
  ttl : Duration
  renewBefore : Duration
  now : Time

structure ReleaseSetCommand where
  setID : GoStr
  requestID : GoStr
  reason : GoStr
  now : Time

structure ReleaseCommand where
  leaseID : GoStr
  requestID : GoStr
  reason : GoStr
  now : Time

def AcquireSetCommand.lockOrder (cmd : AcquireSetCommand) : List GoStr :=
  sortedRuleIDs (cmd.members.map fun m => trimSpace m.ruleID)

/-- The lease that a store writes for a member of a newly acquired set. -/
def AcquireSetCommand.grant (cmd : AcquireSetCommand) (m : AcquireSetMember) : Lease :=
  { m.lease with
    identityVersion := 2
    setID := cmd.setID
    setGeneration := 1
    setState := .active
    state := .active
    acquiredAt := cmd.now
    renewedAt := cmd.now
    expiresAt := cmd.now.add cmd.ttl
    generation := 1
    logicalID := cmd.requestID
    ruleID := if m.lease.ruleID = [] then m.ruleID else m.lease.ruleID }

def AcquireSetCommand.acquiredSet (cmd : AcquireSetCommand) (members : List Lease) : LeaseSet where
  setID := cmd.setID
  requestID := cmd.requestID
  generation := 1
  state := .active
  members := members
  acquiredAt := cmd.now
  renewedAt := cmd.now
  expiresAt := cmd.now.add cmd.ttl
  renewBefore := cmd.renewBefore
  ttl := cmd.ttl

lemma not_expiryPassed_antitone {e t t' : Time} (ht : t ≤ t') (h : expiryPassed e t' = false) :
    expiryPassed e t = false := by
  simp only [expiryPassed, Bool.and_eq_false_iff, decide_eq_false_iff_not] at h ⊢
  exact h.imp_right fun hlate hearly => hlate (hearly.trans ht)

variable {l : Lease}

lemma Lease.isLive_eq_true {now : Time} : l.isLive now ↔ l.state ≠ .released ∧
      l.state ≠ .expired ∧ (l.setState = .uncertain ∨
        expiryPassed l.expiresAt now = false ∧
        (l.state = .active ∨ l.state = .expiring ∨ l.state = .unset)) := by
  unfold Lease.isLive
  cases l.state <;> by_cases hs : l.setState = .uncertain <;>
    cases expiryPassed l.expiresAt now <;> simp

lemma Lease.isLive_antitone {t t' : Time} (ht : t ≤ t') (h : l.isLive t') : l.isLive t := by
  rw [Lease.isLive_eq_true] at h ⊢
  refine ⟨h.1, h.2.1, ?_⟩
  rcases h.2.2 with hu | ⟨hexp, hst⟩
  · exact .inl hu
  · exact .inr ⟨not_expiryPassed_antitone ht hexp, hst⟩

@[simp] lemma Lease.release_state (l : Lease) (now : Time) : (l.release now).state = .released := by
  unfold Lease.release
  split_ifs with h
  · exact h
  · rfl

lemma Lease.not_live_of_released (h : l.state = .released) (t : Time) : l.isLive t = false := by
  simp [Lease.isLive, h]

lemma validateTiming_ttl_pos {ttl renewBefore : Duration}
    (h : validateTiming ttl renewBefore = .ok ()) : 0 < ttl.toInt := by
  unfold validateTiming at h
  split at h
  · cases h
  · rename_i hle
    rw [Int64.le_iff_toInt_le] at hle
    simpa using hle

lemma AcquireSetCommand.grant_isLive {cmd : AcquireSetCommand} (m : AcquireSetMember)
    (h : validateTiming cmd.ttl cmd.renewBefore = .ok ()) : (cmd.grant m).isLive cmd.now := by
  have hpos := validateTiming_ttl_pos h
  rw [Lease.isLive_eq_true]
  refine ⟨by simp [grant], by simp [grant], .inr ⟨?_, .inl rfl⟩⟩
  rw [expiryPassed, Bool.and_eq_false_iff]
  have hlater : cmd.now < cmd.now.add cmd.ttl := Int.lt_add_of_pos_right cmd.now hpos
  exact .inr (decide_eq_false (not_le.mpr hlater))

lemma mem_sortByRule {leases : List Lease} : l ∈ sortByRule leases ↔ l ∈ leases :=
  (List.perm_insertionSort _ leases).mem_iff

lemma mem_sortedRuleIDs {id : GoStr} {ids : List GoStr} : id ∈ sortedRuleIDs ids ↔ id ∈ ids :=
  (List.perm_insertionSort _ ids).mem_iff

end InteractiveProxy.Concurrency
