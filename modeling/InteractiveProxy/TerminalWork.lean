import InteractiveProxy.GoText
import InteractiveProxy.GuardedRun
import InteractiveProxy.KeyedTable
import InteractiveProxy.SignedWord
import Mathlib.Data.List.Sort

/-! Terminal work: the states of a work item, its claims and retries, the in-memory store, and the
processors that share it. A processor claims a batch of due items and closes each as its invocation
ends; the steps of all interleave. -/
namespace InteractiveProxy.TerminalWork

open GoText GuardedRun KeyedTable SignedWord

inductive WorkKind
  | appendFact
  | settleRequestProvider
  | releaseRequestProvider
  | settleAttemptProvider
  | releaseAttemptProvider
  | compensateProvider
  | releaseLeaseSet
  | authoritativeCorrection
  | other (raw : GoStr)
  deriving DecidableEq

def WorkKind.text : WorkKind → GoStr
  | .appendFact => lit "append_fact"
  | .settleRequestProvider => lit "settle_request_provider"
  | .releaseRequestProvider => lit "release_request_provider"
  | .settleAttemptProvider => lit "settle_attempt_provider"
  | .releaseAttemptProvider => lit "release_attempt_provider"
  | .compensateProvider => lit "compensate_provider"
  | .releaseLeaseSet => lit "release_lease_set"
  | .authoritativeCorrection => lit "authoritative_correction"
  | .other raw => raw

def WorkKind.requiresProvider : WorkKind → Bool
  | .settleRequestProvider | .releaseRequestProvider | .settleAttemptProvider | .releaseAttemptProvider
  | .compensateProvider => true
  | _ => false

inductive WorkState
  | intent
  | pending
  | claimed
  | completed
  | retry
  | quarantined
  | other (raw : GoStr)
  deriving DecidableEq

def WorkState.text : WorkState → GoStr
  | .intent => lit "intent"
  | .pending => lit "pending"
  | .claimed => lit "claimed"
  | .completed => lit "completed"
  | .retry => lit "retry"
  | .quarantined => lit "quarantined"
  | .other raw => raw

structure SourceKey where
  identityVersion : Int64
  key : GoStr
  deriving DecidableEq

def SourceKey.string (k : SourceKey) : GoStr :=
  lit "v" ++ formatInt k.identityVersion.toInt ++ lit ":" ++ k.key

inductive WorkError
  | invalid (what : GoStr)
  | invalidTransition (what : GoStr)
  | conflict
  | claimLeaseHeld
  | notDue
  | permanent
  | notFound
  | identityCollision (workID : GoStr) (sourceKey : SourceKey)
  | inStore (e : WorkError)

def WorkKind.validate : WorkKind → Except WorkError Unit
  | .other raw => .error (.invalid (lit "unknown work kind " ++ raw))
  | _ => .ok ()

def WorkState.validate : WorkState → Except WorkError Unit
  | .other raw => .error (.invalid (lit "unknown work state " ++ raw))
  | _ => .ok ()

def SourceKey.validate (k : SourceKey) : Except WorkError Unit := do
  reject (k.identityVersion < 1) (.invalid (lit "source key identity version"))
  reject (trimSpace k.key = []) (.invalid (lit "empty source key"))

structure ClaimLease where
  ownerID : GoStr := []
  expiresAt : Time := 0
  deriving DecidableEq

def ClaimLease.heldAt (l : ClaimLease) (now : Time) : Bool := l.ownerID ≠ [] && now < l.expiresAt

structure BoundedError where
  code : GoStr := []
  permanent : Bool := false
  message : GoStr := []

structure RetrySchedule where
  initial : Duration
  multiplier : Int64
  max : Duration

/-- The loop of `delay`, with the doublings that are left. -/
def delayLoop (limit : Duration) (mult : Int64) : ℕ → Duration → Duration
  | 0, d => if 0 < limit ∧ limit < d then limit else d
  | n + 1, d => if 0 < limit ∧ limit < d * mult then limit else delayLoop limit mult n (d * mult)

def RetrySchedule.delay (s : RetrySchedule) (attempt : Int64) : Duration :=
  delayLoop s.max (Max.max s.multiplier 1) ((Max.max attempt 1).toInt - 1).toNat s.initial

structure WorkItem where
  state : WorkState
  attempts : Int64
  nextRetryAt : Time
  lease : ClaimLease
  error : BoundedError

namespace WorkItem

def wrongState (what : String) (s : WorkState) : WorkError :=
  .invalidTransition (lit what ++ lit " from " ++ s.text)

def markPending (w : WorkItem) : Except WorkError WorkItem :=
  if w.state ≠ .intent then .error (.invalidTransition (w.state.text ++ lit " -> pending"))
  else .ok { w with state := .pending }

def checkClaimant (ownerID : GoStr) (ttl : Duration) : Except WorkError Unit := do
  reject (trimSpace ownerID = []) (.invalid (lit "empty claim owner"))
  reject (ttl ≤ 0) (.invalid (lit "non-positive claim ttl"))

/-- Whether a claim at `now` may take the item. -/
def claimable (w : WorkItem) (now : Time) : Except WorkError Unit :=
  match w.state with
  | .pending => .ok ()
  | .retry => reject (now < w.nextRetryAt) .notDue
  | .claimed => reject (w.lease.heldAt now = true) .claimLeaseHeld
  | s => .error (wrongState "claim" s)

def claim (w : WorkItem) (ownerID : GoStr) (ttl : Duration) (now : Time) :
    Except WorkError WorkItem := do
  checkClaimant ownerID ttl
  w.claimable now
  return { w with state := .claimed, lease := ⟨ownerID, now.add ttl⟩ }

def complete (w : WorkItem) : Except WorkError WorkItem :=
  if w.state ≠ .claimed then .error (wrongState "complete" w.state)
  else .ok { w with state := .completed, lease := {}, error := {} }

def retry (w : WorkItem) (schedule : RetrySchedule) (now : Time) (err : BoundedError) :
    Except WorkError WorkItem :=
  if w.state ≠ .claimed then .error (wrongState "retry" w.state)
  else if err.permanent then .error .permanent
  else .ok { w with
    attempts := w.attempts + 1
    nextRetryAt := now.add (schedule.delay (w.attempts + 1))
    state := .retry
    lease := {}
    error := err }

def renewClaim (w : WorkItem) (ownerID : GoStr) (ttl : Duration) (now : Time) :
    Except WorkError WorkItem := do
  checkClaimant ownerID ttl
  reject (w.state ≠ .claimed) (wrongState "renew" w.state)
  reject (w.lease.ownerID ≠ ownerID) .conflict
  reject (w.lease.heldAt now = false) .claimLeaseHeld
  return { w with lease := ⟨w.lease.ownerID, now.add ttl⟩ }

def quarantine (w : WorkItem) (err : BoundedError) : Except WorkError WorkItem :=
  match w.state with
  | .pending | .claimed | .retry => .ok { w with state := .quarantined, lease := {}, error := err }
  | s => .error (wrongState "quarantine" s)

end WorkItem

structure LifecycleCorrelation where
  requestID : GoStr
  attemptID : GoStr
  traceID : GoStr
  deriving DecidableEq

structure BoundVersions where
  generationID : GoStr
  runtimeInstanceID : GoStr
  runtimeGenerationID : GoStr
  providerID : GoStr
  ratingID : GoStr
  deriving DecidableEq

structure Intent where
  sourceKey : SourceKey
  workID : GoStr
  payloadVersion : Int64
  kind : WorkKind
  providerID : GoStr
  lifecycle : LifecycleCorrelation
  versions : BoundVersions
  factID : GoStr
  leaseSetID : GoStr
  payload : List UInt8
  deriving DecidableEq

structure WorkRecord extends Intent, WorkItem where
  createdAt : Time
  updatedAt : Time

namespace WorkRecord

def validate (r : WorkRecord) : Except WorkError Unit := do
  r.sourceKey.validate
  reject (trimSpace r.workID = []) (.invalid (lit "empty work id"))
  reject (r.payloadVersion < 1) (.invalid (lit "payload version"))
  r.kind.validate
  r.state.validate
  reject (r.kind.requiresProvider ∧ trimSpace r.providerID = [])
    (.invalid (lit "provider required for " ++ r.kind.text))

def applyWorkItem (r : WorkRecord) (w : WorkItem) (now : Time) : WorkRecord :=
  { r with toWorkItem := w, updatedAt := now }

def sameIntentReplay (a b : WorkRecord) : Bool := a.toIntent = b.toIntent

def isDueForClaim (r : WorkRecord) (now : Time) : Bool :=
  match r.state with
  | .pending => true
  | .retry => !(now < r.nextRetryAt)
  | .claimed => !r.lease.heldAt now
  | _ => false

def before (a b : WorkRecord) : Bool :=
  if a.createdAt = b.createdAt then a.workID < b.workID else a.createdAt < b.createdAt

end WorkRecord

structure ClaimDueCommand where
  ownerID : GoStr
  ttl : Duration
  limit : Int64
  now : Time
  providerID : GoStr := []
  kind : Option WorkKind := none

structure RenewClaimCommand where
  workID : GoStr
  ownerID : GoStr
  ttl : Duration
  now : Time

structure CompleteCommand where
  workID : GoStr
  expectedOwnerID : GoStr
  now : Time

structure ScheduleRetryCommand where
  workID : GoStr
  expectedOwnerID : GoStr
  schedule : RetrySchedule
  err : BoundedError
  now : Time

structure QuarantineCommand where
  workID : GoStr
  err : BoundedError
  now : Time

structure PromotePendingCommand where
  workID : GoStr
  now : Time

structure AppendIntentOutcome where
  inserted : Bool := false
  replay : Bool := false

structure MemoryStore where
  storeID : GoStr
  byWork : Table GoStr WorkRecord := ∅
  bySource : Table GoStr GoStr := ∅

def orClock (now clock : Time) : Time := if now = 0 then clock else now

namespace MemoryStore

variable (s : MemoryStore)

def storeKey (workID : GoStr) : GoStr := s.storeID ++ 0 :: workID

def sourceIndex (key : SourceKey) : GoStr := s.storeID ++ 0 :: key.string

def put (r : WorkRecord) : MemoryStore :=
  { s with byWork := s.byWork.insert (s.storeKey r.workID) r }

def find (workID : GoStr) : Option WorkRecord := s.byWork.lookup (s.storeKey workID)

def resolveExistingOutcome (existing incoming : WorkRecord) :
    Except WorkError AppendIntentOutcome :=
  if existing.sameIntentReplay incoming then .ok { replay := true }
  else .error (.identityCollision incoming.workID incoming.sourceKey)

def zeroRecord : WorkRecord where
  sourceKey := ⟨0, []⟩
  workID := []
  payloadVersion := 0
  kind := .other []
  providerID := []
  lifecycle := ⟨[], [], []⟩
  versions := ⟨[], [], [], [], []⟩
  factID := []
  leaseSetID := []
  payload := []
  state := .other []
  attempts := 0
  nextRetryAt := 0
  lease := {}
  error := {}
  createdAt := 0
  updatedAt := 0

def appendIntentOutcome (r : WorkRecord) (clock : Time) :
    MemoryStore × Except WorkError AppendIntentOutcome :=
  match r.validate with
  | .error e => (s, .error (.inStore e))
  | .ok _ =>
    let r := { r with
      createdAt := if r.createdAt = 0 then clock else r.createdAt
      updatedAt := if r.updatedAt = 0 then clock else r.updatedAt }
    match s.find r.workID with
    | some existing => (s, resolveExistingOutcome existing r)
    | none =>
      match s.bySource.lookup (s.sourceIndex r.sourceKey) with
      | some workID => (s, resolveExistingOutcome ((s.find workID).getD zeroRecord) r)
      | none =>
        ({ s.put r with bySource := s.bySource.insert (s.sourceIndex r.sourceKey) r.workID }, .ok { inserted := true })

/-- Looks a record up and replaces it by what a transition makes of it. -/
def update (workID : GoStr) (now : Time) (transition : WorkRecord → Except WorkError WorkItem) :
    MemoryStore × Except WorkError Unit :=
  match s.find workID with
  | none => (s, .error .notFound)
  | some r =>
    match transition r with
    | .error e => (s, .error e)
    | .ok item => (s.put (r.applyWorkItem item now), .ok ())

def promotePending (cmd : PromotePendingCommand) (clock : Time) :
    MemoryStore × Except WorkError Unit :=
  match s.find cmd.workID with
  | some r => if r.state = .pending then (s, .ok ())
    else s.update cmd.workID (orClock cmd.now clock) (·.markPending)
  | none => (s, .error .notFound)

def checkClaimDue (cmd : ClaimDueCommand) : Except WorkError Unit := do
  WorkItem.checkClaimant cmd.ownerID cmd.ttl
  reject (cmd.limit < 0) (.invalid (lit "negative claim limit"))

def wanted (cmd : ClaimDueCommand) (now : Time) (row : GoStr × WorkRecord) : Bool :=
  (s.storeID ++ [0]).isPrefixOf row.1 &&
    (trimSpace cmd.providerID = [] || row.2.providerID = trimSpace cmd.providerID) &&
    cmd.kind.all (row.2.kind = ·) && row.2.isDueForClaim now

def claimEach (cmd : ClaimDueCommand) (now : Time) :
    MemoryStore → ℕ → List WorkRecord → MemoryStore × List WorkRecord
  | s, _, [] => (s, [])
  | s, 0, _ => (s, [])
  | s, room + 1, r :: rest =>
    match r.claim cmd.ownerID cmd.ttl now with
    | .error _ => claimEach cmd now s (room + 1) rest
    | .ok item =>
      let r := r.applyWorkItem item now
      let (s, out) := claimEach cmd now (s.put r) room rest
      (s, r :: out)

def claimDue (cmd : ClaimDueCommand) (order : RangeOrder (GoStr × WorkRecord)) (clock : Time) :
    MemoryStore × Except WorkError (List WorkRecord) :=
  match checkClaimDue cmd with
  | .error e => (s, .error e)
  | .ok _ =>
    let now := orClock cmd.now clock
    let limit := if cmd.limit = 0 then 1 else cmd.limit.toInt.toNat
    let candidates := ((pairsIn order s.byWork).filter (s.wanted cmd now)).map Prod.snd
    let (s, out) :=
      claimEach cmd now s limit (candidates.insertionSort fun a b => b.before a = false)
    (s, .ok out)

def checkRenewClaim (cmd : RenewClaimCommand) : Except WorkError Unit := do
  reject (trimSpace cmd.workID = []) (.invalid (lit "empty work id"))
  WorkItem.checkClaimant cmd.ownerID cmd.ttl

def renewClaim (s : MemoryStore) (cmd : RenewClaimCommand) (clock : Time) :
    MemoryStore × Except WorkError Unit :=
  match checkRenewClaim cmd with
  | .error e => (s, .error e)
  | .ok _ =>
    let now := orClock cmd.now clock
    s.update cmd.workID now fun r => r.toWorkItem.renewClaim cmd.ownerID cmd.ttl now

def ifOwner (ownerID : GoStr) (transition : WorkItem → Except WorkError WorkItem)
    (r : WorkRecord) : Except WorkError WorkItem :=
  if r.state ≠ .claimed ∨ r.lease.ownerID ≠ ownerID then .error .conflict
  else transition r.toWorkItem

def complete (s : MemoryStore) (cmd : CompleteCommand) (clock : Time) :
    MemoryStore × Except WorkError Unit :=
  s.update cmd.workID (orClock cmd.now clock) (ifOwner cmd.expectedOwnerID WorkItem.complete)

def scheduleRetry (cmd : ScheduleRetryCommand) (clock : Time) :
    MemoryStore × Except WorkError Unit :=
  let now := orClock cmd.now clock
  s.update cmd.workID now (ifOwner cmd.expectedOwnerID fun w => w.retry cmd.schedule now cmd.err)

/-- The only transition of a claimed item that does not ask for its owner. -/
def quarantine (s : MemoryStore) (cmd : QuarantineCommand) (clock : Time) :
    MemoryStore × Except WorkError Unit :=
  s.update cmd.workID (orClock cmd.now clock) fun r => r.toWorkItem.quarantine cmd.err

end MemoryStore

inductive Sentinel
  | invalidPayload
  | missingProvider
  | unsupportedKind
  | malformedProvider
  | claimRenewFailed
  | providerTimeout
  | deadlineExceeded
  | providerOutage
  | ambiguousCommit
  | canceled
  deriving DecidableEq

/-- An error, by what `errors.Is` says about it. -/
structure InvokeError where
  is : Sentinel → Bool

namespace InvokeError

def isPermanent (e : InvokeError) : Bool :=
  e.is .invalidPayload || e.is .unsupportedKind || e.is .malformedProvider

def errorCode (e : InvokeError) : GoStr :=
  if e.is .invalidPayload then lit "invalid_payload"
  else if e.is .missingProvider then lit "missing_provider"
  else if e.is .unsupportedKind then lit "unsupported_kind"
  else if e.is .malformedProvider then lit "malformed_provider"
  else if e.is .claimRenewFailed then lit "claim_renew_failed"
  else if e.is .providerTimeout || e.is .deadlineExceeded then lit "timeout"
  else if e.is .providerOutage then lit "outage"
  else if e.is .ambiguousCommit then lit "ambiguous_commit"
  else if e.is .canceled then lit "canceled"
  else lit "invoke_error"

def safeErrorMessage (e : InvokeError) : GoStr :=
  if e.errorCode = lit "invalid_payload" then lit "invalid payload"
  else if e.errorCode = lit "missing_provider" then lit "missing provider"
  else if e.errorCode = lit "unsupported_kind" then lit "unsupported work kind"
  else if e.errorCode = lit "malformed_provider" then lit "malformed provider"
  else if e.errorCode = lit "claim_renew_failed" then lit "claim renew failed"
  else if e.errorCode = lit "timeout" then lit "provider timeout"
  else if e.errorCode = lit "outage" then lit "provider outage"
  else if e.errorCode = lit "ambiguous_commit" then lit "ambiguous commit"
  else if e.errorCode = lit "canceled" then lit "canceled"
  else lit "provider invoke failed"

def bounded (e : InvokeError) (permanent : Bool) : BoundedError :=
  ⟨e.errorCode, permanent, e.safeErrorMessage⟩

def renewFailed : InvokeError := ⟨(· = .claimRenewFailed)⟩

end InvokeError

structure Config where
  ownerID : GoStr
  claimTTL : Duration
  claimLimit : Int64
  retrySchedule : RetrySchedule

/-- An item that a processor has claimed and not closed. `takenOver` is no part of the program: it
says that another processor has claimed the item since. -/
structure Invocation where
  workID : GoStr
  renewFailed : Bool := false
  takenOver : Bool := false
  deriving DecidableEq

def Invocation.outcome (v : Invocation) (result : Option InvokeError) : Option InvokeError :=
  if v.renewFailed then
    match result with
    | none => some .renewFailed
    | some e => if e.is .canceled then some .renewFailed else some e
  else result

variable {ι : Type} [DecidableEq ι]

structure System (ι : Type) where
  store : MemoryStore
  working : ι → List Invocation := fun _ => []

/-- The steps of the processors, and of those who add work. The clocks are read anew for each step.
-/
inductive Op (ι : Type)
  | appendIntent (r : WorkRecord) (clock : Time)
  | promotePending (cmd : PromotePendingCommand) (clock : Time)
  | claimDue (i : ι) (now clock : Time) (order : RangeOrder (GoStr × WorkRecord))
  | renewClaim (i : ι) (workID : GoStr) (now clock : Time)
  | giveUp (i : ι) (workID : GoStr)
  | finish (i : ι) (workID : GoStr) (result : Option InvokeError) (now clock : Time)

namespace System

def invocation (s : System ι) (i : ι) (workID : GoStr) : Option Invocation :=
  (s.working i).find? (·.workID = workID)

def setWorking (s : System ι) (i : ι) (f : List Invocation → List Invocation) :
    ι → List Invocation :=
  Function.update s.working i (f (s.working i))

def drop (workID : GoStr) (vs : List Invocation) : List Invocation :=
  vs.filter (·.workID ≠ workID)

/-- Others that work on an item which is claimed here have been taken over. -/
def supersede (claimed : List WorkRecord) (vs : List Invocation) : List Invocation :=
  vs.map fun v => { v with takenOver := v.takenOver || claimed.any (·.workID = v.workID) }

end System

variable (cfg : ι → Config) {mult : Int64} {d : Duration} {k : ℕ}

/-- How an item is closed when its invocation has ended. -/
def close (s : MemoryStore) (c : Config) (workID : GoStr) (outcome : Option InvokeError)
    (now clock : Time) : MemoryStore :=
  match outcome with
  | none => (s.complete ⟨workID, c.ownerID, now⟩ clock).1
  | some e =>
    if e.isPermanent then (s.quarantine ⟨workID, e.bounded true, now⟩ clock).1
    else (s.scheduleRetry ⟨workID, c.ownerID, c.retrySchedule, e.bounded false, now⟩ clock).1

def step (s : System ι) : Op ι → System ι
  | .appendIntent r clock => { s with store := (s.store.appendIntentOutcome r clock).1 }
  | .promotePending cmd clock => { s with store := (s.store.promotePending cmd clock).1 }
  | .claimDue i now clock order =>
    -- a processor waits for its batch before it claims again
    if s.working i ≠ [] then s
    else
      match s.store.claimDue ⟨(cfg i).ownerID, (cfg i).claimTTL, (cfg i).claimLimit, now, [], none⟩ order clock with
      | (store, .error _) => { s with store }
      | (store, .ok claimed) =>
        ⟨store, fun j => if j = i then claimed.map ({ workID := ·.workID }) else System.supersede claimed (s.working j)⟩
  | .renewClaim i workID now clock =>
    match s.invocation i workID with
    | none => s
    | some v =>
      -- the loop of renewals ends with the first that fails
      if v.renewFailed then s
      else
        match s.store.renewClaim ⟨workID, (cfg i).ownerID, (cfg i).claimTTL, now⟩ clock with
        | (store, .ok _) => { s with store }
        | (store, .error _) =>
          ⟨store, s.setWorking i fun vs => vs.map fun v => if v.workID = workID then
            { v with renewFailed := true } else v⟩
  | .giveUp i workID => { s with working := s.setWorking i (System.drop workID) }
  | .finish i workID result now clock =>
    match s.invocation i workID with
    | none => s
    | some v =>
      ⟨close s.store (cfg i) workID (v.outcome result) now clock, s.setWorking i (System.drop workID)⟩

/-- The 64-bit value of a delay that has been multiplied `k` times. -/
def product (d : Duration) (mult : Int64) (k : ℕ) : Duration := .ofInt (d.toInt * mult.toInt ^ k)

lemma product_zero : product d mult 0 = d := by
  rw [product, pow_zero, mul_one, Int64.ofInt_toInt]

lemma product_mul : product (d * mult) mult k = product d mult (k + 1) := by
  simp only [product, pow_succ', ← mul_assoc, Int64.ofInt_mul, Int64.ofInt_toInt]

/-- The loop works with the 64-bit values of the exact products. -/
lemma delayLoop_eq {limit : Duration} {n : ℕ} (hlimit : 0 < limit) : delayLoop limit mult n d =
    if ∃ j < n, limit < product d mult (j + 1) then limit
    else if limit < product d mult n then limit else product d mult n := by
  induction n generalizing d with
  | zero => simp [delayLoop, hlimit, product_zero]
  | succ n ih =>
    have hfirst : d * mult = product d mult (0 + 1) := by rw [← product_mul, product_zero]
    rw [delayLoop, ih]
    simp only [product_mul, hlimit, true_and, Nat.exists_lt_succ_left]
    rw [← hfirst]
    by_cases hnow : limit < d * mult <;> simp [hnow]

namespace RetrySchedule

variable (s : RetrySchedule)

/-- The delay after `k` retries before it is capped. -/
def uncapped (k : ℕ) : ℤ := s.initial.toInt * s.multiplier.toInt ^ k

def backoff (n : Int64) : ℤ := min (s.uncapped (n.toInt - 1).toNat) s.max.toInt

/-- The delay is within the maximum, or its 64-bit value is not below it, or that of an earlier one
is above it. -/
def SeenAbove (k : ℕ) : Prop :=
  s.uncapped k ≤ s.max.toInt ∨ s.max ≤ product s.initial s.multiplier k ∨
    ∃ j < k, s.max < product s.initial s.multiplier (j + 1)

section

variable {s} (hinitial : 0 < s.initial.toInt) (hmult : 1 ≤ s.multiplier.toInt)

include hinitial hmult

lemma uncapped_mono {j : ℕ} (hjk : j ≤ k) : s.uncapped j ≤ s.uncapped k :=
  mul_le_mul_of_nonneg_left (pow_le_pow_right₀ hmult hjk) hinitial.le

lemma toInt_product (h : s.uncapped k ≤ s.max.toInt) :
    (product s.initial s.multiplier k).toInt = s.uncapped k := by
  have hpos : 0 < s.uncapped k := mul_pos hinitial (by positivity)
  exact Int64.toInt_ofInt_of_le (by change _ ≤ s.uncapped k; omega)
    (h.trans_lt (fits_toInt s.max).2)

lemma delayLoop_iff (hmax : 0 < s.max) (k : ℕ) :
    (delayLoop s.max s.multiplier k s.initial).toInt = min (s.uncapped k) s.max.toInt ↔
    s.SeenAbove k := by
  have hproduct := toInt_product hinitial hmult (k := k)
  -- a product that is seen to be above the maximum is
  have habove : ∀ j ≤ k, s.max < product s.initial s.multiplier j → s.max.toInt < s.uncapped k := by
    intro j hj hlt
    rw [Int64.lt_iff_toInt_lt] at hlt
    by_contra hle
    have hmono := uncapped_mono hinitial hmult hj
    rw [toInt_product hinitial hmult (by omega)] at hlt
    omega
  rw [delayLoop_eq hmax, SeenAbove, Int64.le_iff_toInt_le]
  split_ifs with hsome hlast
  · obtain ⟨j, hj, hlt⟩ := hsome
    exact iff_of_true (min_eq_right (habove (j + 1) hj hlt).le).symm (.inr (.inr ⟨j, hj, hlt⟩))
  · exact iff_of_true (min_eq_right (habove k le_rfl hlast).le).symm (.inr (.inl (Int64.lt_iff_toInt_lt.mp hlast).le))
  · rw [Int64.lt_iff_toInt_lt] at hlast
    simp only [hsome, or_false]
    omega

end

/-- The delays of a schedule are positive, at most the maximum and never falling. The code returns
them just when it sees that it is above the maximum, for it multiplies before it compares. -/
theorem delay_iff (hinitial : 0 < s.initial) (hmult : 1 ≤ s.multiplier) (hmax : 0 < s.max)
    (n : Int64) (hn : 1 ≤ n) :
    ((s.delay n).toInt = s.backoff n ↔ s.SeenAbove (n.toInt - 1).toNat) ∧ 0 < s.backoff n ∧
      s.backoff n ≤ s.max.toInt ∧ ∀ n', n ≤ n' → s.backoff n ≤ s.backoff n' := by
  rw [Int64.lt_iff_toInt_lt, toInt_zero] at hinitial
  rw [Int64.le_iff_toInt_le, Int64.toInt_one] at hmult hn
  have hsame : Max.max s.multiplier 1 = s.multiplier :=
    Int64.toInt_inj.mp (by rw [toInt_max, Int64.toInt_one]; omega)
  refine ⟨?_, lt_min (mul_pos hinitial (by positivity)) (Int64.lt_iff_toInt_lt.mp hmax),
    min_le_right _ _, fun n' hle => min_le_min_right _ (uncapped_mono hinitial hmult ?_)⟩
  · rw [delay, hsame, toInt_max, Int64.toInt_one, max_eq_left hn]
    exact delayLoop_iff hinitial hmult hmax _
  · rw [Int64.le_iff_toInt_le] at hle
    omega

theorem delay_iff_doubling : (delay ⟨1, 2, 8⟩ 4).toInt = backoff ⟨1, 2, 8⟩ 4 :=
  (delay_iff ⟨1, 2, 8⟩ (by decide) (by decide) (by decide) 4 (by decide)).1.mpr (.inl (by decide))

/-- Doubling from a second without a limit to speak of: the product wraps before it is compared. -/
theorem delay_wraps : delay ⟨1000000000, 2, Int64.maxValue⟩ 35 < 0 := by decide +kernel

end RetrySchedule
end InteractiveProxy.TerminalWork
