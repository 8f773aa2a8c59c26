import InteractiveProxy.AttributionDimensions
import InteractiveProxy.SignedWord

/-! Data of the usage authority: amounts, keys, limit rows, reservation records, the mutation
commands and their results. Open Go string enumerations keep their undocumented values under
`unknown`. -/
namespace InteractiveProxy.UsageAuthority

open GoText KeyedTable SignedWord Attribution

inductive AmountUnit
  | unset
  | requests
  | inputTokens
  | outputTokens
  | cacheReadTokens
  | cacheWriteTokens
  | reasoningTokens
  | totalTokens
  | unknown (name : GoStr)
  deriving DecidableEq

def AmountUnit.name : AmountUnit → GoStr
  | unset => []
  | requests => lit "requests"
  | inputTokens => lit "input_tokens"
  | outputTokens => lit "output_tokens"
  | cacheReadTokens => lit "cache_read_tokens"
  | cacheWriteTokens => lit "cache_write_tokens"
  | reasoningTokens => lit "reasoning_tokens"
  | totalTokens => lit "total_tokens"
  | unknown name => name

def AmountUnit.isKnown : AmountUnit → Bool
  | unset | unknown _ => false
  | _ => true

def AmountUnit.ifUnset (u fallback : AmountUnit) : AmountUnit := if u = .unset then fallback else u

structure Amount where
  unit : AmountUnit := .unset
  value : Int64 := 0
  deriving DecidableEq

inductive AmountError
  | retiredMonetaryAuthority (unit : AmountUnit)
  | unsupportedUnit (unit : AmountUnit)
  | negativeValue (value : Int64)

def Amount.validate (a : Amount) : Except AmountError Unit :=
  if equalFoldAscii a.unit.name (lit "money_nano") || equalFoldAscii a.unit.name (lit "money-nano") ||
      equalFoldAscii a.unit.name (lit "moneynano") then
    .error (.retiredMonetaryAuthority a.unit)
  else if !a.unit.isKnown then .error (.unsupportedUnit a.unit)
  else if a.value < 0 then .error (.negativeValue a.value)
  else .ok ()

/-- Per-unit estimates of one request (`PreflightUsage`). -/
structure PreflightUsage where
  inputTokens : Int64 := 0
  outputTokens : Int64 := 0
  cacheReadTokens : Int64 := 0
  cacheWriteTokens : Int64 := 0
  reasoningTokens : Int64 := 0
  totalTokens : Int64 := 0
  totalTokensPresent : Bool := false

def PreflightUsage.amountForUnit (p : PreflightUsage) : AmountUnit → Option Amount
  | .inputTokens => some ⟨.inputTokens, p.inputTokens⟩
  | .outputTokens => some ⟨.outputTokens, max p.outputTokens 0⟩
  | .cacheReadTokens => some ⟨.cacheReadTokens, p.cacheReadTokens⟩
  | .cacheWriteTokens => some ⟨.cacheWriteTokens, p.cacheWriteTokens⟩
  | .reasoningTokens => some ⟨.reasoningTokens, p.reasoningTokens⟩
  | .totalTokens =>
    -- cache is part of input and reasoning part of output, so neither is added again
    some ⟨.totalTokens, if p.totalTokensPresent then p.totalTokens else p.inputTokens + p.outputTokens⟩
  | _ => none

inductive AuthorityLevel
  | any
  | estimated
  | authoritative
  | unavailable
  | unknown (name : GoStr)
  deriving DecidableEq

def AuthorityLevel.name : AuthorityLevel → GoStr
  | any => []
  | estimated => lit "estimated"
  | authoritative => lit "authoritative"
  | unavailable => lit "unavailable"
  | unknown name => name

inductive RuleKind
  | quota
  | rate
  | unset
  | unknown (name : GoStr)
  deriving DecidableEq

def RuleKind.isKnown : RuleKind → Bool
  | quota | rate => true
  | _ => false

inductive SettlementKind
  | final
  | partialUsage
  | unavailable
  | cancellation
  | swallowed
  | losing
  | unknown (name : GoStr)
  deriving DecidableEq

def SettlementKind.name : SettlementKind → GoStr
  | final => lit "final"
  | partialUsage => lit "partial"
  | unavailable => lit "unavailable"
  | cancellation => lit "cancellation"
  | swallowed => lit "swallowed"
  | losing => lit "losing"
  | unknown name => name

inductive ReleaseKind
  | swallowed
  | losing
  | admissionFailure
  | unknown (name : GoStr)

def ReleaseKind.name : ReleaseKind → GoStr
  | swallowed => lit "swallowed"
  | losing => lit "losing"
  | admissionFailure => lit "admission_failure"
  | unknown name => name

structure ReservationKey where
  logicalRequestID : GoStr := []
  aLegID : GoStr := []
  bLegID : GoStr := []
  attemptID : GoStr := []
  ruleID : GoStr := []
  sequence : ℤ := 0
  keyNamespace : GoStr := []

def ReservationKey.string (k : ReservationKey) : GoStr :=
  let base := k.logicalRequestID ++ lit "|" ++ k.aLegID ++ lit "|" ++ k.bLegID ++ lit "|" ++
    k.attemptID ++ lit "|" ++ k.ruleID ++ lit "|" ++ itoa k.sequence
  let ns := trimSpace k.keyNamespace
  if ns ≠ [] then ns ++ lit "|" ++ base else base

structure SettlementKey where
  reservationKey : ReservationKey := {}
  sequence : ℤ := 0

def SettlementKey.string (k : SettlementKey) : GoStr :=
  k.reservationKey.string ++ lit "|settle|" ++ itoa k.sequence

structure ReleaseKey where
  reservationKey : ReservationKey := {}
  sequence : ℤ := 0

def ReleaseKey.string (k : ReleaseKey) : GoStr :=
  k.reservationKey.string ++ lit "|release|" ++ itoa k.sequence

structure Correlation where
  traceID : GoStr := []
  requestID : GoStr := []
  sessionID : GoStr := []
  aLegID : GoStr := []
  bLegID : GoStr := []
  attemptSeq : ℤ := 0
  frontendID : GoStr := []
  backendID : GoStr := []
  model : GoStr := []
  parentTraceID : GoStr := []

structure PrincipalScopeView where
  subjectKind : GoStr := []
  principalID : ScopeValue := {}
  displayName : ScopeValue := {}
  authMethod : ScopeValue := {}
  credentialID : ScopeValue := {}
  roles : List GoStr := []
  safeClaims : Table GoStr GoStr := ∅
  tenantID : ScopeValue := {}
  organizationID : ScopeValue := {}
  workspaceID : ScopeValue := {}
  projectID : ScopeValue := {}
  departmentID : ScopeValue := {}
  costCenterID : ScopeValue := {}
  policyLabels : Table GoStr GoStr := ∅
  origin : GoStr := []
  parentTraceID : ScopeValue := {}

structure ScopeSnapshot where
  principal : PrincipalScopeView := {}
  principalID : ScopeValue := {}
  credentialID : ScopeValue := {}
  tenantID : ScopeValue := {}
  organizationID : ScopeValue := {}
  workspaceID : ScopeValue := {}
  projectID : ScopeValue := {}
  departmentID : ScopeValue := {}
  costCenterID : ScopeValue := {}

structure LimitRowIdentity where
  ruleID : GoStr
  authorityNamespace : GoStr
  perspective : GoStr
  lifecycleScope : GoStr
  basis : GoStr
  ruleVersion : GoStr
  correlation : Correlation
  scope : ScopeSnapshot
  unit : AmountUnit
  windowStart : Time
  windowEnd : Time

/-- `AccountingLimitStatusRow`: the identity and the counters of one limit in one window. -/
structure LimitRow where
  correlation : Correlation := {}
  scope : ScopeSnapshot := {}
  ruleID : GoStr := []
  ruleType : RuleKind := .unset
  unit : AmountUnit := .unset
  limit : Int64 := 0
  consumed : Int64 := 0
  reserved : Int64 := 0
  remaining : Int64 := 0
  adjustment : Int64 := 0
  windowStart : Time := 0
  windowEnd : Time := 0
  windowResetAt : Time := 0
  authorityNamespace : GoStr := []
  perspective : GoStr := []
  lifecycleScope : GoStr := []
  basis : GoStr := []
  ruleVersion : GoStr := []

inductive WindowAlgorithm
  | unset
  | fixed
  | unknown (name : GoStr)
  deriving DecidableEq

structure WindowSpec where
  algorithm : WindowAlgorithm := .unset
  size : Duration := 0
  anchor : Time := 0

structure WindowBounds where
  start : Time
  finish : Time

inductive WindowError
  | algorithmRequired
  | unsupportedAlgorithm (algorithm : WindowAlgorithm)
  | sizeNotPositive

/-- `WindowSpec.Bounds`: the fixed window that holds `at`. Durations divide towards zero, so a
negative offset that is not a multiple of the size belongs one step further down. -/
def WindowSpec.bounds (s : WindowSpec) (at_ : Time) : Except WindowError WindowBounds :=
  match s.algorithm with
  | .unset => .error .algorithmRequired
  | .unknown name => .error (.unsupportedAlgorithm (.unknown name))
  | .fixed =>
    if s.size ≤ 0 then .error .sizeNotPositive
    else
      let offset := Time.sub at_ s.anchor
      let step := if offset < 0 ∧ offset % s.size ≠ 0 then offset / s.size - 1 else offset / s.size
      let start := Time.add s.anchor (step * s.size)
      .ok ⟨start, Time.add start s.size⟩

inductive BackingCapability
  | unset
  | disabled
  | atomic
  | advisoryOnly
  | degraded
  | unavailable
  | unknown (name : GoStr)
  deriving DecidableEq

def BackingCapability.strictCapable (b : BackingCapability) : Bool := b = .atomic

inductive AuthorityState
  | disabled
  | ready
  | degraded
  | unavailable
  | advisoryOnly
  | unknown (name : GoStr)

def AuthorityState.isKnown : AuthorityState → Bool
  | unknown _ => false
  | _ => true

inductive StatusReason
  | none
  | disabledByConfig
  | backingUnavailable
  | backingDegraded
  | advisoryOnly
  | validationFailed
  | unknown (name : GoStr)

structure AuthorityStatus where
  state : AuthorityState := .unknown []
  reason : StatusReason := .unknown []

def statusFromBacking : BackingCapability → AuthorityStatus
  | .atomic => ⟨.ready, .none⟩
  | .advisoryOnly => ⟨.advisoryOnly, .advisoryOnly⟩
  | .degraded => ⟨.degraded, .backingDegraded⟩
  | .unavailable => ⟨.unavailable, .backingUnavailable⟩
  | _ => ⟨.disabled, .disabledByConfig⟩

/-- `app.MeasurementAuthority` with its one field `Usage`. -/
structure MeasurementAuthority where
  usage : AuthorityLevel := .any

def MeasurementAuthority.forUnit (a : MeasurementAuthority) (_ : AmountUnit) : AuthorityLevel :=
  if a.usage ≠ .any then a.usage else .any

structure ReservationRecord where
  reservationKey : GoStr
  limitRowKey : GoStr
  sourceKey : GoStr
  reservationID : GoStr
  ruleID : GoStr
  ruleType : RuleKind
  dimensions : Dimensions
  request : Amount
  authority : AuthorityLevel
  applied : Bool
  reservedAmount : Amount
  settled : Bool := false
  settledActual : Amount := {}
  settledAuthority : MeasurementAuthority := {}
  settlementSources : List GoStr := []
  released : Bool := false
  releaseSources : List GoStr := []
  createdAt : Time
  settledAt : Time := 0
  releasedAt : Time := 0
  settlementKind : SettlementKind := .unknown []
  releaseKind : ReleaseKind := .unknown []

structure UnreservedUsageFact where
  sourceKey : GoStr
  ruleID : GoStr
  limitRowKey : GoStr
  amount : Amount
  authority : AuthorityLevel
  measurementAuthority : MeasurementAuthority
  kind : SettlementKind
  recordedAt : Time

structure ReservationDescriptor where
  ruleID : GoStr := []
  kind : RuleKind := .unset
  unit : AmountUnit := .unset
  dimensions : Dimensions := {}
  reservationKey : ReservationKey := {}
  reservationID : GoStr := []
  amount : Amount := {}
  sourceKey : GoStr := []
  authority : AuthorityLevel := .any

structure SettlementDescriptor where
  reservation : ReservationDescriptor
  finalUsage : Amount := {}
  estimatedUsage : Amount := {}
  sourceKey : GoStr := []
  sequence : ℤ := 0
  authority : AuthorityLevel := .any
  measurementAuthority : MeasurementAuthority := {}

structure ReleaseDescriptor where
  reservation : ReservationDescriptor
  sourceKey : GoStr := []
  sequence : ℤ := 0

structure ReserveCommand where
  reservations : List ReservationDescriptor := []
  reservationKey : ReservationKey := {}
  ruleID : GoStr := []
  ruleType : RuleKind := .unset
  dimensions : Dimensions := {}
  request : Amount := {}
  authority : AuthorityLevel := .any
  estimateOnly : Bool := false
  issuedAt : Time := 0
  sourceKey : GoStr := []

structure SettleCommand where
  reservations : List SettlementDescriptor := []
  settlementKey : SettlementKey := {}
  reservationKey : ReservationKey := {}
  reservationID : GoStr := []
  ruleID : GoStr := []
  kind : SettlementKind := .final
  finalUsage : Amount := {}
  reservedUsage : Amount := {}
  estimatedUsage : Amount := {}
  authority : AuthorityLevel := .any
  measurementAuthority : MeasurementAuthority := {}
  finalUsagePresent : Bool := false
  issuedAt : Time := 0
  sourceKey : GoStr := []

structure ReleaseCommand where
  reservations : List ReleaseDescriptor := []
  releaseKey : ReleaseKey := {}
  reservationKey : ReservationKey := {}
  reservationID : GoStr := []
  ruleID : GoStr := []
  kind : ReleaseKind := .swallowed
  amount : Amount := {}
  issuedAt : Time := 0
  sourceKey : GoStr := []

structure ApplyUsageCommand where
  dimensions : Dimensions := {}
  ruleIDs : List GoStr := []
  usage : PreflightUsage := {}
  requestCount : Amount := {}
  authority : AuthorityLevel := .any
  measurementAuthority : MeasurementAuthority := {}
  kind : SettlementKind := .final
  issuedAt : Time := 0
  sourceKey : GoStr := []

structure AdmissionReservation where
  reservationID : GoStr
  ruleID : GoStr
  reservedAmount : Amount

structure ReserveResult where
  applied : Bool := false
  reservationID : GoStr := []
  reservedAmount : Amount := {}
  ruleID : GoStr := []
  ruleType : RuleKind := .unset
  reservations : List AdmissionReservation := []

structure SettlementMutation where
  ruleID : GoStr
  reservationID : GoStr
  releasedDelta : Amount
  overageDelta : Amount
  adjustmentDelta : Amount

structure SettleResult where
  applied : Bool := false
  reservationID : GoStr := []
  releasedDelta : Amount := {}
  overageDelta : Amount := {}
  adjustmentDelta : Amount := {}
  mutations : List SettlementMutation := []

structure ReleaseMutation where
  ruleID : GoStr
  reservationID : GoStr
  releasedDelta : Amount

structure ReleaseResult where
  applied : Bool := false
  reservationID : GoStr := []
  releasedDelta : Amount := {}
  mutations : List ReleaseMutation := []

structure ApplyUsageResult where
  applied : Bool
  ruleIDs : List GoStr

/-- What follows `reservation_conflict` in the error text. -/
inductive ConflictDetail
  | reservationSetEmpty
  | reservationSetPartiallyApplied
  | reservationKeyBelongsToAnotherSource
  | emptyReserveAmount
  | settlementSetEmpty
  | releaseSetEmpty
  | reservationNotFound
  | emptyReleaseAmount
  | advisoryRuleSetEmpty
  | invalidAmount (err : AmountError)
  | unitMismatch (amount row : AmountUnit)

inductive StoreError
  | disabled
  | degraded
  | unavailable
  | matchingLimitNotFound (op : GoStr)
  | conflict (detail : ConflictDetail)
  | duplicateSettlement
  | capacityExceeded (requested remaining : Amount)
  | ruleReservation (ruleID : GoStr) (err : StoreError)

inductive AccountingOutcome
  | deny
  | reserve
  | reconcile
  deriving DecidableEq

inductive AccountingAuthoritySource
  | authoritative
  | estimated
  | unavailable
  | advisory
  | reserved
  | reconciled

inductive SettlementState
  | pending
  | settled
  | released
  | unavailable

structure DecisionRecord where
  seq : Int64
  sourceKey : GoStr
  ruleID : GoStr
  outcome : AccountingOutcome
  reasonCode : GoStr
  authority : AccountingAuthoritySource
  reservationID : GoStr
  settlementState : SettlementState
  unit : AmountUnit
  limit : Int64
  consumed : Int64
  reserved : Int64
  remaining : Int64
  released : Int64
  overage : Int64
  adjustment : Int64
  windowStart : Time
  windowEnd : Time
  windowResetAt : Time
  authorityNamespace : GoStr
  perspective : GoStr
  lifecycleScope : GoStr
  basis : GoStr
  ruleVersion : GoStr

end InteractiveProxy.UsageAuthority

namespace InteractiveProxy.UsageAuthority.WindowSpec

open SignedWord

variable {s : WindowSpec} {t u : Time}

/-- The number of the window of `t`, counted from the one that starts at the anchor. -/
def index (s : WindowSpec) (t : Time) : ℤ := (t - s.anchor) / s.size.toInt

/-- `Bounds` puts `t` in a window of the configured size. -/
def Contains (s : WindowSpec) (t : Time) : Prop :=
  ∃ b, s.bounds t = .ok b ∧ b.start ≤ t ∧ t < b.finish ∧ b.finish - b.start = s.size.toInt

/-- The window of `t` starts within a duration of the anchor. -/
def InReach (s : WindowSpec) (t : Time) : Prop := Fits (s.index t * s.size.toInt)
  deriving Decidable

lemma valid_iff : (s.bounds s.anchor).isOk ↔ s.algorithm = .fixed ∧ 0 < s.size.toInt := by
  have hsize : s.size ≤ 0 ↔ ¬ 0 < s.size.toInt := by rw [Int64.le_iff_toInt_le, toInt_zero, not_lt]
  cases halg : s.algorithm <;> by_cases h : 0 < s.size.toInt <;>
    simp [bounds, halg, hsize, h, Except.toBool]

/-- The truncated quotient, one less for a negative offset between two multiples, is the floor. -/
lemma toInt_step {d size : Duration} (hsize : 0 < size.toInt) :
    (if d < 0 ∧ d % size ≠ 0 then d / size - 1 else d / size).toInt = d.toInt / size.toInt := by
  have hquot : (d / size).toInt = d.toInt.tdiv size.toInt := by
    apply Int64.toInt_div_of_ne_right
    rintro rfl
    exact absurd hsize (by decide)
  have hcond : d < 0 ∧ d % size ≠ 0 ↔ ¬ (0 ≤ d.toInt ∨ size.toInt ∣ d.toInt) := by
    rw [not_or, Int.dvd_iff_tmod_eq_zero, Int64.lt_iff_toInt_lt, ← Int64.toInt_mod, Ne,
      ← Int64.toInt_inj, toInt_zero, not_le]
  rw [Int.tdiv_eq_ediv, Int.sign_eq_one_of_pos hsize] at hquot
  simp only [hcond]
  split_ifs at hquot ⊢ with h
  · simpa using hquot
  · have hneg := not_le.mp (not_or.mp h).1
    have hlow : d.toInt ≤ d.toInt / size.toInt := by
      rw [Int.le_ediv_iff_mul_le hsize]
      simpa using mul_le_mul_of_nonpos_left (Int.add_one_le_of_lt hsize) hneg.le
    have hone := Int64.toInt_one
    have hd := (fits_toInt d).1
    have hq := (fits_toInt (d / size)).2
    rw [toInt_sub ⟨by omega, by omega⟩]
    omega

/-- Where the window that `Bounds` gives starts, relative to the anchor. -/
def startOffset (s : WindowSpec) (t : Time) : ℤ :=
  ((Time.sub t s.anchor).toInt / s.size.toInt * s.size.toInt).bmod (2 ^ 64)

lemma bounds_eq (halg : s.algorithm = .fixed) (hsize : 0 < s.size.toInt) :
    s.bounds t = .ok ⟨s.anchor + s.startOffset t, s.anchor + s.startOffset t + s.size.toInt⟩ := by
  have hpos : ¬ s.size ≤ 0 := by rwa [Int64.le_iff_toInt_le, not_le]
  simp only [bounds, halg, hpos, if_false, Time.add, Int64.toInt_mul, toInt_step hsize, startOffset]

lemma startOffset_of_inReach (hsize : 0 < s.size.toInt) (h : s.InReach t) :
    s.startOffset t = s.index t * s.size.toInt := by
  obtain ⟨hlow, hhigh⟩ := (Int.ediv_eq_iff_of_pos hsize).mp (rfl : _ = s.index t)
  have hsub := Time.toInt_sub t s.anchor
  have hstep : (Time.sub t s.anchor).toInt / s.size.toInt = s.index t := by
    rw [Int.ediv_eq_iff_of_pos hsize]
    have := h.1
    have := h.2
    omega
  rw [startOffset, hstep, bmod_of_fits h]

/-- A saturated offset or a wrapped product is off by more than a window, unless the window still
starts in reach. -/
lemma inReach_of_startOffset (hsize : 0 < s.size.toInt) (hlow : s.startOffset t ≤ t - s.anchor)
    (hhigh : t - s.anchor < s.startOffset t + s.size.toInt) : s.InReach t := by
  have hfits := (fits_toInt s.size).2
  have hsub := Time.toInt_sub t s.anchor
  obtain ⟨hge, hlt⟩ := (Int.ediv_eq_iff_of_pos hsize).mp
    (rfl : (Time.sub t s.anchor).toInt / s.size.toInt = _)
  have hmod := Int.bmod_def ((Time.sub t s.anchor).toInt / s.size.toInt * s.size.toInt) (2 ^ 64)
  rw [← startOffset] at hmod
  have hsame : s.startOffset t = (Time.sub t s.anchor).toInt / s.size.toInt * s.size.toInt := by
    split_ifs at hmod <;> omega
  have hindex : s.index t = (Time.sub t s.anchor).toInt / s.size.toInt := by
    rw [index, Int.ediv_eq_iff_of_pos hsize, ← hsame]
    exact ⟨hlow, hhigh⟩
  rw [InReach, hindex]
  constructor <;> split_ifs at hmod <;> omega

lemma contains_iff (hvalid : (s.bounds s.anchor).isOk) : s.Contains t ↔ s.InReach t := by
  obtain ⟨halg, hsize⟩ := valid_iff.mp hvalid
  simp only [Contains, bounds_eq halg hsize, Except.ok.injEq, exists_eq_left']
  rw [add_assoc, add_sub_add_left_eq_sub, ← le_sub_iff_add_le', ← sub_lt_iff_lt_add']
  simp only [add_sub_cancel_left, and_true]
  refine ⟨fun h => inReach_of_startOffset hsize h.1 h.2, fun h => ?_⟩
  rw [startOffset_of_inReach hsize h]
  exact (Int.ediv_eq_iff_of_pos hsize).mp rfl

/-- Two instants get windows that hold them, and the same one just when they lie in the same,
exactly when both windows start within a duration of the anchor. -/
theorem windows_tile_iff (hvalid : (s.bounds s.anchor).isOk) (t u : Time) :
    s.Contains t ∧ s.Contains u ∧ (s.bounds t = s.bounds u ↔ s.index t = s.index u) ↔ s.InReach t ∧
    s.InReach u := by
  obtain ⟨halg, hsize⟩ := valid_iff.mp hvalid
  rw [contains_iff hvalid, contains_iff hvalid]
  refine ⟨fun h => ⟨h.1, h.2.1⟩, fun h => ⟨h.1, h.2, ?_⟩⟩
  rw [bounds_eq halg hsize, bounds_eq halg hsize, startOffset_of_inReach hsize h.1, startOffset_of_inReach hsize h.2]
  simp [hsize.ne']

def hourly : WindowSpec := { algorithm := .fixed, size := 3600000000000, anchor := unixEpoch }

theorem hourly_windows_tile : (hourly.bounds hourly.anchor).isOk ∧
    hourly.Contains (unixEpoch - 1) ∧ hourly.Contains unixEpoch ∧
    (hourly.bounds (unixEpoch - 1) = hourly.bounds unixEpoch ↔ hourly.index (unixEpoch - 1) = hourly.index unixEpoch) :=
  ⟨by decide +kernel, (windows_tile_iff (by decide +kernel) _ _).mpr ⟨by decide +kernel, by decide +kernel⟩⟩

/-- Without a configured anchor, the zero time, every instant after the year 292 falls behind its
own window. -/
theorem omitted_anchor_window_ends_early :
    ({ hourly with anchor := 0 }.bounds 0).isOk ∧
    ¬ { hourly with anchor := 0 }.Contains unixEpoch := by
  have hvalid : ({ hourly with anchor := 0 }.bounds 0).isOk := by decide +kernel
  refine ⟨hvalid, fun h => absurd ((contains_iff hvalid).mp h) (by decide +kernel)⟩

end InteractiveProxy.UsageAuthority.WindowSpec
