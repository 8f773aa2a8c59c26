import InteractiveProxy.Decimal
import InteractiveProxy.MeteringSubject
import InteractiveProxy.MoneyRounding

/-! Allocation records: one source cost shared out over targets by exact weights. This module has
the types of the economics package, the normal forms of their parts and the canonical form of a
whole record. -/
namespace InteractiveProxy.Economics

open GoText Utf8Runes GuardedRun SignedWord Metering KeySort JsonEncoding

def maxAllocationTargets : ℕ := 4096
def maxAllocationRefs : ℕ := 1024
def maxValuationRationalDigits : ℕ := 128

/-- The errors of the package. Errors that it wraps are kept as they are; a quoted argument is shown
plain. -/
inductive AllocationError
  | invalid (detail : GoStr)
  | notConserved (sum : ℚ)
  | targetConflict (detail : GoStr)
  | scopeMismatch (detail : GoStr)
  | invalidSource (detail : GoStr)
  | signMismatch
  | revisionRequired (detail : GoStr)
  | residualUnassigned
  | sourceDecimal (field : GoStr) (cause : DecimalError)
  | rounding (cause : RoundingError)
  | observationRefs (detail : GoStr)

/-- A failed check of a text, with the error it is wrapped in. -/
def wrap {ε α : Type} (e : ε → AllocationError) : Except ε α → Except AllocationError α :=
  Except.mapError e

lemma wrap_eq_ok {ε α : Type} {e : ε → AllocationError} {x : Except ε α} {a : α} :
    wrap e x = .ok a ↔ x = .ok a :=
  mapError_eq_ok

variable (table : PrintTable)

def validateSafeRef (field value : GoStr) : Except GoStr Unit := do
  reject (trimSpace value = []) (lit "economics: " ++ field ++ lit " required")
  reject ((runes (trimSpace value)).any (unsafeRune table))
    (lit "economics: " ++ field ++ lit " contains unsafe characters")

/-- `NormalizeCurrency`. A code that is not of the letters A to Z has one of two texts in the
source, by Unicode's case tables. -/
def normalizeCurrency (currency : GoStr) : Except GoStr GoStr :=
  if trimSpace currency = [] then .error (lit "economics: empty present currency")
  else if (trimSpace currency).all (fun b => 0x41 ≤ b && b ≤ 0x5A) then .ok (trimSpace currency)
  else .error (lit "economics: unnormalized or invalid currency " ++ currency)

structure AllocationFraction where
  numerator : GoStr
  denominator : GoStr

namespace AllocationFraction

def value (f : AllocationFraction) : ℚ := intValue f.numerator / intValue f.denominator

def readInteger (s : GoStr) (least : ℤ) (e : AllocationError) : Except AllocationError ℤ :=
  match setString s with
  | some n => if n < least then .error e else .ok n
  | none => .error e

def normalize (f : AllocationFraction) : Except AllocationError AllocationFraction := do
  reject (trimSpace f.numerator ≠ f.numerator ∨ trimSpace f.denominator ≠ f.denominator ∨ f.numerator = [] ∨
    f.denominator = []) (.invalid (lit "fraction numerator and denominator are required"))
  reject (f.numerator.length + f.denominator.length > maxValuationRationalDigits)
    (.invalid (lit "fraction exceeds " ++ formatNat maxValuationRationalDigits ++ lit " digits"))
  reject (f.numerator.head? = some 0x2B ∨ f.denominator.head? = some 0x2B)
    (.invalid (lit "fraction cannot carry a leading plus"))
  let numerator ← readInteger f.numerator 0
    (.invalid (lit "fraction numerator must be a non-negative integer"))
  let denominator ← readInteger f.denominator 1
    (.invalid (lit "fraction denominator must be positive"))
  let gcd : ℤ := numerator.gcd denominator
  return ⟨formatInt (numerator / gcd), formatInt (denominator / gcd)⟩

def rat (f : AllocationFraction) : Except AllocationError ℚ := do
  let normalized ← f.normalize
  return normalized.value

end AllocationFraction

structure ObservationRef where
  storeID : GoStr
  observationID : GoStr
  revision : ℕ
  payloadHash : GoStr

/-- References to other records of the ledger; `AllocationRef` and `AllocationValuationRef` of the
source. -/
structure RecordRef where
  storeID : GoStr
  recordID : GoStr
  version : ℕ
  payloadHash : GoStr
  deriving DecidableEq

def isHexDigit (b : UInt8) : Bool := isDigit b || (0x61 ≤ b && b ≤ 0x66) || (0x41 ≤ b && b ≤ 0x46)

/-- Text that `hex.DecodeString` takes to the bytes of a SHA-256 sum. -/
def isSha256Hex (s : GoStr) : Bool := s.length == 64 && s.all isHexDigit

namespace ObservationRef

def validate (r : ObservationRef) : Except GoStr Unit := do
  validateIdentityText table (lit "observation ref store_id") r.storeID maxSourceEventKeyBytes
  validateIdentityText table (lit "observation ref id") r.observationID maxSourceEventKeyBytes
  validateIdentityText table (lit "observation ref payload_hash") r.payloadHash maxSourceEventKeyBytes
  reject (r.revision = 0) (lit "observation ref revision required")

def sortKey (r : ObservationRef) : List ℕ ×ₗ List ℕ ×ₗ ℕ :=
  toLex (textOrder r.storeID, toLex (textOrder r.observationID, r.revision))

/-- The key under which `normalizeAllocationRefs` looks for duplicates. -/
def key (r : ObservationRef) : GoStr :=
  r.storeID ++ lit ":" ++ r.observationID ++ lit ":" ++ formatNat r.revision

end ObservationRef

namespace RecordRef

/-- The common `normalize` of the two kinds of references, with the words that tell them apart. -/
def validate (what : GoStr) (r : RecordRef) : Except AllocationError Unit := do
  wrap .invalid (validateSafeRef table (what ++ lit " store_id") r.storeID)
  wrap .invalid (validateSafeRef table (what ++ lit " id") r.recordID)
  wrap .invalid (validateSafeRef table (what ++ lit " payload_hash") r.payloadHash)
  reject (r.version = 0) (.invalid (what ++ lit " version required"))
  reject (isSha256Hex r.payloadHash = false)
    (.invalid (what ++ lit " payload hash must be SHA-256 hex"))

def sortKey (r : RecordRef) : List ℕ ×ₗ List ℕ ×ₗ ℕ :=
  toLex (textOrder r.storeID, toLex (textOrder r.recordID, r.version))

def key (r : RecordRef) : GoStr :=
  r.storeID ++ lit ":" ++ r.recordID ++ lit ":" ++ formatNat r.version

end RecordRef

structure AllocationPolicyRef where
  method : GoStr
  version : GoStr
  hash : GoStr
  deriving DecidableEq

def AllocationPolicyRef.normalize (p : AllocationPolicyRef) :
    Except AllocationError AllocationPolicyRef := do
  wrap .invalid (validateSafeRef table (lit "allocation policy method") p.method)
  wrap .invalid (validateSafeRef table (lit "allocation policy version") p.version)
  wrap .invalid (validateSafeRef table (lit "allocation policy hash") p.hash)
  let hash := toLower p.hash
  reject (isSha256Hex hash = false) (.invalid (lit "allocation policy hash must be SHA-256 hex"))
  return { p with hash }

inductive AllocationOperation
  | allocate
  | refund
  | correction
  | replacement
  | zero
  | other (text : GoStr)
  deriving DecidableEq

inductive AllocationResidualPolicy
  | reject
  | toLastTarget
  | toUnallocated
  | other (text : GoStr)
  deriving DecidableEq

inductive ValuationBasis
  | localExpected
  | providerQuantityLocal
  | providerUnitDebit
  | providerReported
  | statementReported
  | customerPolicy
  | allocatedCost
  | other (text : GoStr)
  deriving DecidableEq

inductive RoundingScope
  | line
  | call
  | period
  | other (text : GoStr)
  deriving DecidableEq

structure AllocationRoundedAmount where
  nanoUnits : Int64
  currency : GoStr
  present : Bool
  policy : RoundingPolicy

structure AllocationTarget where
  targetID : GoStr
  target : SubjectRef
  unallocated : Bool
  informational : Bool
  accountID : GoStr
  periodID : GoStr
  currency : GoStr
  unit : GoStr
  weight : AllocationFraction
  share : AllocationFraction
  roundedAmount : Option AllocationRoundedAmount
  roundingResidualNano : Int64

structure AllocationSource where
  id : GoStr
  version : ℕ
  revision : ℕ
  sourceSubject : SubjectRef
  sourceBasis : ValuationBasis
  sourceAmount : Option Decimal
  sourceQuantity : Option Decimal
  currency : GoStr
  unit : GoStr
  policy : AllocationPolicyRef
  operation : AllocationOperation
  roundingScope : RoundingScope
  roundingPolicy : RoundingPolicy
  roundingResidualPolicy : AllocationResidualPolicy

structure AllocationRecord extends AllocationSource where
  roundedSourceAmount : Option AllocationRoundedAmount
  roundingResidualNano : Int64
  sourceObservationRefs : List ObservationRef
  sourceValuationRefs : List RecordRef
  supersedes : List RecordRef
  targets : List AllocationTarget
  createdAt : Timestamp

def ownsCost : SubjectKind → Bool
  | .resource | .statementLine | .providerCharge => true
  | _ => false

def allocatable : ValuationBasis → Bool
  | .providerUnitDebit | .other _ => false
  | _ => true

def AllocationOperation.isKnown : AllocationOperation → Bool
  | other _ => false
  | _ => true

def AllocationResidualPolicy.isKnown : AllocationResidualPolicy → Bool
  | other _ => false
  | _ => true

def RoundingScope.isKnown : RoundingScope → Bool
  | other _ => false
  | _ => true

namespace AllocationSource

variable (s : AllocationSource)

def normalizeAmount (amount : Decimal) : Except AllocationError AllocationSource := do
  reject (s.sourceBasis = .providerQuantityLocal)
    (.invalidSource (lit "provider quantity basis requires an exact source quantity"))
  let normalized ← wrap (.sourceDecimal (lit "source amount")) amount.normalize
  let currency ← wrap .invalid (normalizeCurrency s.currency)
  reject (s.unit ≠ []) (.invalid (lit "monetary source cannot carry a unit"))
  return { s with sourceAmount := some normalized, currency }

def normalizeQuantity (quantity : Decimal) : Except AllocationError AllocationSource := do
  let normalized ← wrap (.sourceDecimal (lit "source quantity")) quantity.normalize
  reject (s.currency ≠ []) (.invalid (lit "quantity source cannot carry currency"))
  wrap .invalid (validateSafeRef table (lit "allocation unit") s.unit)
  reject ((s.unit = lit "token" ∨ s.unit = lit "count") ∧ normalized.scale ≠ 0)
    (.invalid (lit "source quantity for " ++ s.unit ++ lit " must be an exact integer"))
  return { s with sourceQuantity := some normalized }

def normalizeValue : Except AllocationError AllocationSource :=
  match s.sourceAmount, s.sourceQuantity with
  | some _, some _ => .error (.invalid (lit "source amount and quantity are mutually exclusive"))
  | none, none => .error (.invalid (lit "source amount or exact source quantity required"))
  | some amount, none => s.normalizeAmount amount
  | none, some quantity => s.normalizeQuantity table quantity

/-- `allocationSignCheck`. -/
def signCheck : Except AllocationError Unit :=
  match s.sourceAmount.or s.sourceQuantity with
  | none => .error (.invalid (lit "source value"))
  | some value => do
    let normalized ← wrap (.sourceDecimal (lit "source value")) value.normalize
    let isNegative :=
      normalized.coefficient.head? = some 0x2D ∧ normalized.coefficient ≠ [0x2D, 0x30]
    match s.operation with
    | .allocate => reject isNegative .signMismatch
    | .refund => reject ((normalized.coefficient ≠ [0x30] ∧ ¬ isNegative) ∨ ¬ isNegative) .signMismatch
    | .zero => reject (normalized.coefficient ≠ [0x30]) .signMismatch
    | _ => .ok ()

def normalize (table : PrintTable) (s : AllocationSource) :
    Except AllocationError AllocationSource := do
  wrap .invalid (validateSafeRef table (lit "allocation id") s.id)
  reject (s.version = 0) (.invalid (lit "version required"))
  wrap .invalidSource (s.sourceSubject.validate table)
  reject (ownsCost s.sourceSubject.kind = false)
    (.invalidSource (lit "source subject kind " ++ s.sourceSubject.kind.text ++ lit " cannot own allocated cost"))
  reject (allocatable s.sourceBasis = false)
    (.invalidSource (lit "source basis cannot carry explicit local allocation"))
  let out ← normalizeValue table
    { s with revision := if s.revision = 0 then 1 else s.revision, sourceSubject := s.sourceSubject.canonical }
  let policy ← out.policy.normalize table
  reject (out.operation.isKnown = false) (.invalid (lit "unknown operation"))
  reject (out.roundingScope.isKnown = false) (.invalid (lit "unknown rounding scope"))
  reject (out.roundingPolicy.isKnown = false ∨ (out.roundingPolicy = .unspecified ∧ out.sourceAmount ≠ none))
    (.invalid (lit "explicit rounding policy required"))
  reject (out.roundingResidualPolicy.isKnown = false)
    (.invalid (lit "explicit rounding residual policy required"))
  out.signCheck
  return { out with policy }

end AllocationSource

/-- A loop that refuses a key it has met, with checks of each item in front of that and behind it.
-/
def checkDistinct {α κ : Type} [DecidableEq κ] (before after : α → Except AllocationError Unit)
    (key : α → κ) (duplicate : AllocationError) : List κ → List α → Except AllocationError Unit
  | _, [] => .ok ()
  | seen, a :: rest => do
    before a
    reject (key a ∈ seen) duplicate
    after a
    checkDistinct before after key duplicate (key a :: seen) rest

/-- `validateObservationRefCollection` with the label of the source refs. -/
def validateObservationRefCollection (table : PrintTable) (store : GoStr) :
    List ObservationRef → ℕ → List ObservationRef → Except AllocationError Unit
  | _, _, [] => .ok ()
  | seen, i, r :: rest => do
    wrap (fun e => .observationRefs (lit "economics: source ref " ++ formatNat i ++ lit ": " ++ e))
      (r.validate table)
    reject (store ≠ [] ∧ r.storeID ≠ store)
      (.observationRefs (lit "economics: source ref store mismatch"))
    match seen.find? fun x => x.storeID = r.storeID ∧ x.observationID = r.observationID ∧
      x.revision = r.revision with
    | some prior =>
      if prior.payloadHash ≠ r.payloadHash then
        .error (.observationRefs (lit "economics: conflicting payload hashes for source observation revision"))
      else .error (.observationRefs (lit "economics: duplicate source observation ref"))
    | none => validateObservationRefCollection table store (r :: seen) (i + 1) rest

variable (r : AllocationRecord)

def normalizeAllocationRefs : Except AllocationError Unit := do
  checkDistinct (fun _ => .ok ()) (fun _ => .ok ()) ObservationRef.key
    (.targetConflict (lit "duplicate source observation ref")) [] r.sourceObservationRefs
  checkDistinct (fun ref => ref.validate table (lit "allocation valuation ref"))
    (fun ref => reject (ref.storeID ≠ r.sourceSubject.storeID)
      (.scopeMismatch (lit "source valuation ref store mismatch")))
    RecordRef.key (.targetConflict (lit "duplicate source valuation ref")) [] r.sourceValuationRefs
  checkDistinct (fun ref => do
      ref.validate table (lit "allocation ref")
      reject (ref.recordID = r.id ∧ ref.version = r.version)
        (.revisionRequired (lit "allocation cannot supersede itself"))
      reject (ref.storeID ≠ r.sourceSubject.storeID)
        (.scopeMismatch (lit "superseded allocation store mismatch")))
    (fun _ => .ok ()) RecordRef.key (.targetConflict (lit "duplicate superseded allocation ref"))
      [] r.supersedes

/-- A field of a target against the same field of the source: it may be left out and not contradict.
-/
def contradicts (source target : GoStr) : Prop :=
  (source ≠ [] ∧ target ≠ [] ∧ target ≠ source) ∨ (source = [] ∧ target ≠ [])
  deriving Decidable

def orElse (value default : GoStr) : GoStr := if value = [] then default else value

variable (t : AllocationTarget)

/-- The branch of `normalizeAllocationTarget` for a target with a subject. -/
def normalizeTargetSubject (source : SubjectRef) : Except AllocationError SubjectRef := do
  wrap (fun e => .targetConflict (lit "target subject: " ++ e)) (t.target.validate table)
  let subject := t.target.canonical
  reject (subject.kind = .accountWindow ∨ subject.kind = .providerDebit)
    (.scopeMismatch (lit "account gauge/provider debit cannot be an allocation target"))
  reject (subject.storeID ≠ source.storeID) (.scopeMismatch [])
  reject (contradicts source.tenantID subject.tenantID) (.scopeMismatch [])
  reject (contradicts source.periodID subject.periodID) (.scopeMismatch [])
  reject (contradicts source.accountID subject.accountID) (.scopeMismatch [])
  reject (t.accountID ≠ [] ∧ t.accountID ≠ source.accountID) (.scopeMismatch [])
  return subject.relocate (orElse subject.tenantID source.tenantID)
    (orElse subject.periodID source.periodID) (orElse subject.accountID source.accountID)

def targetSubject (source : SubjectRef) : Except AllocationError SubjectRef :=
  if t.unallocated then do
    reject (t.target ≠ SubjectRef.empty ∨ t.informational)
      (.targetConflict (lit "unallocated target cannot carry subject or informational lineage"))
    return t.target
  else normalizeTargetSubject table t source

def targetCurrency : Except AllocationError GoStr :=
  if t.currency = [] then .ok []
  else wrap (fun e => .scopeMismatch (lit "target currency: " ++ e)) (normalizeCurrency t.currency)

def checkTargetUnit : Except AllocationError Unit :=
  if t.unit = [] then .ok ()
  else wrap .scopeMismatch (validateSafeRef table (lit "allocation target unit") t.unit)

def normalizeTargetUnit (s : AllocationSource) : Except AllocationError AllocationTarget :=
  if s.sourceAmount ≠ none then do
    let currency ← targetCurrency t
    reject (t.unit ≠ [] ∨ (currency ≠ [] ∧ currency ≠ s.currency)) (.scopeMismatch [])
    return { t with currency := s.currency }
  else do
    checkTargetUnit table t
    reject (t.currency ≠ [] ∨ (t.unit ≠ [] ∧ t.unit ≠ s.unit)) (.scopeMismatch [])
    return { t with unit := s.unit }

def normalizeAllocationTarget (s : AllocationSource) : Except AllocationError AllocationTarget := do
  wrap .targetConflict (validateSafeRef table (lit "allocation target id") t.targetID)
  let weight ← t.weight.normalize
  reject (s.sourceAmount = none ∧ (t.roundedAmount ≠ none ∨ t.roundingResidualNano ≠ 0))
    (.invalid (lit "quantity allocation cannot carry rounded money"))
  let subject ← targetSubject table t s.sourceSubject
  reject (t.accountID ≠ [] ∧ t.accountID ≠ s.sourceSubject.accountID) (.scopeMismatch [])
  reject (t.periodID ≠ [] ∧ t.periodID ≠ s.sourceSubject.periodID) (.scopeMismatch [])
  normalizeTargetUnit table { t with
    weight
    share := weight
    roundedAmount := none
    roundingResidualNano := 0
    target := subject
    accountID := s.sourceSubject.accountID
    periodID := s.sourceSubject.periodID } s

def payload : GoStr := t.target.marshal.getD []

def subjectKey : GoStr := if t.unallocated then lit "unallocated" else payload t

def allocationTargetSortKey : GoStr :=
  if t.unallocated then lit "1:" ++ t.targetID else lit "0:" ++ t.targetID ++ lit ":" ++ payload t

def normalizeTargets (table : PrintTable) (s : AllocationSource) :
    List GoStr → List GoStr → ℚ → List AllocationTarget →
    Except AllocationError (List AllocationTarget × ℚ)
  | _, _, sum, [] => .ok ([], sum)
  | ids, subjects, sum, t :: rest => do
    let target ← normalizeAllocationTarget table t s
    reject (target.targetID ∈ ids) (.targetConflict (lit "duplicate target id " ++ target.targetID))
    reject (subjectKey target ∈ subjects) (.targetConflict (lit "duplicate target subject"))
    let fraction ← target.weight.rat
    let (out, total) ← normalizeTargets table s (target.targetID :: ids)
      (subjectKey target :: subjects) (sum + fraction) rest
    return ({ target with share := target.weight } :: out, total)

def addAllocationInt64 (a b : Int64) : Except AllocationError Int64 :=
  if (0 < b ∧ Int64.maxValue - b < a) ∨ (b < 0 ∧ a < Int64.minValue - b) then
    .error (.invalid (lit "rounded allocation overflow"))
  else .ok (a + b)

def subtractAllocationInt64 (a b : Int64) : Except AllocationError Int64 :=
  if Fits (a.toInt - b.toInt) then .ok (Int64.ofInt (a.toInt - b.toInt))
  else .error (.invalid (lit "rounded allocation overflow"))

def roundTargets (s : AllocationSource) (source : ℚ) : Int64 → List AllocationTarget →
    Except AllocationError (List AllocationTarget × Int64)
  | total, [] => .ok ([], total)
  | total, t :: rest => do
    let share ← t.share.rat
    let rounded ← wrap .rounding (roundToInt64 (source * share * 10 ^ ledgerNanoScale) s.roundingPolicy)
    let total ← addAllocationInt64 total rounded
    let (out, total) ← roundTargets s source total rest
    return ({ t with roundedAmount := some ⟨rounded, s.currency, true, s.roundingPolicy⟩ } :: out, total)

def residualIndex (policy : AllocationResidualPolicy) (targets : List AllocationTarget) :
    Except AllocationError ℕ :=
  match policy with
  | .reject => .error .residualUnassigned
  | .toUnallocated =>
    match (List.range targets.length).filter
      fun i => (targets[i]?.map (·.unallocated)).getD false with
    | [] => .error .residualUnassigned
    | [i] => .ok i
    | _ => .error (.targetConflict [])
  | .toLastTarget =>
    match ((List.range targets.length).filter fun i => (targets[i]?.map (!·.unallocated)).getD false).getLast? with
    | some i => .ok i
    | none => .ok (targets.length - 1)
  | .other _ => .error (.invalid (lit "unknown residual policy"))

def assignResidual (residual : Int64) (index : ℕ) (targets : List AllocationTarget) :
    Except AllocationError (List AllocationTarget) :=
  match targets[index]? with
  | none => .error .residualUnassigned
  | some t =>
    match t.roundedAmount with
    | none => .error .residualUnassigned
    | some amount => do
      let updated ← addAllocationInt64 amount.nanoUnits residual
      return targets.set index
        { t with roundedAmount := some { amount with nanoUnits := updated }, roundingResidualNano := residual }

def applyAllocationRounding : Except AllocationError AllocationRecord :=
  match r.sourceAmount with
  | none => .ok { r with roundingResidualNano := 0 }
  | some amount => do
    let normalized ← wrap (.sourceDecimal (lit "source amount")) amount.normalize
    let source := normalized.value
    let rounded ← wrap .rounding (roundToInt64 (source * 10 ^ ledgerNanoScale) r.roundingPolicy)
    let (targets, total) ← roundTargets r.toAllocationSource source 0 r.targets
    let residual ← subtractAllocationInt64 rounded total
    let out := { r with
      roundedSourceAmount := some ⟨rounded, r.currency, true, r.roundingPolicy⟩
      targets
      roundingResidualNano := residual }
    if residual = 0 then return out
    else do
      let index ← residualIndex r.roundingResidualPolicy targets
      let targets ← assignResidual residual index targets
      return { out with targets }

def sortRefs : AllocationRecord :=
  { r with
    sourceObservationRefs := sortBy ObservationRef.sortKey r.sourceObservationRefs
    sourceValuationRefs := sortBy RecordRef.sortKey r.sourceValuationRefs
    supersedes := sortBy RecordRef.sortKey r.supersedes
    roundedSourceAmount := none
    roundingResidualNano := 0 }

def checkLists : Except AllocationError Unit := do
  reject ((r.operation = .correction ∨ r.operation = .replacement) ∧ r.supersedes = [])
    (.revisionRequired [])
  reject (r.targets = [] ∨ r.targets.length > maxAllocationTargets)
    (.invalid (lit "one to " ++ formatNat maxAllocationTargets ++ lit " targets required"))
  reject (r.sourceObservationRefs.length > maxAllocationRefs ∨ r.sourceValuationRefs.length > maxAllocationRefs ∨
    r.supersedes.length > maxAllocationRefs) (.invalid (lit "reference limit exceeded"))
  validateObservationRefCollection table r.sourceSubject.storeID [] 0 r.sourceObservationRefs
  normalizeAllocationRefs table r
  reject (r.sourceAmount = none ∧ (r.roundedSourceAmount ≠ none ∨ r.roundingResidualNano ≠ 0))
    (.invalid (lit "quantity allocation cannot carry rounded money"))

/-- `normalizeAllocationEnvelope`, the canonical form of a record. -/
def canonical : Except AllocationError AllocationRecord := do
  let source ← r.toAllocationSource.normalize table
  let r := { r with toAllocationSource := source }
  checkLists table r
  let r := sortRefs r
  let (targets, sum) ← normalizeTargets table source [] [] 0 r.targets
  reject (sum ≠ 1) (.notConserved sum)
  -- Sorted before the residual is assigned, so that the order of the input does not matter.
  let out ← applyAllocationRounding
    { r with targets := sortBy (textOrder ∘ allocationTargetSortKey) targets }
  reject out.createdAt.isZero (.invalid (lit "created_at is required for deterministic identity"))
  return { out with createdAt := out.createdAt.utc }

end InteractiveProxy.Economics
