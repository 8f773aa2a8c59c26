import InteractiveProxy.GuardedRun
import InteractiveProxy.JsonEncoding

/-! The subjects of the metering package: what a cost belongs to, when such a reference is well
formed, and its JSON. -/
namespace InteractiveProxy.Metering

open GoText Utf8Runes GuardedRun SignedWord JsonEncoding

/-- `unicode.IsPrint`, by the bytes of a rune. The tables of the `unicode` package are not modelled;
of ASCII the space and the graphic characters are printable. -/
structure PrintTable where
  isPrint : GoStr → Bool
  ascii : ∀ b : UInt8, 0x20 ≤ b → b < 0x7F → isPrint [b]

def asciiTable : PrintTable where
  isPrint r := r.all fun b => 0x20 ≤ b && b < 0x7F
  ascii b hlow hhigh := by simp [hlow, hhigh]

def replacementRune : GoStr := [0xEF, 0xBF, 0xBD]

def unsafeRune (table : PrintTable) (r : Option GoStr) : Bool :=
  let bytes := r.getD replacementRune
  (bytes.length == 1 && bytes.all fun b => b < 0x20 || b == 0x7F) || !table.isPrint bytes

def maxSchemaIDBytes : ℕ := 512
def maxSourceEventKeyBytes : ℕ := 1024

def validateIdentityText (table : PrintTable) (field : GoStr) (value : GoStr) (maxBytes : ℕ) :
    Except GoStr Unit := do
  reject (value = []) (field ++ lit " required")
  reject (value.length > maxBytes) (field ++ lit " exceeds " ++ formatNat maxBytes ++ lit " bytes")
  reject (none ∈ runes value) (field ++ lit " must be valid UTF-8")
  reject ((runes value).any (unsafeRune table)) (field ++ lit " contains unsafe characters")
  reject (trimSpace value ≠ value) (field ++ lit " must not have surrounding whitespace")

/-- The texts that `validateIdentityText` lets through. -/
structure IdentityText (table : PrintTable) (maxBytes : ℕ) (value : GoStr) : Prop where
  nonempty : value ≠ []
  length_le : value.length ≤ maxBytes
  valid : none ∉ runes value
  printable : (runes value).any (unsafeRune table) = false
  trimmed : trimSpace value = value

variable {table : PrintTable} {value : GoStr}

lemma validateIdentityText_iff {field : GoStr} {maxBytes : ℕ} :
    validateIdentityText table field value maxBytes = .ok () ↔
    IdentityText table maxBytes value := by
  unfold validateIdentityText
  simp only [seq_eq_ok, reject_eq_ok, not_lt, not_not, Bool.not_eq_true]
  exact ⟨fun ⟨h1, h2, h3, h4, h5⟩ => ⟨h1, h2, h3, h4, h5⟩, fun h => ⟨h.1, h.2, h.3, h.4, h.5⟩⟩

/-- A `time.Time`: an instant and the location it is shown in. -/
structure Timestamp where
  instant : Time
  location : GoStr
  deriving DecidableEq

namespace Timestamp

def zero : Timestamp := ⟨0, lit "UTC"⟩

variable (t : Timestamp)

def isZero : Prop := t.instant = 0
  deriving Decidable

def utc : Timestamp := ⟨t.instant, lit "UTC"⟩

def canonical : Timestamp := if t.isZero then t else t.utc

lemma canonical_eq : t.canonical = ⟨t.instant, if t.isZero then t.location else lit "UTC"⟩ := by
  unfold canonical
  split_ifs <;> rfl

@[simp] lemma canonical_instant : t.canonical.instant = t.instant := by
  unfold canonical
  split_ifs <;> rfl

@[simp] lemma canonical_isZero : t.canonical.isZero ↔ t.isZero := by
  unfold isZero
  rw [canonical_instant]

@[simp] lemma canonical_canonical : t.canonical.canonical = t.canonical := by
  by_cases h : t.isZero
  · rw [canonical, if_pos ((canonical_isZero t).mpr h)]
  · rw [canonical, if_neg (mt (canonical_isZero t).mp h), canonical, if_neg h]
    rfl

/-- A time member with `omitzero`; `none` where the time cannot be written. -/
def optionalMember (name : String) (t : Timestamp) : Option (List GoStr) :=
  if t.isZero then some [] else (encodeTime t.instant).map fun s => [member name s]

end Timestamp

inductive SubjectKind
  | aLeg
  | request
  | billingCall
  | bLeg
  | submission
  | providerCharge
  | providerDebit
  | resource
  | accountWindow
  | statementLine
  | other (text : GoStr)
  deriving DecidableEq

namespace SubjectKind

def text : SubjectKind → GoStr
  | aLeg => lit "a_leg"
  | request => lit "logical_request"
  | billingCall => lit "billing_call"
  | bLeg => lit "b_leg"
  | submission => lit "submission"
  | providerCharge => lit "provider_charge"
  | providerDebit => lit "provider_debit"
  | resource => lit "resource_interval"
  | accountWindow => lit "account_window"
  | statementLine => lit "statement_line"
  | other t => t

def isKnown : SubjectKind → Bool
  | other _ => false
  | _ => true

end SubjectKind

structure SubjectRef where
  kind : SubjectKind
  storeID : GoStr
  tenantID : GoStr
  accountID : GoStr
  aLegID : GoStr
  requestID : GoStr
  billingCallID : GoStr
  callID : GoStr
  bLegID : GoStr
  attemptID : GoStr
  attemptSeq : ℕ
  submissionID : GoStr
  providerAccountKey : GoStr
  providerRequestID : GoStr
  providerChargeID : GoStr
  resourceID : GoStr
  periodID : GoStr
  poolID : GoStr
  windowID : GoStr
  statementID : GoStr
  statementLineID : GoStr
  resetAt : Timestamp
  startAt : Timestamp
  endAt : Timestamp
  deriving DecidableEq

namespace SubjectRef

def empty : SubjectRef where
  kind := .other []
  storeID := []
  tenantID := []
  accountID := []
  aLegID := []
  requestID := []
  billingCallID := []
  callID := []
  bLegID := []
  attemptID := []
  attemptSeq := 0
  submissionID := []
  providerAccountKey := []
  providerRequestID := []
  providerChargeID := []
  resourceID := []
  periodID := []
  poolID := []
  windowID := []
  statementID := []
  statementLineID := []
  resetAt := .zero
  startAt := .zero
  endAt := .zero

variable (s : SubjectRef)

def scopeTexts : List (String × GoStr) :=
  [("subject tenant_id", s.tenantID), ("subject account_id", s.accountID), ("subject period_id", s.periodID)]

def lineageTexts : List (String × GoStr) :=
  [("subject a_leg_id", s.aLegID), ("subject request_id", s.requestID),
    ("subject billing_call_id", s.billingCallID), ("subject call_id", s.callID),
    ("subject b_leg_id", s.bLegID), ("subject attempt_id", s.attemptID),
      ("subject submission_id", s.submissionID),
    ("subject provider_account_key", s.providerAccountKey),
      ("subject provider_request_id", s.providerRequestID),
    ("subject provider_charge_id", s.providerChargeID), ("subject resource_id", s.resourceID),
    ("subject pool_id", s.poolID), ("subject window_id", s.windowID),
    ("subject statement_id", s.statementID), ("subject statement_line_id", s.statementLineID)]

def texts : List (String × GoStr) := s.scopeTexts ++ s.lineageTexts

def anySet (values : List GoStr) : Prop := ∃ v ∈ values, v ≠ []
  deriving Decidable

def validateKind : Except GoStr Unit :=
  match s.kind with
  | .aLeg => do
    reject (s.aLegID = []) (lit "a_leg_id required")
    reject (anySet [s.billingCallID, s.callID, s.bLegID, s.attemptID, s.submissionID,
      s.providerChargeID, s.resourceID, s.statementID]) (lit "a-leg carries foreign lineage")
  | .request => do
    reject (s.requestID = []) (lit "request_id required")
    reject (anySet [s.bLegID, s.attemptID, s.providerChargeID, s.resourceID, s.statementID])
      (lit "request carries foreign lineage")
  | .billingCall => do
    reject (s.billingCallID = []) (lit "billing_call_id required")
    reject (anySet [s.bLegID, s.attemptID, s.providerChargeID, s.resourceID, s.statementID])
      (lit "billing call carries foreign lineage")
  | .bLeg => do
    reject (s.bLegID = []) (lit "b_leg_id required")
    reject (anySet [s.resourceID, s.poolID, s.windowID, s.statementID, s.statementLineID])
      (lit "b-leg carries foreign subject fields")
  | .submission => do
    reject (s.submissionID = []) (lit "submission_id required")
    reject (anySet [s.bLegID, s.attemptID, s.providerChargeID, s.resourceID, s.statementID])
      (lit "submission carries foreign lineage")
  | .providerCharge => do
    reject (s.providerChargeID = [] ∨ s.providerAccountKey = [] ∨ s.bLegID = [])
      (lit "provider_charge_id, provider_account_key and b_leg_id required")
    reject (anySet [s.resourceID, s.poolID, s.windowID, s.statementID, s.statementLineID])
      (lit "provider charge carries foreign subject fields")
  | .providerDebit => do
    reject (s.providerAccountKey = [] ∨ s.poolID = [] ∨ s.windowID = [] ∨ s.requestID = [] ∨ s.billingCallID = [] ∨
      s.bLegID = []) (lit "provider_account_key, pool_id, window_id, request_id, billing_call_id and b_leg_id required")
    reject s.resetAt.isZero (lit "provider debit reset_at required")
    reject (anySet [s.submissionID, s.providerChargeID, s.resourceID, s.statementID, s.statementLineID])
      (lit "provider debit carries foreign subject fields")
  | .resource => do
    reject (s.resourceID = [] ∨ s.periodID = []) (lit "resource_id and period_id required")
    reject (anySet [s.aLegID, s.billingCallID, s.callID, s.bLegID, s.attemptID, s.submissionID,
      s.providerChargeID, s.poolID, s.windowID, s.statementID, s.statementLineID])
      (lit "resource subject carries request/account-window lineage")
    reject (¬ s.startAt.isZero ∧ ¬ s.endAt.isZero ∧ s.endAt.instant < s.startAt.instant)
      (lit "resource interval end precedes start")
  | .accountWindow => do
    reject (s.providerAccountKey = [] ∨ s.poolID = [] ∨ s.windowID = [])
      (lit "provider_account_key, pool_id and window_id required")
    reject s.resetAt.isZero (lit "account-window reset_at required")
    reject (anySet [s.aLegID, s.billingCallID, s.callID, s.bLegID, s.attemptID, s.submissionID, s.providerChargeID,
      s.resourceID, s.statementID, s.statementLineID])
      (lit "account window carries request/resource lineage")
  | .statementLine => do
    reject (s.providerAccountKey = [] ∨ s.statementID = [] ∨ s.statementLineID = [])
      (lit "provider_account_key, statement_id and statement_line_id required")
    reject (anySet [s.aLegID, s.billingCallID, s.callID, s.bLegID, s.attemptID, s.submissionID, s.providerChargeID,
      s.resourceID, s.poolID, s.windowID]) (lit "statement line carries foreign lineage")
  | .other _ => .ok ()

/-- `SubjectRef.Validate`, with the text behind `ErrInvalidSubject`. -/
def validate (table : PrintTable) (s : SubjectRef) : Except GoStr Unit := do
  reject (s.kind.isKnown = false) (lit "unknown kind " ++ s.kind.text)
  reject (s.attemptSeq ≠ 0 ∧ s.bLegID = []) (lit "attempt_seq requires BLegID ownership")
  validateIdentityText table (lit "subject store_id") s.storeID maxSchemaIDBytes
  s.texts.forM fun (name, value) =>
    if value ≠ [] then validateIdentityText table (lit name) value maxSchemaIDBytes else .ok ()
  s.validateKind

/-- `canonicalAllocationSubject`: the times of a subject in UTC. -/
def canonical (s : SubjectRef) : SubjectRef :=
  { s with resetAt := s.resetAt.canonical, startAt := s.startAt.canonical, endAt := s.endAt.canonical }

/-- `json.Marshal` of a subject; `none` where a time cannot be written. -/
def marshal : Option GoStr := do
  let resetAt ← s.resetAt.optionalMember "reset_at"
  let startAt ← s.startAt.optionalMember "start_at"
  let endAt ← s.endAt.optionalMember "end_at"
  some (object (member "kind" (quote s.kind.text) :: member "store_id" (quote s.storeID) ::
    (optionalText "tenant_id" s.tenantID ++ optionalText "account_id" s.accountID ++
    optionalText "a_leg_id" s.aLegID ++ optionalText "request_id" s.requestID ++
    optionalText "billing_call_id" s.billingCallID ++ optionalText "call_id" s.callID ++
    optionalText "b_leg_id" s.bLegID ++ optionalText "attempt_id" s.attemptID ++
    optionalNat "attempt_seq" s.attemptSeq ++ optionalText "submission_id" s.submissionID ++
    optionalText "provider_account_key" s.providerAccountKey ++
    optionalText "provider_request_id" s.providerRequestID ++
    optionalText "provider_charge_id" s.providerChargeID ++ optionalText "resource_id" s.resourceID ++
    optionalText "period_id" s.periodID ++ optionalText "pool_id" s.poolID ++
      optionalText "window_id" s.windowID ++
    optionalText "statement_id" s.statementID ++ optionalText "statement_line_id" s.statementLineID ++
    resetAt ++ startAt ++ endAt)))

variable {s : SubjectRef}

lemma validate_iff :
    s.validate table = .ok () ↔ s.kind.isKnown ∧ ¬ (s.attemptSeq ≠ 0 ∧ s.bLegID = []) ∧
      IdentityText table maxSchemaIDBytes s.storeID ∧
      (∀ x ∈ s.texts, x.2 ≠ [] → IdentityText table maxSchemaIDBytes x.2) ∧
      s.validateKind = .ok () := by
  have htext : ∀ x :
      String × GoStr, (if x.2 ≠ [] then validateIdentityText table (lit x.1) x.2 maxSchemaIDBytes
      else .ok ()) = .ok () ↔ (x.2 ≠ [] → IdentityText table maxSchemaIDBytes x.2) := by
    intro x
    by_cases hx : x.2 ≠ []
    · rw [if_pos hx, validateIdentityText_iff]
      exact ⟨fun h _ => h, fun h => h hx⟩
    · rw [if_neg hx]
      exact ⟨fun _ h => absurd h hx, fun _ => rfl⟩
  unfold validate
  simp only [seq_eq_ok, reject_eq_ok, validateIdentityText_iff, forM_eq_ok, htext, Bool.not_eq_false]

lemma validate_canonical (table : PrintTable) (s : SubjectRef) :
    s.canonical.validate table = s.validate table := by
  unfold canonical
  rw [Timestamp.canonical_eq, Timestamp.canonical_eq, Timestamp.canonical_eq]
  rfl

@[simp] lemma canonical_canonical (s : SubjectRef) : s.canonical.canonical = s.canonical := by
  simp [canonical]

def relocate (s : SubjectRef) (tenant period account : GoStr) : SubjectRef :=
  { s with tenantID := tenant, periodID := period, accountID := account }

lemma validate_relocate {tenant period account : GoStr}
    (h : s.validate table = .ok ()) (htexts : ∀ v ∈ [tenant, period, account], v ≠ [] →
      IdentityText table maxSchemaIDBytes v) (hperiod : s.periodID ≠ [] → period ≠ []) :
    (s.relocate tenant period account).validate table = .ok () := by
  obtain ⟨hknown, hattempt, hstore, hall, hkind⟩ := validate_iff.mp h
  refine validate_iff.mpr ⟨hknown, hattempt, hstore, ?_, ?_⟩
  · intro x hx
    rcases List.mem_append.mp hx with hx | hx
    · simp only [scopeTexts, List.mem_cons, List.not_mem_nil, or_false] at hx
      rcases hx with rfl | rfl | rfl
      · exact htexts tenant (by simp)
      · exact htexts account (by simp)
      · exact htexts period (by simp)
    · exact hall x (List.mem_append_right _ hx)
  · unfold validateKind at hkind ⊢
    cases hk : s.kind with
    | resource =>
      rw [hk] at hkind
      simp only [relocate, hk]
      simp only [seq_eq_ok, reject_eq_ok, not_or] at hkind ⊢
      exact ⟨⟨hkind.1.1, hperiod hkind.1.2⟩, hkind.2⟩
    | other _ => simp only [relocate, hk]
    | _ =>
      simpa only [relocate, hk] using hkind

def plainName (name : String) : Bool := (lit name).all fun b => b != 0x22 && b != 0x5C

variable {name : String} {ms : List GoStr}

lemma plainName_bytes (h : plainName name) : ∀ b ∈ lit name, b ≠ 0x22 ∧ b ≠ 0x5C := by
  intro b hb
  have := List.all_eq_true.mp h b hb
  simpa using this

lemma closed_cons (hname : plainName name) (hvalue : lex .outside value = some .outside)
    (h : Closed ms) : Closed (member name value :: ms) :=
  List.forall_mem_cons.mpr ⟨lex_member (plainName_bytes hname) hvalue, h⟩

lemma closed_append {ms' : List GoStr} (h : Closed ms) (h' : Closed ms') : Closed (ms ++ ms') :=
  List.forall_mem_append.mpr ⟨h, h'⟩

lemma closed_optionalText (s : GoStr) (hname : plainName name) : Closed (optionalText name s) := by
  unfold optionalText
  split_ifs
  · exact nofun
  · exact closed_cons hname (lex_quote s) nofun

lemma closed_optionalNat (n : ℕ) (hname : plainName name) : Closed (optionalNat name n) := by
  unfold optionalNat
  split_ifs
  · exact nofun
  · exact closed_cons hname (lex_formatNat n) nofun

lemma closed_optionalMember {t : Timestamp} (hname : plainName name)
    (h : t.optionalMember name = some ms) : Closed ms := by
  unfold Timestamp.optionalMember at h
  split_ifs at h
  · cases h
    exact nofun
  · obtain ⟨s, hs, rfl⟩ := Option.map_eq_some_iff.mp h
    exact closed_cons hname (lex_encodeTime hs) nofun

/-- A subject is written as a flat object whose first name is `kind`. -/
lemma marshal_object {payload : GoStr} (h : s.marshal = some payload) :
    ∃ members, Closed members ∧ payload = object members ∧
    ∃ rest, payload = 0x7B :: 0x22 :: 0x6B :: rest := by
  unfold marshal at h
  simp only [Option.bind_eq_bind, Option.bind_eq_some_iff] at h
  obtain ⟨reset, hreset, start, hstart, finish, hend, h⟩ := h
  refine ⟨_, ?_, (Option.some.inj h).symm, ?_⟩
  · refine closed_cons (by decide) (lex_quote _) (closed_cons (by decide) (lex_quote _) ?_)
    repeat apply closed_append
    all_goals first
      | exact closed_optionalMember (by decide) hreset
      | exact closed_optionalMember (by decide) hstart
      | exact closed_optionalMember (by decide) hend
      | exact closed_optionalText _ (by decide)
      | exact closed_optionalNat _ (by decide)
  · rw [← Option.some.inj h]
    exact ⟨_, rfl⟩

lemma marshal_not_nested {t : SubjectRef} {p q : GoStr} (hs : s.marshal = some p)
    (ht : t.marshal = some q) (u : GoStr) : p ≠ u ++ 0x3A :: q := by
  obtain ⟨members, hclosed, rfl, -⟩ := marshal_object hs
  obtain ⟨-, -, -, rest, rfl⟩ := marshal_object ht
  exact object_not_nested hclosed u rest

end SubjectRef

end InteractiveProxy.Metering
