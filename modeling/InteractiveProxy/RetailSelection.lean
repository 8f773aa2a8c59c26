import InteractiveProxy.AllocationRecord
import Mathlib.Data.List.MinMax

/-! Which B-legs of a call the customer is charged for, with the references to the observations
their quantities are rated from. -/
namespace InteractiveProxy.RetailSelection

open List GoText GuardedRun KeySort Metering
open Economics (ObservationRef)

inductive RetailError
  | invalid
  | incomplete
  | empty
  | ambiguous
  | outcomeUnknown
  | duplicate
  | scopeMismatch
  | untrusted
  | attemptSequenceUnknown

inductive LegOutcome
  | winner
  | loser
  | failed
  | canceled
  | swallowed
  | rejected
  | neverStarted
  | unknown
  | other
  deriving DecidableEq

inductive SurfacedState
  | yes
  | no
  | unknown
  | other
  deriving DecidableEq

inductive TurnOutcome
  | completed
  | failed
  | canceled
  | unknown
  | other
  deriving DecidableEq

inductive SelectionMode
  | surfacedWinner
  | namedOutcomes (subset : List LegOutcome)
  | allAttributable

structure Correlation where
  storeID : GoStr
  tenantID : GoStr := []
  aLegID : GoStr := []
  bLegID : GoStr := []
  billingCallID : GoStr := []
  callID : GoStr := []

/-- `atBackend` says that the lifecycle is a backend attempt and the boundary one of the backend,
`valid` is the answer of `Validate`, and `fingerprint` is missing where `Ref` fails. -/
structure Observation where
  id : GoStr
  revision : ℕ
  atBackend : Bool
  subject : SubjectRef
  correlation : Correlation
  valid : Bool
  fingerprint : Option GoStr

structure Leg where
  callID : GoStr
  aLegID : GoStr
  bLegID : GoStr
  attemptSeq : ℤ
  outcome : LegOutcome
  surfaced : SurfacedState
  observations : List Observation
  observationRefs : List ObservationRef
  conflicting : Bool
  valid : Bool

/-- `pinned` says that the pricing and policy references of the call are those of the policy. -/
structure Call where
  callID : GoStr
  aLegID : GoStr
  outcome : TurnOutcome
  expectedBLegIDs : List GoStr
  valid : Bool
  pinned : Bool

def refKey (r : ObservationRef) : GoStr :=
  r.storeID ++ 0 :: r.observationID ++ 0 :: formatNat r.revision

/-- The tenant and the store that the evidence taken so far agrees on. -/
structure Scope where
  tenant : GoStr := []
  tenantMissing : Bool := false
  store : GoStr := []

def Scope.join (s : Scope) (tenant store : GoStr) : Except RetailError Scope := do
  reject (s.store ≠ [] ∧ s.store ≠ store) .scopeMismatch
  reject (if tenant = [] then s.tenant ≠ [] else s.tenantMissing ∨ s.tenant ≠ [] ∧ s.tenant ≠ tenant) .scopeMismatch
  return ⟨if tenant = [] then s.tenant else tenant, s.tenantMissing || tenant = [], store⟩

variable (tenantID : GoStr) (call : Call)

def requireObservationCallLineage (o : Observation) : Except RetailError Unit :=
  let known := [o.subject.billingCallID, o.subject.callID, o.correlation.billingCallID, o.correlation.callID].filter
    (· ≠ [])
  reject (known = [] ∨ ∃ id ∈ known, id ≠ call.callID) .scopeMismatch

def addObservation (leg : Leg) (s : Scope × List ObservationRef) (o : Observation) :
    Except RetailError (Scope × List ObservationRef) := do
  reject (o.subject.kind ≠ .bLeg ∨ o.atBackend = false) .scopeMismatch
  reject (o.subject.storeID ≠ o.correlation.storeID) .scopeMismatch
  reject (o.subject.tenantID ≠ [] ∧ o.correlation.tenantID ≠ [] ∧ o.subject.tenantID ≠ o.correlation.tenantID)
    .scopeMismatch
  reject (o.valid = false) .incomplete
  reject (o.subject.bLegID ≠ leg.bLegID ∨ o.correlation.bLegID ≠ [] ∧ o.correlation.bLegID ≠ leg.bLegID) .scopeMismatch
  requireObservationCallLineage call o
  reject (∃ id ∈ [o.subject.aLegID, o.correlation.aLegID], id ≠ [] ∧ id ≠ leg.aLegID) .scopeMismatch
  let tenant := if o.subject.tenantID = [] then o.correlation.tenantID else o.subject.tenantID
  reject (tenantID ≠ [] ∧ tenant ≠ tenantID) .scopeMismatch
  let scope ← s.1.join tenant o.subject.storeID
  match o.fingerprint with
  | none => .error .incomplete
  | some hash =>
    let ref : ObservationRef := ⟨o.subject.storeID, o.id, o.revision, hash⟩
    reject (refKey ref ∈ s.2.map refKey) .duplicate
    return (scope, s.2 ++ [ref])

/-- The references in the order of store, observation and revision, and the scope they share. -/
def retailObservationRefs (leg : Leg) : Except RetailError (Scope × List ObservationRef) := do
  reject (leg.observations = []) .incomplete
  let (scope, refs) ← leg.observations.foldlM (addObservation tenantID call leg) ({}, [])
  reject (leg.observationRefs ≠ [] ∧ leg.observationRefs.length ≠ refs.length) .incomplete
  reject (∃ r ∈ leg.observationRefs, ∀ r' ∈ refs, ¬ (r.storeID = r'.storeID ∧ r.observationID = r'.observationID ∧
    r.revision = r'.revision ∧ r.payloadHash = r'.payloadHash)) .scopeMismatch
  reject (tenantID ≠ [] ∧ scope.tenant ≠ [] ∧ scope.tenant ≠ tenantID) .scopeMismatch
  return (scope, sortBy ObservationRef.sortKey refs)

variable (table : PrintTable)

def checkLeg (seen : List GoStr) (leg : Leg) : Except RetailError Unit := do
  reject (leg.outcome = .other ∨ leg.outcome = .unknown) .outcomeUnknown
  reject (leg.surfaced = .other) .invalid
  reject (leg.surfaced = .unknown) .incomplete
  reject (trimSpace leg.bLegID = []) .invalid
  reject (leg.bLegID ∈ seen) .duplicate
  reject (leg.callID ≠ call.callID ∨ leg.aLegID ≠ call.aLegID) .scopeMismatch
  reject (∃ r ∈ leg.observationRefs, (r.validate table).isOk = false) .invalid
  reject (¬ (leg.observationRefs.map refKey).Nodup) .invalid
  if leg.observations ≠ [] then
    let _ ← retailObservationRefs tenantID call leg
  reject (leg.valid = false) .invalid

def checkLegs : List GoStr → List Leg → Except RetailError Unit
  | _, [] => .ok ()
  | seen, leg :: rest => do
    checkLeg tenantID call table seen leg
    checkLegs (leg.bLegID :: seen) rest

def validateExpectedRetailBLegs (expected seen : List GoStr) : Except RetailError Unit := do
  reject (∃ id ∈ expected, id ∉ seen) .incomplete
  reject (expected ≠ [] ∧ ∃ id ∈ seen, id ∉ expected) .scopeMismatch

def attributable (legs : List Leg) : List Leg :=
  legs.filter fun l => l.outcome ≠ .neverStarted ∧ l.outcome ≠ .rejected

/-- Legs without an attempt number come last. -/
def sortRetailLegInfos (legs : List Leg) : List Leg :=
  sortBy (fun l => toLex (decide (l.attemptSeq = 0), toLex (l.attemptSeq, textOrder l.bLegID))) legs

def onlyLeg (candidates : List Leg) (none many : Except RetailError (List Leg)) :
    Except RetailError (List Leg) :=
  match candidates with
  | [] => none
  | [leg] => .ok [leg]
  | _ => many

def surfaced (legs : List Leg) : List Leg := legs.filter fun l => l.surfaced = .yes

/-- The first one with the largest attempt number. -/
def latestAttempt (legs : List Leg) : Option Leg :=
  @argmax _ _ Int.instLinearOrder.toPreorder _ Leg.attemptSeq legs

/-- Of several legs none of which surfaced, the latest attempt. -/
def selectInterruptedRetailLegInfos (eligible : List Leg) : Except RetailError (List Leg) :=
  onlyLeg (surfaced eligible)
    (onlyLeg eligible (.ok [])
      (if ∃ l ∈ eligible, l.attemptSeq ≤ 0 then .error .attemptSequenceUnknown
      else .ok (latestAttempt eligible).toList))
    (.error .ambiguous)

def selectSurfacedWinner (eligible : List Leg) : Except RetailError (List Leg) :=
  onlyLeg (surfaced eligible)
    (onlyLeg (eligible.filter fun l => l.outcome = .winner) (.ok []) (.error .ambiguous))
    (.error .ambiguous)

def selectRetailLegInfosForPolicy (outcome : TurnOutcome) (legs : List Leg) :
    SelectionMode → Except RetailError (List Leg)
  | .namedOutcomes subset => .ok
    (sortRetailLegInfos ((attributable legs).filter fun l => l.outcome ∈ subset))
  | .allAttributable => .ok (sortRetailLegInfos (attributable legs))
  | .surfacedWinner =>
    if outcome ≠ .completed then selectInterruptedRetailLegInfos (attributable legs)
    else selectSurfacedWinner (attributable legs)

/-- The fields that only copy the call and the policy are left out. -/
structure RetailSelectionResult where
  scope : Scope := {}
  selectedBLegs : List (Leg × List ObservationRef) := []
  observationRefs : List ObservationRef := []

def addLeg (s : RetailSelectionResult) (leg : Leg) : Except RetailError RetailSelectionResult := do
  reject (leg.conflicting) .untrusted
  let (found, refs) ← retailObservationRefs tenantID call leg
  let scope ← s.scope.join found.tenant found.store
  reject (¬ ((s.observationRefs ++ refs).map refKey).Nodup) .duplicate
  return ⟨scope, s.selectedBLegs ++ [(leg, refs)], s.observationRefs ++ refs⟩

/-- `policy` is the selection policy as `ResolveRetailSelectionPolicy` gives it for a valid charge
policy. -/
def selectRetailBLegEvidence (policy : Except RetailError SelectionMode) (legs : List Leg) :
    Except RetailError RetailSelectionResult := do
  let mode ← policy
  reject (call.outcome = .other ∨ call.outcome = .unknown) .outcomeUnknown
  reject (call.valid = false) .invalid
  reject (call.pinned = false) .scopeMismatch
  reject (legs = [] ∧ call.expectedBLegIDs ≠ []) .incomplete
  reject (legs = []) .empty
  checkLegs tenantID call table [] legs
  validateExpectedRetailBLegs call.expectedBLegIDs (legs.map Leg.bLegID)
  let selected ← selectRetailLegInfosForPolicy call.outcome legs mode
  reject (selected = []) .empty
  selected.foldlM (addLeg tenantID call) {}

variable {tenantID call table} {legs legs' : List Leg} {seen : List GoStr}

lemma checkLegs_iff : checkLegs tenantID call table seen legs = .ok () ↔
    (∀ leg ∈ legs, checkLeg tenantID call table [] leg = .ok () ∧ leg.bLegID ∉ seen) ∧
      (legs.map Leg.bLegID).Nodup := by
  refine walk_iff (checkLegs tenantID call table) Leg.bLegID id (fun seen leg => leg.bLegID :: seen)
    (fun _ _ => rfl) (fun _ => rfl) (fun seen leg rest => ?_) seen legs
  simp [checkLegs, checkLeg, seq_eq_ok, reject_eq_ok, and_assoc, and_left_comm]

lemma onlyLeg_perm {none none' many many' : Except RetailError (List Leg)} (hperm : legs.Perm legs')
    (hnone : legs = [] → none = none') (hmany : many = many') :
    onlyLeg legs none many = onlyLeg legs' none' many' := by
  match legs, legs', hperm.length_eq with
  | [], [], _ => exact hnone rfl
  | [leg], [leg'], _ => rw [singleton_perm_singleton.mp hperm]; rfl
  | _ :: _ :: _, _ :: _ :: _, _ => exact hmany

lemma sortRetailLegInfos_perm (hids : (legs.map Leg.bLegID).Nodup) (hperm : legs.Perm legs') :
    sortRetailLegInfos legs = sortRetailLegInfos legs' := by
  refine sortBy_eq_of_perm hperm fun a ha b hb hkey => eq_of_key_of_nodup hids a ha b hb ?_
  have hkey := congrArg (fun k => (ofLex (ofLex k).2).2) hkey
  exact textOrder_injective hkey

/-- Legs none of which surfaced, all with attempt numbers, two of which have the latest one. -/
structure LatestTied (legs : List Leg) (a b : Leg) : Prop where
  unsurfaced : surfaced legs = []
  numbered : ∀ l ∈ legs, 0 < l.attemptSeq
  left : a ∈ legs
  right : b ∈ legs
  latest : ∀ l ∈ legs, l.attemptSeq ≤ a.attemptSeq
  shared : b.attemptSeq = a.attemptSeq
  differ : b.bLegID ≠ a.bLegID

namespace LatestTied

variable {a b : Leg}

lemma symm (h : LatestTied legs a b) : LatestTied legs b a :=
  ⟨h.unsurfaced, h.numbered, h.right, h.left, fun l hl => (h.latest l hl).trans_eq h.shared.symm,
    h.shared.symm, h.differ.symm⟩

lemma perm (h : LatestTied legs a b) (hperm : legs.Perm legs') : LatestTied legs' a b where
  unsurfaced := by
    have hsurfaced : (surfaced legs).Perm (surfaced legs') := hperm.filter _
    rw [h.unsurfaced] at hsurfaced
    exact hsurfaced.nil_eq.symm
  numbered l hl := h.numbered l (hperm.mem_iff.mpr hl)
  left := hperm.mem_iff.mp h.left
  right := hperm.mem_iff.mp h.right
  latest l hl := h.latest l (hperm.mem_iff.mpr hl)
  shared := h.shared
  differ := h.differ

lemma select (h : LatestTied legs a b) (hfirst : latestAttempt legs = some a) :
    selectInterruptedRetailLegInfos legs = .ok [a] := by
  have hmissing : ¬ ∃ l ∈ legs, l.attemptSeq ≤ 0 :=
    fun ⟨l, hl, hle⟩ => not_lt.mpr hle (h.numbered l hl)
  rw [selectInterruptedRetailLegInfos, h.unsurfaced, if_neg hmissing, hfirst]
  match legs, h.left, h.right with
  | [_], hleft, hright =>
    exact absurd (by rw [mem_singleton.mp hleft, mem_singleton.mp hright]) h.differ
  | _ :: _ :: _, _, _ => rfl

lemma latestAttempt_cons {rest : List Leg} (h : LatestTied (a :: rest) a b) :
    latestAttempt (a :: rest) = some a := by
  rw [latestAttempt, argmax_cons]
  cases hrest : @argmax _ _ Int.instLinearOrder.toPreorder _ Leg.attemptSeq rest with
  | none => rfl
  | some c => exact if_neg (not_lt.mpr (h.latest c (mem_cons_of_mem a (argmax_mem hrest))))

end LatestTied

/-- The order of the legs decides only between those that share the latest attempt number. -/
lemma latestAttempt_perm (hids : (legs.map Leg.bLegID).Nodup) (hsurfaced : surfaced legs = [])
    (hnumbered : ∀ l ∈ legs, 0 < l.attemptSeq) (hperm : legs.Perm legs') :
    latestAttempt legs = latestAttempt legs' ∨ ∃ a b, LatestTied legs a b ∧
    latestAttempt legs = some a := by
  cases h : latestAttempt legs with
  | none =>
    rw [argmax_eq_none.mp h] at hperm
    rw [← hperm.nil_eq]
    exact .inl rfl
  | some a =>
    cases h' : latestAttempt legs' with
    | none =>
      rw [argmax_eq_none.mp h'] at hperm
      rw [hperm.eq_nil] at h
      cases h
    | some b =>
      have ha : a ∈ legs := argmax_mem h
      have hb : b ∈ legs := hperm.mem_iff.mpr (argmax_mem h')
      have hle : ∀ c ∈ legs, c.attemptSeq ≤ a.attemptSeq := fun c hc => le_of_mem_argmax hc h
      have hge : a.attemptSeq ≤ b.attemptSeq := le_of_mem_argmax (hperm.mem_iff.mp ha) h'
      by_cases hid : b.bLegID = a.bLegID
      · exact .inl (congrArg some (eq_of_key_of_nodup hids b hb a ha hid).symm)
      · exact .inr ⟨a, b, ⟨hsurfaced, hnumbered, ha, hb, hle, le_antisymm (hle b hb) hge, hid⟩, rfl⟩

/-- The checks that come before the selection. -/
structure Admitted (tenantID : GoStr) (call : Call) (table : PrintTable) (legs : List Leg) :
    Prop where
  known : ¬ (call.outcome = .other ∨ call.outcome = .unknown)
  valid : call.valid
  pinned : call.pinned
  checked : ∀ leg ∈ legs, checkLeg tenantID call table [] leg = .ok ()
  distinct : (legs.map Leg.bLegID).Nodup
  expected : validateExpectedRetailBLegs call.expectedBLegIDs (legs.map Leg.bLegID) = .ok ()

lemma Admitted.perm (h : Admitted tenantID call table legs) (hperm : legs.Perm legs') :
    Admitted tenantID call table legs' := by
  refine ⟨h.known, h.valid, h.pinned, fun leg hleg => h.checked leg (hperm.mem_iff.mpr hleg),
    (hperm.map _).nodup_iff.mp h.distinct, ?_⟩
  have hexpected := h.expected
  simp only [validateExpectedRetailBLegs, seq_eq_ok, reject_eq_ok] at hexpected ⊢
  simpa only [(hperm.map _).mem_iff] using hexpected

lemma selectRetailBLegEvidence_ok {policy : Except RetailError SelectionMode}
    {r : RetailSelectionResult} :
    selectRetailBLegEvidence tenantID call table policy legs = .ok r ↔
    Admitted tenantID call table legs ∧ legs ≠ [] ∧
      ∃ mode, policy = .ok mode ∧
      ∃ selected, selectRetailLegInfosForPolicy call.outcome legs mode = .ok selected ∧
        selected ≠ [] ∧ selected.foldlM (addLeg tenantID call) {} = .ok r := by
  unfold selectRetailBLegEvidence
  rw [bind_eq_ok]
  simp only [seq_eq_ok, reject_eq_ok, checkLegs_iff, not_mem_nil, not_false_eq_true, and_true, Bool.not_eq_false]
  constructor
  · rintro ⟨mode, hmode, hknown, hvalid, hpinned, -, hnil, ⟨hchecked, hids⟩, hexpected, h⟩
    obtain ⟨selected, hselected, h⟩ := bind_eq_ok.mp h
    obtain ⟨hne, hr⟩ := seq_eq_ok.mp h
    exact ⟨⟨hknown, hvalid, hpinned, hchecked, hids, hexpected⟩, hnil, mode, hmode, selected,
      hselected, reject_eq_ok.mp hne, hr⟩
  · rintro ⟨h, hnil, mode, hmode, selected, hselected, hne, hr⟩
    exact ⟨mode, hmode, h.known, h.valid, h.pinned, fun h => hnil h.1, hnil, ⟨h.checked, h.distinct⟩, h.expected,
      bind_eq_ok.mpr ⟨selected, hselected, seq_eq_ok.mpr ⟨reject_eq_ok.mpr hne, hr⟩⟩⟩

lemma retailObservationRefs_nodup {leg : Leg} {scope : Scope} {refs : List ObservationRef}
    (h : retailObservationRefs tenantID call leg = .ok (scope, refs)) :
    (refs.map refKey).Nodup := by
  obtain ⟨s, hs, h⟩ := bind_eq_ok.mp (seq_eq_ok.mp h).2
  obtain ⟨-, rfl⟩ :=
    Prod.mk.inj (Except.ok.inj (seq_eq_ok.mp (seq_eq_ok.mp (seq_eq_ok.mp h).2).2).2)
  refine ((sortBy_perm _ _).map refKey).nodup_iff.mpr ?_
  refine loop_induct (s := ({}, []))
    (fun s : Scope × List ObservationRef => (s.2.map refKey).Nodup) ?_ nodup_nil
    (loopMeets_of_forall (fun _ _ => True) (fun _ _ => trivial) _ _) hs
  intro s o s' hnodup _ hs'
  simp only [addObservation, requireObservationCallLineage, seq_eq_ok, reject_eq_ok] at hs'
  obtain ⟨scope, -, hs'⟩ := bind_eq_ok.mp hs'.2.2.2.2.2.2.2.2
  cases hhash : o.fingerprint with
  | none =>
    rw [hhash] at hs'
    cases hs'
  | some hash =>
    rw [hhash] at hs'
    obtain ⟨hnew, hs'⟩ := seq_eq_ok.mp hs'
    rw [← Except.ok.inj hs', map_append, nodup_append]
    refine ⟨hnodup, nodup_singleton _, ?_⟩
    rintro _ hkey _ hsame rfl
    rw [mem_singleton.mp hsame] at hkey
    exact reject_eq_ok.mp hnew hkey

/-- A leg that passes its checks can be charged alone when it has observations and these do not
conflict. -/
lemma addLeg_alone {leg : Leg} (h : checkLeg tenantID call table [] leg = .ok ()) :
    (∃ r, addLeg tenantID call {} leg = .ok r) ↔ leg.conflicting = false ∧
    leg.observations ≠ [] := by
  constructor
  · rintro ⟨r, hr⟩
    simp only [addLeg, seq_eq_ok, reject_eq_ok, Bool.not_eq_true] at hr
    obtain ⟨found, hfound, -⟩ := bind_eq_ok.mp hr.2
    exact ⟨hr.1, reject_eq_ok.mp (seq_eq_ok.mp hfound).1⟩
  · rintro ⟨htrusted, hobserved⟩
    simp only [checkLeg, seq_eq_ok, reject_eq_ok, if_pos hobserved] at h
    obtain ⟨⟨scope, refs⟩, hrefs, -⟩ := bind_eq_ok.mp h.2.2.2.2.2.2.2.2
    have hkeys := retailObservationRefs_nodup hrefs
    refine ⟨_, seq_eq_ok.mpr ⟨reject_eq_ok.mpr (Bool.eq_false_iff.mp htrusted), bind_eq_ok.mpr ⟨_, hrefs,
      bind_eq_ok.mpr ⟨_, seq_eq_ok.mpr ⟨reject_eq_ok.mpr fun h => h.1 rfl, seq_eq_ok.mpr ⟨reject_eq_ok.mpr ?_, rfl⟩⟩,
        seq_eq_ok.mpr ⟨reject_eq_ok.mpr (not_not.mpr hkeys), rfl⟩⟩⟩⟩⟩
    split_ifs <;> simp

lemma addLeg_selects {leg : Leg} {s r : RetailSelectionResult}
    (h : addLeg tenantID call s leg = .ok r) :
    ∃ refs, r.selectedBLegs = s.selectedBLegs ++ [(leg, refs)] := by
  obtain ⟨found, -, h⟩ := bind_eq_ok.mp (seq_eq_ok.mp h).2
  obtain ⟨scope, -, h⟩ := bind_eq_ok.mp h
  obtain rfl := Except.ok.inj (seq_eq_ok.mp h).2
  exact ⟨found.2, rfl⟩

/-- The legs of an interrupted call that the policy charges by its surfaced leg or latest attempt,
of which two have the latest attempt number and the first of these can be charged. -/
structure Undecided (tenantID : GoStr) (call : Call) (table : PrintTable)
    (policy : Except RetailError SelectionMode) (legs : List Leg) (a b : Leg) : Prop where
  admitted : Admitted tenantID call table legs
  mode : policy = .ok .surfacedWinner
  interrupted : call.outcome ≠ .completed
  tied : LatestTied (attributable legs) a b
  trusted : a.conflicting = false
  observed : a.observations ≠ []

lemma selectRetailLegInfosForPolicy_perm {mode : SelectionMode} {selected : List Leg}
    (hids : (legs.map Leg.bLegID).Nodup) (hperm : legs.Perm legs')
    (h : selectRetailLegInfosForPolicy call.outcome legs mode = .ok selected) :
    selectRetailLegInfosForPolicy call.outcome legs' mode = .ok selected ∨
      mode = .surfacedWinner ∧ call.outcome ≠ .completed ∧
      ∃ a b, LatestTied (attributable legs) a b ∧ selected = [a] := by
  have hids : ((attributable legs).map Leg.bLegID).Nodup := hids.sublist (filter_sublist.map _)
  have heligible : (attributable legs).Perm (attributable legs') := hperm.filter _
  cases mode with
  | namedOutcomes subset =>
    exact .inl ((congrArg Except.ok (sortRetailLegInfos_perm (hids.sublist (filter_sublist.map _))
      (heligible.filter _))).symm.trans h)
  | allAttributable =>
    exact .inl ((congrArg Except.ok (sortRetailLegInfos_perm hids heligible)).symm.trans h)
  | surfacedWinner =>
    unfold selectRetailLegInfosForPolicy at h ⊢
    split_ifs at h ⊢ with houtcome
    · by_contra hnot
      rw [not_or] at hnot
      refine hnot.1 (Eq.trans ?_ h)
      refine (onlyLeg_perm (heligible.filter _) (fun hsurfaced => onlyLeg_perm heligible (fun _ => rfl) ?_) rfl).symm
      simp only [← heligible.mem_iff]
      split_ifs with hmissing
      · rfl
      simp only [not_exists, not_and, not_le] at hmissing
      rcases latestAttempt_perm hids hsurfaced hmissing heligible with hsame | ⟨a, b, htied, ha⟩
      · rw [hsame]
      · rw [htied.select ha] at h
        exact absurd ⟨rfl, houtcome, a, b, htied, (Except.ok.inj h).symm⟩ hnot.2
    · exact .inl ((onlyLeg_perm (heligible.filter _)
        (fun _ => onlyLeg_perm (heligible.filter _) (fun _ => rfl) rfl) rfl).symm.trans h)

lemma selectRetailBLegEvidence_perm {policy : Except RetailError SelectionMode}
    {r : RetailSelectionResult}
    (hdecided : ¬ ∃ a b, Undecided tenantID call table policy legs a b) (hperm : legs.Perm legs')
    (h : selectRetailBLegEvidence tenantID call table policy legs = .ok r) :
    selectRetailBLegEvidence tenantID call table policy legs' = .ok r := by
  obtain ⟨hadmitted, hnil, mode, hmode, selected, hselected, hne, hr⟩ :=
    selectRetailBLegEvidence_ok.mp h
  rcases selectRetailLegInfosForPolicy_perm hadmitted.distinct hperm hselected
    with hselected | ⟨rfl, houtcome, a, b, htied, rfl⟩
  · exact selectRetailBLegEvidence_ok.mpr ⟨hadmitted.perm hperm, fun h => hnil (h ▸ hperm).eq_nil,
      mode, hmode, selected, hselected, hne, hr⟩
  · obtain ⟨r', hr', -⟩ := bind_eq_ok.mp hr
    obtain ⟨htrusted, hobserved⟩ :=
      (addLeg_alone (hadmitted.checked a (mem_of_mem_filter htied.left))).mp ⟨r', hr'⟩
    exact absurd ⟨a, b, hadmitted, hmode, houtcome, htied, htrusted, hobserved⟩ hdecided

lemma Undecided.perm {policy : Except RetailError SelectionMode} {a b : Leg}
    (h : Undecided tenantID call table policy legs a b) (hperm : legs.Perm legs') :
    Undecided tenantID call table policy legs' a b :=
  ⟨h.admitted.perm hperm, h.mode, h.interrupted, h.tied.perm (hperm.filter _), h.trusted, h.observed⟩

/-- Where the first of two tied legs comes first, the result is what it adds to the empty one. -/
lemma LatestTied.evidence_cons {a b : Leg} {r : RetailSelectionResult} {rest : List Leg}
    (hadmitted : Admitted tenantID call table (a :: rest))
    (hinterrupted : call.outcome ≠ .completed)
    (htied : LatestTied (attributable (a :: rest)) a b) :
    selectRetailBLegEvidence tenantID call table (.ok .surfacedWinner) (a :: rest) = .ok r ↔
      addLeg tenantID call {} a = .ok r := by
  have hfirst : attributable (a :: rest) = a :: attributable rest :=
    filter_cons_of_pos (mem_filter.mp htied.left).2
  rw [hfirst] at htied
  have hselect :
      selectRetailLegInfosForPolicy call.outcome (a :: rest) .surfacedWinner = .ok [a] := by
    rw [selectRetailLegInfosForPolicy, if_pos hinterrupted, hfirst]
    exact htied.select htied.latestAttempt_cons
  have hfold : [a].foldlM (addLeg tenantID call) {} = addLeg tenantID call {} a := by
    cases h : addLeg tenantID call {} a <;> simp [h, bind, Except.bind, pure, Except.pure]
  rw [selectRetailBLegEvidence_ok]
  constructor
  · rintro ⟨-, -, mode, hmode, selected, hselected, -, hr⟩
    cases Except.ok.inj hmode
    rw [hselect] at hselected
    rwa [← Except.ok.inj hselected, hfold] at hr
  · intro hr
    exact ⟨hadmitted, cons_ne_nil a rest, _, rfl, [a], hselect, cons_ne_nil a [], hfold.trans hr⟩

/-- The selection is the same for every order of the legs just when the order does not decide
between two legs. -/
theorem selection_ignores_order (tenantID : GoStr) (call : Call) (table : PrintTable)
    (policy : Except RetailError SelectionMode) (legs : List Leg) :
    (∀ legs', legs.Perm legs' → ∀ r, selectRetailBLegEvidence tenantID call table policy legs = .ok r ↔
        selectRetailBLegEvidence tenantID call table policy legs' = .ok r) ↔
      ¬ ∃ a b, Undecided tenantID call table policy legs a b := by
  constructor
  · rintro hsame ⟨a, b, h⟩
    obtain ⟨resta, ha⟩ : ∃ rest, legs.Perm (a :: rest) := by
      obtain ⟨before, after, rfl⟩ := append_of_mem (mem_of_mem_filter h.tied.left)
      exact ⟨_, perm_middle⟩
    obtain ⟨restb, hb⟩ : ∃ rest, legs.Perm (b :: rest) := by
      obtain ⟨before, after, rfl⟩ := append_of_mem (mem_of_mem_filter h.tied.right)
      exact ⟨_, perm_middle⟩
    obtain ⟨r, hr⟩ := (addLeg_alone (h.admitted.checked a (mem_of_mem_filter h.tied.left))).mpr ⟨h.trusted, h.observed⟩
    have hselect := (LatestTied.evidence_cons (h.admitted.perm ha) h.interrupted (h.tied.perm (ha.filter _))).mpr hr
    rw [← h.mode, ← hsame _ ha r, hsame _ hb r, h.mode] at hselect
    have hr' := (LatestTied.evidence_cons (h.admitted.perm hb) h.interrupted (h.tied.symm.perm (hb.filter _))).mp
      hselect
    obtain ⟨refs, hrefs⟩ := addLeg_selects hr
    obtain ⟨refs', hrefs'⟩ := addLeg_selects hr'
    have hleg := (Prod.mk.inj (singleton_inj.mp (hrefs'.symm.trans hrefs))).1
    exact h.tied.differ (congrArg Leg.bLegID hleg)
  · intro hdecided legs' hperm r
    exact ⟨selectRetailBLegEvidence_perm hdecided hperm, selectRetailBLegEvidence_perm
      (fun ⟨a, b, h⟩ => hdecided ⟨a, b, h.perm hperm.symm⟩) hperm.symm⟩

/-- A leg that failed before anything of it was shown. -/
def failedLeg (id : GoStr) (attemptSeq : ℤ) : Leg where
  callID := [0x63]
  aLegID := [0x61]
  bLegID := id
  attemptSeq := attemptSeq
  outcome := .failed
  surfaced := .no
  observations := [⟨id, 1, true,
    { SubjectRef.empty with kind := .bLeg, storeID := [0x73], bLegID := id, callID := [0x63] },
    ⟨[0x73], [], [], [], [], []⟩,
    true, some [0x30]⟩]
  observationRefs := []
  conflicting := false
  valid := true

def failedCall : Call := ⟨[0x63], [0x61], .failed, [], true, true⟩

theorem selection_ignores_order_failed : ∃ r : RetailSelectionResult,
    selectRetailBLegEvidence [] failedCall asciiTable (.ok .surfacedWinner)
        [failedLeg [0x31] 1, failedLeg [0x32] 2] = .ok r ∧
      selectRetailBLegEvidence [] failedCall asciiTable (.ok .surfacedWinner)
        [failedLeg [0x32] 2, failedLeg [0x31] 1] = .ok r := by
  refine ⟨_, rfl, ((selection_ignores_order _ _ _ _ _).mpr ?_ _ (.swap _ _ _) _).mp rfl⟩
  rintro ⟨a, b, h⟩
  have hmem {l : Leg} (hl : l ∈ attributable [failedLeg [0x31] 1, failedLeg [0x32] 2]) :
      l = failedLeg [0x31] 1 ∨ l = failedLeg [0x32] 2 := by simpa using mem_of_mem_filter hl
  have hshared := h.tied.shared
  have hdiffer := h.tied.differ
  rcases hmem h.tied.left with rfl | rfl <;> rcases hmem h.tied.right with rfl | rfl
  · exact hdiffer rfl
  · exact absurd hshared (by decide)
  · exact absurd hshared (by decide)
  · exact hdiffer rfl

theorem selection_follows_order :
    let select legs :=
      (selectRetailBLegEvidence [] failedCall asciiTable (.ok .surfacedWinner) legs).toOption.map
      fun r => r.selectedBLegs.map fun s => s.1.bLegID
    select [failedLeg [0x31] 1, failedLeg [0x32] 1] = some [[0x31]] ∧
      select [failedLeg [0x32] 1, failedLeg [0x31] 1] = some [[0x32]] := by
  decide

end InteractiveProxy.RetailSelection
