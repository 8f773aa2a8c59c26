import InteractiveProxy.UsageAuthorityTypes

/-! The in-memory authority core: limit rows, reservations and unreserved usage facts, and the four
mutations on them. A mutation works on a copy of the core and publishes it only when every
descriptor succeeded. -/
namespace InteractiveProxy.UsageAuthority

open GoText KeyedTable SignedWord Attribution

/-- The JSON text of a row identity, which the store uses as map key. An encoding is never empty. -/
structure RowKeyCodec where
  encode : LimitRowIdentity → GoStr
  encode_ne_nil : ∀ i, encode i ≠ []

structure Config where
  backing : BackingCapability := .unset
  readiness : AuthorityStatus := {}
  limitRows : List LimitRow := []
  decisionRows : List DecisionRecord := []
  ruleWindows : Table GoStr WindowSpec := ∅

def Config.normalized (cfg : Config) : Config :=
  let cfg := { cfg with backing := if cfg.backing = .unset then .atomic else cfg.backing }
  if cfg.readiness.state.isKnown then cfg
  else { cfg with readiness := statusFromBacking cfg.backing }

structure StoreCore where
  backing : BackingCapability
  state : AuthorityStatus
  limits : Table GoStr LimitRow := ∅
  decisions : List DecisionRecord := []
  reservations : Table GoStr ReservationRecord := ∅
  resBySource : Table GoStr GoStr := ∅
  settleBySrc : Table GoStr GoStr := ∅
  releaseBySrc : Table GoStr GoStr := ∅
  applyUsageBySrc : List GoStr := []
  unreservedUsageFacts : Table GoStr UnreservedUsageFact := ∅
  nextDecision : Int64 := 0
  ruleWindows : Table GoStr WindowSpec := ∅
  limitTemplates : Table GoStr (List LimitRow) := ∅

def effectiveAuthorityNamespace (ns : GoStr) : GoStr :=
  if trimSpace ns = [] then lit "legacy" else trimSpace ns

variable (json : RowKeyCodec) (row : LimitRow)

def limitRowKey : GoStr :=
  json.encode
    { ruleID := row.ruleID
      authorityNamespace := effectiveAuthorityNamespace row.authorityNamespace
      perspective := row.perspective
      lifecycleScope := row.lifecycleScope
      basis := row.basis
      ruleVersion := row.ruleVersion
      correlation := row.correlation
      scope := row.scope
      unit := row.unit
      windowStart := row.windowStart
      windowEnd := row.windowEnd }

def StoreCore.seedRow (c : StoreCore) (row : LimitRow) : StoreCore :=
  { c with
    limits := c.limits.insert (limitRowKey json row) row
    limitTemplates := c.limitTemplates.insert row.ruleID
      ((c.limitTemplates.lookup row.ruleID).getD [] ++ [row]) }

variable (c : StoreCore)

def StoreCore.seedDecision (row : DecisionRecord) : StoreCore :=
  { c with
    decisions := c.decisions ++ [{ row with seq := c.nextDecision + 1 }]
    nextDecision := c.nextDecision + 1 }

/-- `newStoreCore`: seed rows, no reservation and no usage fact. -/
def newStoreCore (config : Config) : StoreCore :=
  let cfg := config.normalized
  let empty : StoreCore :=
    { backing := cfg.backing, state := cfg.readiness, ruleWindows := cfg.ruleWindows }
  let seeded := cfg.decisionRows.foldl StoreCore.seedDecision
    (cfg.limitRows.foldl (StoreCore.seedRow json) empty)
  { seeded with nextDecision := seeded.nextDecision + 1 }

def StoreCore.readiness : AuthorityStatus :=
  if c.state.state.isKnown then c.state else statusFromBacking c.backing

def StoreCore.ensureWritable : Except StoreError Unit :=
  match c.readiness.state with
  | .disabled => .error .disabled
  | .degraded => .error .degraded
  | .unavailable => .error .unavailable
  | .advisoryOnly | .ready => .ok ()
  | .unknown _ => .error .unavailable

def scopeValueMatches (filter actual : ScopeValue) : Bool := !filter.known || filter == actual

def scopeDimensionsMatch (row : ScopeSnapshot) (dims : Dimensions) : Bool :=
  scopeValueMatches row.principalID dims.principal &&
  scopeValueMatches row.credentialID dims.credential &&
  scopeValueMatches row.tenantID dims.tenant &&
  scopeValueMatches row.organizationID dims.organization &&
  scopeValueMatches row.workspaceID dims.workspace &&
  scopeValueMatches row.projectID dims.project &&
  scopeValueMatches row.departmentID dims.department &&
  scopeValueMatches row.costCenterID dims.costCenter &&
  row.principal.policyLabels.entries.all fun label =>
    scopeValueMatches (.ofString label.2) ((dims.policyLabels.lookup label.1).getD {})

def correlationFieldMatches (rowValue actual : GoStr) : Bool :=
  trimSpace rowValue == [] || rowValue == actual

def valueString (v : ScopeValue) : GoStr := if v.known then v.value else []

def rowMatches (dims : Dimensions) : Bool :=
  scopeDimensionsMatch row.scope dims &&
  correlationFieldMatches row.correlation.backendID (valueString dims.backend) &&
  correlationFieldMatches row.correlation.model (valueString dims.model)

def windowSpecConfigured (spec : WindowSpec) : Bool :=
  spec.algorithm ≠ .unset || spec.size ≠ 0 || spec.anchor ≠ 0

/-- The window of a template row at an instant; `none` where the row is skipped. -/
def StoreCore.windowedTemplate (ruleID : GoStr) (at_ : Time) (template : LimitRow) :
    Option LimitRow :=
  match (c.ruleWindows.lookup ruleID).filter windowSpecConfigured with
  | some spec =>
    match spec.bounds at_ with
    | .error _ => none
    | .ok b => some { template with windowStart := b.start, windowEnd := b.finish, windowResetAt := b.finish }
  | none => if template.windowEnd ≠ 0 ∧ template.windowEnd ≤ at_ then none else some template

/-- `configuredLimitRow`: the first template of the rule that matches, with its counters reset. -/
def StoreCore.configuredLimitRow (c : StoreCore) (ruleID : GoStr) (dims : Dimensions)
    (at_ : Time) : Option (LimitRow × GoStr) :=
  ((c.limitTemplates.lookup ruleID).getD []).findSome? fun template =>
    if !rowMatches template dims then none
    else (c.windowedTemplate ruleID at_ template).map fun row =>
      let candidate :=
        { row with consumed := 0, reserved := 0, adjustment := 0, remaining := max 0 row.limit }
      (candidate, limitRowKey json candidate)

/-- `matchLimitRow`: the live row, created from its template when the window is new. -/
def StoreCore.matchLimitRow (c : StoreCore) (ruleID : GoStr) (dims : Dimensions)
    (at_ : Time) : Option (StoreCore × LimitRow × GoStr) :=
  match c.configuredLimitRow json ruleID dims at_ with
  | none => none
  | some (candidate, key) =>
    match c.limits.lookup key with
    | some row => some (c, row, key)
    | none => some ({ c with limits := c.limits.insert key candidate }, candidate, key)

variable (rcd : ReservationRecord)

/-- `reservationRow`: the row a reservation was taken from. A record without a usable row key falls
back to the first matching row in table order; no run from a fresh core gets there. -/
def StoreCore.reservationRow : Option (LimitRow × GoStr) :=
  match if rcd.limitRowKey ≠ [] then c.limits.lookup rcd.limitRowKey else none with
  | some row => some (row, rcd.limitRowKey)
  | none =>
    (c.limits.entries.find? fun e => e.2.ruleID == rcd.ruleID && rowMatches e.2 rcd.dimensions).map
      fun e => (e.2, e.1)

def validateRowAmount (amount : Amount) : Except StoreError Unit :=
  let normalized : Amount := { amount with unit := amount.unit.ifUnset row.unit }
  match normalized.validate with
  | .error err => .error (.conflict (.invalidAmount err))
  | .ok () =>
    if row.unit ≠ AmountUnit.unset ∧ normalized.unit ≠ row.unit then
      .error (.conflict (.unitMismatch normalized.unit row.unit))
    else .ok ()

def StoreCore.appendDecision (row : LimitRow) (reservationID sourceKey : GoStr)
    (outcome : AccountingOutcome) (reason : GoStr) (authority : AccountingAuthoritySource)
    (settlementState : SettlementState) (amount : Amount) (released overage adjustment : Int64) :
    StoreCore :=
  { c with
    nextDecision := c.nextDecision + 1
    decisions := c.decisions ++
      [{ seq := c.nextDecision
         sourceKey := if sourceKey = [] then reservationID ++ lit "|" ++ reason else sourceKey
         ruleID := row.ruleID
         outcome, reasonCode := reason, authority, reservationID, settlementState
         unit := amount.unit.ifUnset row.unit
         limit := row.limit, consumed := row.consumed, reserved := row.reserved, remaining := row.remaining
         released, overage, adjustment
         windowStart := row.windowStart, windowEnd := row.windowEnd, windowResetAt := row.windowResetAt
         authorityNamespace := row.authorityNamespace, perspective := row.perspective
         lifecycleScope := row.lifecycleScope, basis := row.basis, ruleVersion := row.ruleVersion }] }

variable (sourceKey : GoStr)

def mutationDecisionSourceKey (kind : String) : GoStr := sourceKey ++ lit "|" ++ lit kind

def appendUniqueString (values : List GoStr) (value : GoStr) : List GoStr :=
  if value = [] ∨ value ∈ values then values else values ++ [value]

def firstNonEmpty (s t : GoStr) : GoStr := if s = [] then t else s

variable (cmd : ReserveCommand)

def reserveAmount : Amount := cmd.request

def ReservationKey.withRule (k : ReservationKey) (ruleID : GoStr) : ReservationKey :=
  { k with ruleID := if k.ruleID = [] then ruleID else k.ruleID }

def reserveDescriptors : List ReservationDescriptor :=
  if !cmd.reservations.isEmpty then cmd.reservations
  else
    let key := cmd.reservationKey.withRule cmd.ruleID
    let amount := reserveAmount cmd
    [{ ruleID := cmd.ruleID
       kind := if cmd.ruleType.isKnown then cmd.ruleType else .quota
       unit := amount.unit
       dimensions := cmd.dimensions
       reservationKey := key
       reservationID := key.string
       amount
       sourceKey := cmd.sourceKey }]

def reserveCommandFor (d : ReservationDescriptor) : ReserveCommand :=
  { cmd with
    reservations := []
    reservationKey := d.reservationKey
    ruleID := d.ruleID
    ruleType := d.kind
    dimensions := d.dimensions
    request := d.amount
    sourceKey := firstNonEmpty d.sourceKey d.reservationKey.string }

def StoreCore.reservationForDescriptor (d : ReservationDescriptor) : Option ReservationRecord :=
  if d.sourceKey ≠ [] then (c.resBySource.lookup d.sourceKey).bind c.reservations.lookup
  else c.reservations.lookup (d.reservationKey.withRule d.ruleID).string

def StoreCore.recordBySource (sources : Table GoStr GoStr) (sourceKey : GoStr) :
    Option ReservationRecord :=
  if sourceKey = [] then none else (sources.lookup sourceKey).bind c.reservations.lookup

def StoreCore.reserveExisting : Option ReserveResult :=
  (c.recordBySource c.resBySource sourceKey).map fun rcd =>
    { applied := false, reservationID := rcd.reservationID, reservedAmount := rcd.reservedAmount
      ruleID := rcd.ruleID, ruleType := rcd.ruleType }

def capacityReason : RuleKind → GoStr
  | .rate => lit "rate_limited"
  | _ => lit "quota_exceeded"

def StoreCore.recordReservation (row : LimitRow) (key : GoStr) (amount : Amount) :
    StoreCore × ReserveResult :=
  let reserved := row.reserved + amount.value
  let row := { row with reserved, remaining := max 0 (row.limit - row.consumed - reserved) }
  let rcd : ReservationRecord :=
    { reservationKey := cmd.reservationKey.string
      limitRowKey := key
      sourceKey := cmd.sourceKey
      reservationID := cmd.reservationKey.string
      ruleID := cmd.ruleID
      ruleType := cmd.ruleType
      dimensions := cmd.dimensions
      request := cmd.request
      authority := cmd.authority
      applied := true
      reservedAmount := amount
      createdAt := cmd.issuedAt }
  let c := { c with
    limits := c.limits.insert key row
    reservations := c.reservations.insert rcd.reservationKey rcd
    resBySource := c.resBySource.insert cmd.sourceKey rcd.reservationKey }
  (c.appendDecision row rcd.reservationID (mutationDecisionSourceKey cmd.sourceKey "reserve") .reserve
      (lit "reserved") .reserved .pending amount 0 0 0,
    { applied := true, reservationID := rcd.reservationID, reservedAmount := amount
      ruleID := cmd.ruleID, ruleType := cmd.ruleType })

def ReserveCommand.source : GoStr := firstNonEmpty cmd.sourceKey cmd.reservationKey.string

/-- `reserveOne`. A failure carries the working copy, whose deny decision the caller keeps. -/
def StoreCore.reserveOne (c : StoreCore) (command : ReserveCommand) :
    Except (StoreCore × StoreError) (StoreCore × ReserveResult) :=
  let cmd := { command with sourceKey := command.source }
  match c.reserveExisting cmd.sourceKey with
  | some out => .ok (c, out)
  | none =>
    if (c.reservations.lookup cmd.reservationKey.string).isSome then
      .error (c, .conflict .reservationKeyBelongsToAnotherSource)
    else
      match c.ensureWritable with
      | .error err => .error (c, err)
      | .ok () =>
        if cmd.estimateOnly then
          .ok (c, { applied := false, reservationID := cmd.reservationKey.string
                    ruleID := cmd.ruleID, ruleType := cmd.ruleType })
        else
          match c.matchLimitRow json cmd.ruleID cmd.dimensions cmd.issuedAt with
          | none => .error (c, .matchingLimitNotFound (lit "reserve"))
          | some (c, row, key) =>
            let amount := reserveAmount cmd
            if amount.value = 0 then .error (c, .conflict .emptyReserveAmount)
            else
              match validateRowAmount row amount with
              | .error err => .error (c, err)
              | .ok () =>
                let cmd := { cmd with ruleType := if cmd.ruleType = .unset then row.ruleType else cmd.ruleType }
                let remaining := row.limit - row.consumed - row.reserved
                -- only a strict-capable backing refuses; an advisory one records the overrun
                if c.backing.strictCapable ∧ remaining < amount.value then
                  .error
                    (c.appendDecision row cmd.reservationKey.string [] .deny (capacityReason cmd.ruleType)
                        .authoritative .unavailable amount 0 0 0,
                      .capacityExceeded amount ⟨amount.unit, max 0 remaining⟩)
                else .ok (c.recordReservation cmd row key amount)

def StoreCore.reserveSetExisting (ds : List ReservationDescriptor) : ReserveResult :=
  let items := ds.filterMap c.reservationForDescriptor
  { reservationID := (items.head?.map (·.reservationID)).getD []
    reservedAmount := (items.head?.map (·.reservedAmount)).getD {}
    ruleID := (items.head?.map (·.ruleID)).getD []
    ruleType := (items.head?.map (·.ruleType)).getD .unset
    reservations := items.map fun rcd => ⟨rcd.reservationID, rcd.ruleID, rcd.reservedAmount⟩ }

def reserveTurn (acc : StoreCore × Option ReserveResult)
    (d : ReservationDescriptor) :
    Except (StoreCore × StoreError) (StoreCore × Option ReserveResult) :=
  match acc.1.reserveOne json (reserveCommandFor cmd d) with
  | .error (c, err) => .error (c, .ruleReservation d.ruleID err)
  | .ok (c, out) =>
    let result := acc.2.getD out
    .ok (c, some { result with
      reservations := result.reservations ++ [⟨out.reservationID, d.ruleID, out.reservedAmount⟩] })

def StoreCore.reserveSetInPlace (c : StoreCore) (cmd : ReserveCommand) :
    Except (StoreCore × StoreError) (StoreCore × ReserveResult) :=
  let ds := reserveDescriptors cmd
  if ds.isEmpty then .error (c, .conflict .reservationSetEmpty)
  else
    let existing := ds.countP fun d => (c.reservationForDescriptor d).isSome
    if 0 < existing ∧ existing < ds.length then
      .error (c, .conflict .reservationSetPartiallyApplied)
    else if existing = ds.length then .ok (c, c.reserveSetExisting ds)
    else (ds.foldlM (reserveTurn json cmd) (c, none)).map fun r => (r.1, r.2.getD {})

def StoreCore.keepDecision (d : DecisionRecord) : StoreCore :=
  { c with
    decisions := c.decisions ++ [d]
    nextDecision := if c.nextDecision ≤ d.seq then d.seq + 1 else c.nextDecision }

def StoreCore.reserve (c : StoreCore) (cmd : ReserveCommand) :
    StoreCore × Except StoreError ReserveResult :=
  match c.reserveSetInPlace json cmd with
  | .error (working, err) =>
    let denied := (working.decisions.drop c.decisions.length).filter (·.outcome = .deny)
    (denied.foldl StoreCore.keepDecision c, .error err)
  | .ok (working, out) => (working, .ok out)

def normalizedMeasurementAuthority (value : MeasurementAuthority) (fallback : AuthorityLevel) :
    MeasurementAuthority :=
  { usage := if value.usage = .any then fallback else value.usage }

variable (cmd : SettleCommand)

def settlementAuthorityForCommand : MeasurementAuthority :=
  normalizedMeasurementAuthority cmd.measurementAuthority
    (if cmd.kind ≠ .final ∧ cmd.authority = .authoritative then .estimated else cmd.authority)

def authorityRank : AuthorityLevel → ℤ
  | .authoritative => 3
  | .estimated => 2
  | _ => 0

def measurementAuthorityUpgrade (prior incoming : MeasurementAuthority) (_ : AmountUnit) : Bool :=
  authorityRank prior.usage < authorityRank incoming.usage

def mergeMeasurementAuthority (prior incoming : MeasurementAuthority) : MeasurementAuthority :=
  { usage := if authorityRank prior.usage < authorityRank incoming.usage then incoming.usage else prior.usage }

def settleActual (cmd : SettleCommand) : Amount :=
  let actual := if !cmd.finalUsagePresent ∧ cmd.finalUsage.value = 0 then cmd.estimatedUsage
    else cmd.finalUsage
  { actual with unit := actual.unit.ifUnset rcd.reservedAmount.unit }

def settlementStateForCommand : SettlementKind → SettlementState
  | .partialUsage | .unavailable | .cancellation => .unavailable
  | .swallowed | .losing => .released
  | _ => .settled

def settleDescriptors : List SettlementDescriptor :=
  if !cmd.reservations.isEmpty then cmd.reservations
  else
    [{ reservation :=
        { ruleID := cmd.ruleID
          unit := cmd.reservedUsage.unit
          reservationKey := cmd.reservationKey.withRule cmd.ruleID
          reservationID := cmd.reservationID
          amount := cmd.reservedUsage
          sourceKey := cmd.sourceKey }
       finalUsage := cmd.finalUsage
       estimatedUsage := cmd.estimatedUsage
       sourceKey := cmd.sourceKey
       sequence := cmd.settlementKey.sequence
       authority := cmd.authority
       measurementAuthority := cmd.measurementAuthority }]

def settleCommandFor (d : SettlementDescriptor) : SettleCommand :=
  let overridden := d.measurementAuthority.usage ≠ .any ∨ d.authority ≠ .any
  let one := { cmd with
    reservations := []
    reservationKey := d.reservation.reservationKey
    reservationID := d.reservation.reservationID
    ruleID := d.reservation.ruleID
    finalUsage := d.finalUsage
    estimatedUsage := d.estimatedUsage
    reservedUsage := d.reservation.amount
    measurementAuthority := if overridden then d.measurementAuthority else cmd.measurementAuthority
    authority := if overridden then d.authority else cmd.authority }
  let measured := settlementAuthorityForCommand one
  let key : SettlementKey :=
    { reservationKey := d.reservation.reservationKey
      sequence := if d.sequence ≤ 0 then cmd.settlementKey.sequence else d.sequence }
  { one with
    measurementAuthority := measured
    authority := measured.forUnit d.reservation.amount.unit
    settlementKey := key
    sourceKey := firstNonEmpty (firstNonEmpty d.sourceKey d.reservation.sourceKey)
      (key.string ++ lit "|" ++ cmd.kind.name) }

def StoreCore.settleExisting : Option SettleResult :=
  (c.recordBySource c.settleBySrc sourceKey).map fun rcd =>
    { applied := false, reservationID := rcd.reservationID }

/-- The amount a first settlement takes off the row: the caller's, or the recorded one when the
caller names no unit. -/
def settledReservation (cmd : SettleCommand) : Amount :=
  if cmd.reservedUsage.unit = .unset then rcd.reservedAmount else cmd.reservedUsage

def settleResult (unit : AmountUnit) (released overage adjustment : Int64) : SettleResult :=
  { applied := true
    reservationID := rcd.reservationID
    releasedDelta := ⟨unit, released⟩
    overageDelta := ⟨unit, overage⟩
    adjustmentDelta := ⟨unit, adjustment⟩
    mutations := [⟨rcd.ruleID, rcd.reservationID, ⟨unit, released⟩, ⟨unit, overage⟩, ⟨unit, adjustment⟩⟩] }

def StoreCore.recordSettlement (rcd : ReservationRecord)
    (row : LimitRow) (key : GoStr) (reservedAmount actual : Amount) : StoreCore × SettleResult :=
  let released := if actual.value < reservedAmount.value then reservedAmount.value - actual.value
    else 0
  let overage := if reservedAmount.value < actual.value then actual.value - reservedAmount.value
    else 0
  let adjustment := released - overage
  let consumed := row.consumed + actual.value
  let reserved := max 0 (row.reserved - reservedAmount.value)
  let row := { row with
    consumed, reserved
    adjustment := row.adjustment + adjustment
    remaining := max 0 (row.limit - consumed - reserved) }
  let rcd := { rcd with
    settled := true
    settledAt := cmd.issuedAt
    settlementKind := cmd.kind
    settledAuthority := settlementAuthorityForCommand cmd
    settledActual := actual
    settlementSources := appendUniqueString rcd.settlementSources cmd.sourceKey }
  let c := { c with
    limits := c.limits.insert key row
    settleBySrc := c.settleBySrc.insert cmd.sourceKey rcd.reservationKey
    reservations := c.reservations.insert rcd.reservationKey rcd }
  (c.appendDecision row rcd.reservationID (mutationDecisionSourceKey cmd.sourceKey "settle") .reconcile
      (lit "reconciled") .reconciled (settlementStateForCommand cmd.kind) actual released overage adjustment,
    settleResult rcd actual.unit released overage adjustment)

def StoreCore.recordResettlement (rcd : ReservationRecord)
    (row : LimitRow) (key : GoStr) (newActual : Amount) : StoreCore × SettleResult :=
  let delta := newActual.value - rcd.settledActual.value
  let released := if delta < 0 then -delta else 0
  let overage := if 0 < delta then delta else 0
  let adjustment := released - overage
  let consumed := row.consumed + delta
  let row := if delta = 0 then row else { row with
    consumed
    adjustment := row.adjustment + adjustment
    remaining := max 0 (row.limit - consumed - row.reserved) }
  let rcd := { rcd with
    settledActual := newActual
    settlementKind := cmd.kind
    settledAuthority := mergeMeasurementAuthority rcd.settledAuthority (settlementAuthorityForCommand cmd)
    settlementSources := appendUniqueString rcd.settlementSources cmd.sourceKey }
  let c := { c with
    limits := if delta = 0 then c.limits else c.limits.insert key row
    settleBySrc := c.settleBySrc.insert cmd.sourceKey rcd.reservationKey
    reservations := c.reservations.insert rcd.reservationKey rcd }
  let decisionSourceKey := rcd.reservationID ++ lit "|authoritative_adjustment|" ++ cmd.sourceKey
  (c.appendDecision row rcd.reservationID decisionSourceKey .reconcile (lit "authoritative_adjustment")
      .reconciled (settlementStateForCommand cmd.kind) newActual released overage adjustment,
    settleResult rcd newActual.unit released overage adjustment)

def StoreCore.authoritativeResettle (rcd : ReservationRecord)
    (row : LimitRow) (key : GoStr) : Except StoreError (StoreCore × SettleResult) :=
  let newActual := settleActual rcd cmd
  match validateRowAmount row newActual with
  | .error err => .error err
  | .ok () => .ok (c.recordResettlement cmd rcd row key newActual)

def SettleCommand.source : GoStr :=
  firstNonEmpty cmd.sourceKey (cmd.settlementKey.string ++ lit "|" ++ cmd.kind.name)

/-- `settleOne`. A released reservation is settled like any other: only `settled` is looked at. -/
def StoreCore.settleOne (command : SettleCommand) : Except StoreError (StoreCore × SettleResult) :=
  let cmd := { command with sourceKey := command.source }
  match c.settleExisting cmd.sourceKey with
  | some out => .ok (c, out)
  | none =>
    match c.ensureWritable with
    | .error err => .error err
    | .ok () =>
      match c.reservations.lookup cmd.reservationKey.string with
      | none => .error (.conflict .reservationNotFound)
      | some rcd =>
        match c.reservationRow rcd with
        | none => .error (.matchingLimitNotFound (lit "settle"))
        | some (row, key) =>
          if rcd.settled then
            if !measurementAuthorityUpgrade rcd.settledAuthority (settlementAuthorityForCommand cmd)
                rcd.reservedAmount.unit then .error .duplicateSettlement
            else c.authoritativeResettle cmd rcd row key
          else
            let reservedAmount := settledReservation rcd cmd
            match validateRowAmount row reservedAmount with
            | .error err => .error err
            | .ok () =>
              let actual := settleActual rcd cmd
              match validateRowAmount row actual with
              | .error err => .error err
              | .ok () => .ok (c.recordSettlement cmd rcd row key reservedAmount actual)

def settleTurn (acc : StoreCore × Option SettleResult) (one : SettleCommand) :
    Except StoreError (StoreCore × Option SettleResult) :=
  (acc.1.settleOne one).map fun r => (r.1, some (match acc.2 with
    | none => r.2
    | some result => { result with
        applied := result.applied || r.2.applied
        mutations := result.mutations ++ r.2.mutations }))

def StoreCore.settleSetInPlace : Except StoreError (StoreCore × SettleResult) :=
  let ds := settleDescriptors cmd
  if ds.isEmpty then .error (.conflict .settlementSetEmpty)
  else ((ds.map (settleCommandFor cmd)).foldlM settleTurn (c, none)).map fun r => (r.1, r.2.getD {})

/-- `storeCore.settle`: publish the working copy only when the whole set settled. -/
def StoreCore.settle : StoreCore × Except StoreError SettleResult :=
  match c.settleSetInPlace cmd with
  | .error err => (c, .error err)
  | .ok (working, out) => (working, .ok out)

def releaseDescriptors (cmd : ReleaseCommand) : List ReleaseDescriptor :=
  if !cmd.reservations.isEmpty then cmd.reservations
  else
    [{ reservation :=
        { ruleID := cmd.ruleID
          unit := cmd.amount.unit
          reservationKey := cmd.reservationKey.withRule cmd.ruleID
          reservationID := cmd.reservationID
          amount := cmd.amount
          sourceKey := cmd.sourceKey }
       sourceKey := cmd.sourceKey
       sequence := cmd.releaseKey.sequence }]

def releaseCommandFor (cmd : ReleaseCommand) (d : ReleaseDescriptor) : ReleaseCommand :=
  let key : ReleaseKey :=
    { reservationKey := d.reservation.reservationKey
      sequence := if d.sequence ≤ 0 then cmd.releaseKey.sequence else d.sequence }
  { cmd with
    reservations := []
    reservationKey := d.reservation.reservationKey
    reservationID := d.reservation.reservationID
    ruleID := d.reservation.ruleID
    amount := d.reservation.amount
    releaseKey := key
    sourceKey := firstNonEmpty (firstNonEmpty d.sourceKey d.reservation.sourceKey)
      (key.string ++ lit "|" ++ cmd.kind.name) }

def StoreCore.releaseExisting : Option ReleaseResult :=
  (c.recordBySource c.releaseBySrc sourceKey).map fun rcd =>
    { applied := false, reservationID := rcd.reservationID }

/-- The amount a release asks for: the caller's, or the recorded one when the caller names no unit.
-/
def requestedRelease (cmd : ReleaseCommand) : Amount :=
  if cmd.amount.unit = .unset then rcd.reservedAmount else cmd.amount

def StoreCore.recordRelease (cmd : ReleaseCommand) (rcd : ReservationRecord) (row : LimitRow)
    (key : GoStr) (amount : Amount) : StoreCore × ReleaseResult :=
  let released := min amount.value rcd.reservedAmount.value
  let reserved := max 0 (row.reserved - released)
  let row := { row with
    reserved
    adjustment := row.adjustment + released
    remaining := max 0 (row.limit - row.consumed - reserved) }
  let rcd := { rcd with
    released := true
    releasedAt := cmd.issuedAt
    releaseKind := cmd.kind
    releaseSources := appendUniqueString rcd.releaseSources cmd.sourceKey }
  let c := { c with
    limits := c.limits.insert key row
    releaseBySrc := c.releaseBySrc.insert cmd.sourceKey rcd.reservationKey
    reservations := c.reservations.insert rcd.reservationKey rcd }
  (c.appendDecision row rcd.reservationID (mutationDecisionSourceKey cmd.sourceKey "release") .reconcile
      (lit "released") .reserved .released amount released 0 released,
    { applied := true
      reservationID := rcd.reservationID
      releasedDelta := ⟨amount.unit, released⟩
      mutations := [⟨rcd.ruleID, rcd.reservationID, ⟨amount.unit, released⟩⟩] })

def ReleaseCommand.source (cmd : ReleaseCommand) : GoStr :=
  firstNonEmpty cmd.sourceKey (cmd.releaseKey.string ++ lit "|" ++ cmd.kind.name)

/-- `releaseOne`. A settled reservation is released like any other: only `released` is looked at. -/
def StoreCore.releaseOne (command : ReleaseCommand) :
    Except StoreError (StoreCore × ReleaseResult) :=
  let cmd := { command with sourceKey := command.source }
  match c.releaseExisting cmd.sourceKey with
  | some out => .ok (c, out)
  | none =>
    match c.ensureWritable with
    | .error err => .error err
    | .ok () =>
      match c.reservations.lookup cmd.reservationKey.string with
      | none => .error (.conflict .reservationNotFound)
      | some rcd =>
        match c.reservationRow rcd with
        | none => .error (.matchingLimitNotFound (lit "release"))
        | some (row, key) =>
          if rcd.released then .ok (c, { applied := false, reservationID := rcd.reservationID })
          else
            let amount := requestedRelease rcd cmd
            if amount.value ≤ 0 then .error (.conflict .emptyReleaseAmount)
            else
              match validateRowAmount row amount with
              | .error err => .error err
              | .ok () => .ok (c.recordRelease cmd rcd row key amount)

def releaseTurn (acc : StoreCore × Option ReleaseResult) (one : ReleaseCommand) :
    Except StoreError (StoreCore × Option ReleaseResult) :=
  (acc.1.releaseOne one).map fun r => (r.1, some (match acc.2 with
    | none => r.2
    | some result => { result with
        applied := result.applied || r.2.applied
        mutations := result.mutations ++ r.2.mutations }))

def StoreCore.releaseSetInPlace (cmd : ReleaseCommand) :
    Except StoreError (StoreCore × ReleaseResult) :=
  let ds := releaseDescriptors cmd
  if ds.isEmpty then .error (.conflict .releaseSetEmpty)
  else ((ds.map (releaseCommandFor cmd)).foldlM releaseTurn (c, none)).map
    fun r => (r.1, r.2.getD {})

def StoreCore.release (cmd : ReleaseCommand) : StoreCore × Except StoreError ReleaseResult :=
  match c.releaseSetInPlace cmd with
  | .error err => (c, .error err)
  | .ok (working, out) => (working, .ok out)

def settlementSequence (kind : SettlementKind) (authority : AuthorityLevel) : ℤ :=
  match kind with
  | .partialUsage => 1
  | .cancellation => 2
  | .unavailable => 3
  | .final => if authority = .authoritative then 5 else 4
  | .swallowed => 6
  | .losing => 7
  | .unknown _ => 1

def usageFactPrecedence (authority : AuthorityLevel) (kind : SettlementKind) : ℤ :=
  authorityRank authority * 100 + settlementSequence kind authority

def unreservedUsageFactKey (ruleID : GoStr) : GoStr :=
  if sourceKey = [] then [] else sourceKey ++ [0x1f] ++ ruleID

def authoritySourceForUsage : AuthorityLevel → AccountingAuthoritySource
  | .authoritative => .authoritative
  | .estimated => .estimated
  | .unavailable => .unavailable
  | _ => .advisory

def Amount.string (a : Amount) : GoStr := itoa a.value.toInt ++ lit " " ++ a.unit.name

def advisoryDecisionSourceKey (fact : UnreservedUsageFact) : GoStr :=
  firstNonEmpty fact.sourceKey fact.ruleID ++ [0x1f] ++ fact.ruleID ++ [0x1f] ++
    fact.authority.name ++ [0x1f] ++
    fact.kind.name ++ [0x1f] ++ fact.limitRowKey ++ [0x1f] ++ fact.amount.string

def advisoryTokenAmount (cmd : ApplyUsageCommand) : Amount :=
  if row.unit = .requests then
    if cmd.requestCount.unit ≠ .unset then cmd.requestCount else ⟨row.unit, 1⟩
  else (cmd.usage.amountForUnit row.unit).getD ⟨row.unit, 0⟩

def enforceableAmount (tokenAmount fallback : Amount) : Amount :=
  if tokenAmount.value = 0 then fallback else tokenAmount

/-- Whether a stored fact makes the incoming one a no-op: it has precedence, or it says the same. -/
def UnreservedUsageFact.absorbs (previous : UnreservedUsageFact) (precedence : ℤ) (actual : Amount)
    (key : GoStr) : Bool :=
  let stored := usageFactPrecedence previous.authority previous.kind
  precedence < stored ||
    (precedence = stored && previous.amount = actual && previous.limitRowKey = key)

def LimitRow.withConsumed (consumed : Int64) : LimitRow :=
  { row with consumed, remaining := max 0 (row.limit - consumed - row.reserved) }

def StoreCore.withdrawFact (previous : UnreservedUsageFact) (key : GoStr) : StoreCore :=
  if previous.limitRowKey ≠ [] ∧ previous.limitRowKey ≠ key then
    match c.limits.lookup previous.limitRowKey with
    | none => c
    | some row =>
      let row := row.withConsumed (max 0 (row.consumed - previous.amount.value))
      { c with limits := c.limits.insert previous.limitRowKey row }
  else c

def StoreCore.withdraw (previous : Option UnreservedUsageFact) (key : GoStr) : StoreCore :=
  match previous with
  | some p => c.withdrawFact p key
  | none => c

/-- How far the row of the incoming amount moves: only by the difference when it replaces a fact
there. -/
def usageDelta (previous : Option UnreservedUsageFact) (key : GoStr) (actual : Amount) : Int64 :=
  match previous with
  | some p => if p.limitRowKey = key then actual.value - p.amount.value else actual.value
  | none => actual.value

def usageFact (cmd : ApplyUsageCommand) (ruleID key : GoStr) (actual : Amount)
    (measured : MeasurementAuthority) (effective : AuthorityLevel) : UnreservedUsageFact :=
  { sourceKey := cmd.sourceKey
    ruleID
    limitRowKey := key
    amount := actual
    authority := effective
    measurementAuthority := measured
    kind := cmd.kind
    recordedAt := cmd.issuedAt }

def StoreCore.recordUsage (cmd : ApplyUsageCommand) (ruleID key factKey : GoStr)
    (row : LimitRow) (previous : Option UnreservedUsageFact) (actual : Amount)
    (measured : MeasurementAuthority) (effective : AuthorityLevel) : StoreCore :=
  let c := c.withdraw previous key
  let row := row.withConsumed (max 0 (row.consumed + usageDelta previous key actual))
  let c := { c with limits := c.limits.insert key row }
  let fact := usageFact cmd ruleID key actual measured effective
  let c :=
    c.appendDecision row [] (advisoryDecisionSourceKey fact) .reconcile (lit "advisory_usage")
    (authoritySourceForUsage effective) .settled actual 0 0 0
  { c with unreservedUsageFacts :=
      if cmd.sourceKey = [] then c.unreservedUsageFacts
      else c.unreservedUsageFacts.insert factKey fact }

/-- Whether the amount is already accounted for: by the stored fact, or by a source known only from
an older ledger, which is not counted again. -/
def StoreCore.alreadyCounted (cmd : ApplyUsageCommand) (ruleID key : GoStr) (actual : Amount)
    (effective : AuthorityLevel) : Bool :=
  match c.unreservedUsageFacts.lookup (unreservedUsageFactKey cmd.sourceKey ruleID) with
  | some previous => previous.absorbs (usageFactPrecedence effective cmd.kind) actual key
  | none => cmd.sourceKey ≠ [] && cmd.sourceKey ∈ c.applyUsageBySrc

def usageAuthority (cmd : ApplyUsageCommand) : MeasurementAuthority :=
  normalizedMeasurementAuthority cmd.measurementAuthority cmd.authority

def usageAmount (cmd : ApplyUsageCommand) : Amount :=
  enforceableAmount (advisoryTokenAmount row cmd) {}

def applyUsageTurn (cmd : ApplyUsageCommand) (acc : StoreCore × List GoStr)
    (ruleID : GoStr) : Except StoreError (StoreCore × List GoStr) :=
  match acc.1.matchLimitRow json ruleID cmd.dimensions cmd.issuedAt with
  | none => .error (.matchingLimitNotFound (lit "apply_usage"))
  | some (c, row, key) =>
    let measured := usageAuthority cmd
    let effective := measured.forUnit row.unit
    let actual := usageAmount row cmd
    match validateRowAmount row actual with
    | .error err => .error err
    | .ok () =>
      if c.alreadyCounted cmd ruleID key actual effective then .ok (c, acc.2)
      else
        let factKey := unreservedUsageFactKey cmd.sourceKey ruleID
        let previous := c.unreservedUsageFacts.lookup factKey
        .ok (c.recordUsage cmd ruleID key factKey row previous actual measured effective, acc.2 ++ [ruleID])

def StoreCore.applyUsageInPlace (c : StoreCore) (cmd : ApplyUsageCommand) :
    Except StoreError (StoreCore × ApplyUsageResult) :=
  match c.ensureWritable with
  | .error err => .error err
  | .ok () =>
    if cmd.ruleIDs.isEmpty then .error (.conflict .advisoryRuleSetEmpty)
    else
      (cmd.ruleIDs.foldlM (applyUsageTurn json cmd) (c, [])).map fun r =>
        ({ r.1 with applyUsageBySrc :=
            if cmd.sourceKey = [] then r.1.applyUsageBySrc else cmd.sourceKey :: r.1.applyUsageBySrc },
          ⟨!r.2.isEmpty, r.2⟩)

def StoreCore.applyUsage (c : StoreCore) (cmd : ApplyUsageCommand) :
    StoreCore × Except StoreError ApplyUsageResult :=
  match c.applyUsageInPlace json cmd with
  | .error err => (c, .error err)
  | .ok (working, out) => (working, .ok out)

inductive Command
  | reserve (cmd : ReserveCommand)
  | settle (cmd : SettleCommand)
  | release (cmd : ReleaseCommand)
  | applyUsage (cmd : ApplyUsageCommand)

/-- The state after one command, failed commands included. -/
def StoreCore.step (c : StoreCore) : Command → StoreCore
  | .reserve cmd => (c.reserve json cmd).1
  | .settle cmd => (c.settle cmd).1
  | .release cmd => (c.release cmd).1
  | .applyUsage cmd => (c.applyUsage json cmd).1

open LedgerBalance StoreCore

variable {row : LimitRow}

lemma validateRowAmount_nonneg {amount : Amount} (h : validateRowAmount row amount = .ok ()) :
    0 ≤ amount.value.toInt := by
  unfold validateRowAmount at h
  dsimp only at h
  split at h
  · cases h
  rename_i hv
  unfold Amount.validate at hv
  split_ifs at hv with _ _ hneg
  rw [Int64.lt_iff_toInt_lt] at hneg
  simpa using hneg

/-- The row that `matchLimitRow` hands out is live in the core it returns: either it was there, or
it was opened with zero counters and the limit of a configured row. -/
inductive MatchEffect (c : StoreCore) : StoreCore → LimitRow → GoStr → Prop
  | found {row key} (hrow : c.limits.lookup key = some row) : MatchEffect c c row key
  | opened {row key} (habsent : c.limits.lookup key = none) (hconsumed : row.consumed = 0)
      (hreserved : row.reserved = 0)
      (hlimit : ∃ ruleID templates template, c.limitTemplates.lookup ruleID = some templates ∧
        template ∈ templates ∧ row.limit = template.limit) :
      MatchEffect c { c with limits := c.limits.insert key row } row key

variable {ruleID : GoStr} {at_ : Time}

lemma windowedTemplate_limit {c : StoreCore} {template : LimitRow}
    (h : c.windowedTemplate ruleID at_ template = some row) : row.limit = template.limit := by
  unfold windowedTemplate at h
  split at h
  · split at h
    · cases h
    · cases h
      rfl
  · split_ifs at h
    cases h
    rfl

variable {json : RowKeyCodec} {dims : Dimensions} {key : GoStr}

lemma configuredLimitRow_spec {c : StoreCore}
    (h : c.configuredLimitRow json ruleID dims at_ = some (row, key)) :
    key ≠ [] ∧ row.consumed = 0 ∧ row.reserved = 0 ∧
      ∃ ruleID templates template, c.limitTemplates.lookup ruleID = some templates ∧
        template ∈ templates ∧ row.limit = template.limit := by
  obtain ⟨template, hmem, ht⟩ := List.exists_of_findSome?_eq_some h
  split_ifs at ht
  obtain ⟨windowed, hw, hrow⟩ := Option.map_eq_some_iff.mp ht
  cases hrow
  refine ⟨json.encode_ne_nil _, rfl, rfl, ruleID, ?_⟩
  cases hl : c.limitTemplates.lookup ruleID with
  | none => simp [hl] at hmem
  | some templates =>
    rw [hl] at hmem
    have hlimit := windowedTemplate_limit hw
    exact ⟨templates, template, rfl, hmem, hlimit⟩

variable {c c' : StoreCore}

lemma matchLimitRow_effect (h : c.matchLimitRow json ruleID dims at_ = some (c', row, key)) :
    key ≠ [] ∧ MatchEffect c c' row key := by
  unfold matchLimitRow at h
  split at h
  · cases h
  rename_i candidate k hc
  obtain ⟨hkey, hconsumed, hreserved, hlimit⟩ := configuredLimitRow_spec hc
  split at h
  · rename_i live hlive
    cases h
    exact ⟨hkey, .found hlive⟩
  · rename_i habsent
    cases h
    exact ⟨hkey, .opened habsent hconsumed hreserved hlimit⟩

/-- Outcomes of a successful `reserveOne`. -/
inductive ReserveEffect (json : RowKeyCodec) (c : StoreCore) (cmd : ReserveCommand) :
    StoreCore → Prop
  | idle (hidle : cmd.estimateOnly ∨ (c.reserveExisting cmd.source).isSome) :
      ReserveEffect json c cmd c
  | granted {c₁ : StoreCore} {row : LimitRow} {key : GoStr} (one : ReserveCommand)
      (hnew : c.reserveExisting cmd.source = none) (hreal : cmd.estimateOnly = false)
      (hfree : c.reservations.lookup cmd.reservationKey.string = none)
      (hmatch : c.matchLimitRow json cmd.ruleID cmd.dimensions cmd.issuedAt = some (c₁, row, key))
      (hvalid : validateRowAmount row cmd.request = .ok ())
      (hroom : c₁.backing.strictCapable → cmd.request.value ≤ row.limit - row.consumed - row.reserved)
      (hone : one.reservationKey = cmd.reservationKey) (hsource : one.sourceKey = cmd.source) :
      ReserveEffect json c cmd (c₁.recordReservation one row key cmd.request).1

lemma reserveOne_effect {cmd : ReserveCommand} {out : ReserveResult}
    (h : c.reserveOne json cmd = .ok (c', out)) : ReserveEffect json c cmd c' := by
  unfold reserveOne at h
  dsimp only at h
  split at h
  · rename_i hfound
    cases h
    exact .idle (.inr (by rw [hfound]; rfl))
  rename_i hnew
  by_cases hfree : (c.reservations.lookup cmd.reservationKey.string).isSome
  · rw [if_pos hfree] at h
    cases h
  rw [if_neg hfree] at h
  split at h
  · cases h
  by_cases hestimate : cmd.estimateOnly
  · rw [if_pos hestimate] at h
    cases h
    exact .idle (.inl hestimate)
  · rw [if_neg hestimate] at h
    split at h
    · cases h
    rename_i c1 row key hmatch
    split at h
    · cases h
    split at h
    · cases h
    rename_i hvalid
    split at h
    · cases h
    rename_i hroom
    cases h
    refine .granted _ hnew (by simpa using hestimate)
      (by simpa using hfree) hmatch hvalid ?_ rfl rfl
    intro hstrict
    have hle : ¬ row.limit - row.consumed - row.reserved < cmd.request.value :=
      fun hlt => hroom ⟨hstrict, hlt⟩
    rw [Int64.lt_iff_toInt_lt] at hle
    rw [Int64.le_iff_toInt_le]
    omega

/-- Outcomes of a successful `settleOne`. -/
inductive SettleEffect (c : StoreCore) (cmd : SettleCommand) : StoreCore → Prop
  | replay : SettleEffect c cmd c
  | first {rcd : ReservationRecord} {row : LimitRow} {key : GoStr}
      (hnew : c.settleExisting cmd.source = none)
      (hrcd : c.reservations.lookup cmd.reservationKey.string = some rcd)
      (hrow : c.reservationRow rcd = some (row, key)) (hopen : rcd.settled = false)
      (hreserved : validateRowAmount row (settledReservation rcd cmd) = .ok ())
      (hactual : validateRowAmount row (settleActual rcd cmd) = .ok ()) :
      SettleEffect c cmd (c.recordSettlement { cmd with sourceKey := cmd.source } rcd row key
        (settledReservation rcd cmd) (settleActual rcd cmd)).1
  | again {rcd : ReservationRecord} {row : LimitRow} {key : GoStr}
      (hnew : c.settleExisting cmd.source = none)
      (hrcd : c.reservations.lookup cmd.reservationKey.string = some rcd)
      (hrow : c.reservationRow rcd = some (row, key)) (hsettled : rcd.settled)
      (hactual : validateRowAmount row (settleActual rcd cmd) = .ok ()) :
      SettleEffect c cmd (c.recordResettlement { cmd with sourceKey := cmd.source } rcd row key
        (settleActual rcd cmd)).1

lemma settleOne_effect {cmd : SettleCommand} {out : SettleResult}
    (h : c.settleOne cmd = .ok (c', out)) : SettleEffect c cmd c' := by
  unfold settleOne at h
  dsimp only at h
  split at h
  · cases h
    exact .replay
  rename_i hnew
  split at h
  · cases h
  split at h
  · cases h
  rename_i rcd hrcd
  split at h
  · cases h
  rename_i row key hrow
  cases hsettled : rcd.settled with
  | true =>
    rw [hsettled, if_pos rfl] at h
    split at h
    · cases h
    unfold authoritativeResettle at h
    dsimp only at h
    split at h
    · cases h
    · rename_i hactual
      cases h
      exact .again hnew hrcd hrow hsettled hactual
  | false =>
    rw [hsettled, if_neg Bool.false_ne_true] at h
    split at h
    · cases h
    rename_i hreserved
    split at h
    · cases h
    · rename_i hactual
      cases h
      exact .first hnew hrcd hrow hsettled hreserved hactual

/-- Outcomes of a successful `releaseOne`. -/
inductive ReleaseEffect (c : StoreCore) (cmd : ReleaseCommand) : StoreCore → Prop
  | replay : ReleaseEffect c cmd c
  | first {rcd : ReservationRecord} {row : LimitRow} {key : GoStr}
      (hnew : c.releaseExisting cmd.source = none)
      (hrcd : c.reservations.lookup cmd.reservationKey.string = some rcd)
      (hrow : c.reservationRow rcd = some (row, key)) (hopen : rcd.released = false)
      (hpos : 0 < (requestedRelease rcd cmd).value.toInt) :
      ReleaseEffect c cmd (c.recordRelease { cmd with sourceKey := cmd.source } rcd row key
        (requestedRelease rcd cmd)).1

lemma releaseOne_effect {cmd : ReleaseCommand} {out : ReleaseResult}
    (h : c.releaseOne cmd = .ok (c', out)) : ReleaseEffect c cmd c' := by
  unfold releaseOne at h
  dsimp only at h
  split at h
  · cases h
    exact .replay
  rename_i hnew
  split at h
  · cases h
  split at h
  · cases h
  rename_i rcd hrcd
  split at h
  · cases h
  rename_i row key hrow
  cases hreleased : rcd.released with
  | true =>
    rw [hreleased] at h
    cases h
    exact .replay
  | false =>
    rw [hreleased, if_neg Bool.false_ne_true] at h
    split at h
    · cases h
    rename_i hpos
    split at h
    · cases h
    · cases h
      refine .first hnew hrcd hrow hreleased ?_
      rw [Int64.le_iff_toInt_le] at hpos
      exact not_le.mp hpos

/-- Outcomes of a successful turn of `applyUsageInPlace`. -/
inductive UsageEffect (json : RowKeyCodec) (c : StoreCore) (cmd : ApplyUsageCommand)
    (ruleID : GoStr) : StoreCore → Prop
  | skipped {c₁ : StoreCore} {row : LimitRow} {key : GoStr}
      (hmatch : c.matchLimitRow json ruleID cmd.dimensions cmd.issuedAt = some (c₁, row, key)) :
      UsageEffect json c cmd ruleID c₁
  | counted {c₁ : StoreCore} {row : LimitRow} {key : GoStr}
      (hmatch : c.matchLimitRow json ruleID cmd.dimensions cmd.issuedAt = some (c₁, row, key))
      (hvalid : validateRowAmount row (usageAmount row cmd) = .ok ())
      (hnew : c₁.alreadyCounted cmd ruleID key (usageAmount row cmd) ((usageAuthority cmd).forUnit row.unit) = false) :
      UsageEffect json c cmd ruleID
        (c₁.recordUsage cmd ruleID key (unreservedUsageFactKey cmd.sourceKey ruleID) row
          (c₁.unreservedUsageFacts.lookup (unreservedUsageFactKey cmd.sourceKey ruleID))
          (usageAmount row cmd)
          (usageAuthority cmd) ((usageAuthority cmd).forUnit row.unit))

lemma applyUsageTurn_effect {cmd : ApplyUsageCommand} {acc : StoreCore × List GoStr}
    {acc' : StoreCore × List GoStr}
    (h : applyUsageTurn json cmd acc ruleID = .ok acc') :
    UsageEffect json acc.1 cmd ruleID acc'.1 := by
  unfold applyUsageTurn at h
  dsimp only at h
  split at h
  · cases h
  rename_i c1 row key hmatch
  split at h
  · cases h
  rename_i hvalid
  split at h
  · cases h
    exact .skipped hmatch
  · rename_i hnew
    cases h
    exact .counted hmatch hvalid (by simpa using hnew)

end InteractiveProxy.UsageAuthority
