import InteractiveProxy.UsageAuthorityLedger

/-! The counters of a limit row against its reservations. Settling and releasing look at different
terminal flags, so a reservation can be taken off its row twice; where each takes off what is due
and the 64-bit counter does not wrap, a strict-capable core does not oversell. -/
namespace InteractiveProxy.UsageAuthority

open GoText KeyedTable SignedWord Attribution LedgerBalance GuardedRun ReservationRecord

variable {json : RowKeyCodec} {c c' : StoreCore} {row row' : LimitRow} {key : GoStr}

/-- Each row's `Reserved` is the sum over its outstanding reservations. -/
def ReservedBalanced (c : StoreCore) : Prop :=
  Balanced (fun row : LimitRow => row.reserved.toInt) c.outstanding c.limits
  deriving Decidable

/-- Taking `taken` off a row that holds `held` removes exactly `due`: either it is that amount, or
the row holds no more than what is due and the clamp at zero swallows the rest. -/
def TakesDue (held due taken : ℤ) : Prop := taken = due ∨ held = due ∧ due ≤ taken
  deriving Decidable

lemma TakesDue.clamp {held due taken : ℤ} (h : TakesDue held due taken) (hle : due ≤ held) :
    max 0 (held - taken) = held - due ∨ due < 0 := by
  rcases h with rfl | ⟨rfl, h⟩ <;> omega

def ReserveFits (json : RowKeyCodec) (c : StoreCore) (cmd : ReserveCommand) : Prop :=
  (c.reserveExisting cmd.source).isNone → cmd.estimateOnly = false →
    ∀ found ∈ c.matchLimitRow json cmd.ruleID cmd.dimensions cmd.issuedAt,
      found.2.1.reserved.toInt + cmd.request.value.toInt < 2 ^ 63
  deriving Decidable

def SettlesDue (c : StoreCore) (cmd : SettleCommand) : Prop :=
  (c.settleExisting cmd.source).isNone →
    ∀ rcd ∈ c.reservations.lookup cmd.reservationKey.string, rcd.settled = false →
      ∀ row ∈ c.limits.lookup rcd.limitRowKey,
        TakesDue row.reserved.toInt rcd.openAmount (settledReservation rcd cmd).value.toInt
  deriving Decidable

def ReleasesDue (c : StoreCore) (cmd : ReleaseCommand) : Prop :=
  (c.releaseExisting cmd.source).isNone →
    ∀ rcd ∈ c.reservations.lookup cmd.reservationKey.string, rcd.released = false →
      ∀ row ∈ c.limits.lookup rcd.limitRowKey,
        TakesDue row.reserved.toInt rcd.openAmount
          (min (requestedRelease rcd cmd).value.toInt rcd.reservedAmount.value.toInt)
  deriving Decidable

@[reducible]
def takesOnlyDue (json : RowKeyCodec) : TurnGuards where
  reserve := ReserveFits json
  settle := SettlesDue
  release := ReleasesDue
  usage := fun _ _ _ => True

lemma reservedBalanced_iff :
    ReservedBalanced c ↔ Balanced (fun row : LimitRow => row.reserved.toInt)
      (fun k => 0 + owed ReservationRecord.limitRowKey ReservationRecord.openAmount c.reservations k) c.limits :=
  ⟨fun h => h.congr fun _ => zero_add _, fun h => h.congr fun _ => (zero_add _).symm⟩

structure ReservedSound (c : StoreCore) : Prop where
  bound : WellBound c
  balanced : ReservedBalanced c

namespace ReservedSound

variable (hs : ReservedSound c)
include hs

lemma nonneg (h : c.limits.lookup key = some row) : 0 ≤ row.reserved.toInt := by
  have heq : row.reserved.toInt = c.outstanding key := hs.balanced key row h
  rw [heq]
  exact hs.bound.outstanding_nonneg key

lemma taken_toInt (h : c.limits.lookup key = some row) {taken : Int64} (htaken : 0 ≤ taken.toInt)
    (hmove : row'.reserved = max 0 (row.reserved - taken)) :
    row'.reserved.toInt = max 0 (row.reserved.toInt - taken.toInt) := by
  rw [hmove, toInt_max, toInt_sub_of_nonneg (hs.nonneg h) htaken, toInt_zero]

lemma ofMatch (h : MatchEffect c c' row key) : ReservedSound c' := by
  refine ⟨h.wellBound hs.bound, ?_⟩
  have hsame : c'.outstanding = c.outstanding := by
    unfold StoreCore.outstanding
    rw [h.reservations]
  unfold ReservedBalanced
  rw [hsame]
  apply h.balanced hs.balanced
  intro habsent _ hreserved
  rw [hreserved, hs.bound.outstanding_absent habsent]
  rfl

lemma balanced_of_due {rcd rcd' : ReservationRecord} (hm : Moved c c' rcd rcd' row row')
    (hclosed : rcd'.openAmount = 0) {taken : Int64} (htaken : 0 ≤ taken.toInt)
    (hmove : row'.reserved = max 0 (row.reserved - taken))
    (hdue : TakesDue row.reserved.toInt rcd.openAmount taken.toInt) : ReservedBalanced c' := by
  have hheld : row.reserved.toInt = c.outstanding rcd.limitRowKey := hs.balanced _ _ hm.live
  have hle := hs.bound.openAmount_le hm.held
  have hopen : 0 ≤ rcd.openAmount := openAmount_nonneg (hs.bound.reservedNonneg _ rcd hm.held)
  have hb := reservedBalanced_iff.mp hs.balanced
  rw [reservedBalanced_iff]
  apply hm.rewrites.balanced_replace hb hm.live hm.held rfl hm.sameRow
  rw [hs.taken_toInt hm.live htaken hmove]
  rcases hdue.clamp (hheld ▸ hle) with h | h <;> omega

lemma settle {cmd : SettleCommand} (hdue : SettlesDue c cmd) (h : SettleEffect c cmd c') :
    ReservedSound c' := by
  refine ⟨h.wellBound hs.bound, ?_⟩
  rcases h.moved hs.bound with rfl | ⟨rcd, rcd', row, row', hm, hnew, hrcd, -, -, hsettled, hcase⟩
  · exact hs.balanced
  rcases hcase with ⟨hopen, htaken, hmove, -⟩ | ⟨hwas, hsame, -⟩
  · apply hs.balanced_of_due hm ?_ htaken hmove
    · exact hdue (by rw [hnew]; rfl) rcd hrcd hopen row hm.live
    · simp [hsettled]
  · have hb := reservedBalanced_iff.mp hs.balanced
    rw [reservedBalanced_iff]
    apply hm.rewrites.balanced_replace hb hm.live hm.held rfl hm.sameRow
    simp [hsame, hsettled, hwas]

lemma release {cmd : ReleaseCommand} (hdue : ReleasesDue c cmd) (h : ReleaseEffect c cmd c') :
    ReservedSound c' := by
  refine ⟨h.wellBound hs.bound, ?_⟩
  rcases h.moved hs.bound
    with rfl | ⟨rcd, rcd', row, row', hm, hnew, hrcd, hopen, htaken, hmove, -, -, -, hreleased⟩
  · exact hs.balanced
  apply hs.balanced_of_due hm ?_ htaken hmove
  · rw [toInt_min]
    exact hdue (by rw [hnew]; rfl) rcd hrcd hopen row hm.live
  · simp [hreleased]

lemma reserve {cmd : ReserveCommand} (hfits : ReserveFits json c cmd)
    (h : ReserveEffect json c cmd c') : ReservedSound c' := by
  refine ⟨h.wellBound hs.bound, ?_⟩
  cases h with
  | idle => exact hs.balanced
  | @granted c1 row key one hnew hreal hfree hmatch hvalid _ hone _ =>
    obtain ⟨-, hm⟩ := matchLimitRow_effect hmatch
    obtain ⟨row', rcd', hr, hmove, -, -, -, hkey, hamount, -, hsettled, hreleased⟩ :=
      recordReservation_rewrites c1 one row key cmd.request
    have hs1 := hs.ofMatch hm
    have hheld := hs1.nonneg hm.lookup
    have hasked := validateRowAmount_nonneg hvalid
    have hroom : row.reserved.toInt + cmd.request.value.toInt < 2 ^ 63 :=
      hfits (by rw [hnew]; rfl) hreal (c1, row, key) hmatch
    have hfree1 : c1.reservations.lookup one.reservationKey.string = none := by
      rw [hm.reservations, hone, hfree]
    have hb := reservedBalanced_iff.mp hs1.balanced
    rw [reservedBalanced_iff]
    apply hr.balanced_add hb hm.lookup hfree1 hkey
    have hsum := toInt_add ⟨by omega, hroom⟩
    rw [hmove, hsum]
    simp [hsettled, hreleased, hamount]

lemma usage {cmd : ApplyUsageCommand} {ruleID : GoStr} (h : UsageEffect json c cmd ruleID c') :
    ReservedSound c' := by
  refine ⟨h.wellBound hs.bound, ?_⟩
  cases h with
  | skipped hmatch => exact (hs.ofMatch (matchLimitRow_effect hmatch).2).balanced
  | @counted c1 row key hmatch _ _ =>
    obtain ⟨-, hm⟩ := matchLimitRow_effect hmatch
    intro k r hr
    unfold StoreCore.outstanding
    rw [recordUsage_reservations]
    -- whichever rows were rewritten, their `Reserved` is the one they had
    obtain ⟨r0, hr0, hsame, -⟩ := recordUsage_row hm.lookup hr
    dsimp only
    rw [← hsame]
    exact (hs.ofMatch hm).balanced k r0 hr0

lemma ofSame (h : SameLedger c c') : ReservedSound c' := by
  refine ⟨h.wellBound hs.bound, ?_⟩
  unfold ReservedBalanced StoreCore.outstanding
  rw [h.limits, h.reservations]
  exact hs.balanced

end ReservedSound

lemma newStoreCore_reservedSound {cfg : Config} (hseed : ∀ row ∈ cfg.limitRows, row.reserved = 0) :
    ReservedSound (newStoreCore json cfg) := by
  refine ⟨newStoreCore_wellBound json cfg, fun k row hk => ?_⟩
  have h := (newStoreCore_seeded json cfg).1
  rw [StoreCore.outstanding, h.reservations]
  dsimp only
  rw [hseed row (h.limits k row hk)]
  rfl

/-- In every run in which each settlement and release takes off what is due, every state reached has
each row's `Reserved` equal to the sum over the reservations that are neither settled nor released.
-/
theorem reserved_balanced_of_due (json : RowKeyCodec) (cfg : Config)
    (hseed : ∀ row ∈ cfg.limitRows, row.reserved = 0) (cmds : List Command)
    (hdue : Meets (StoreCore.step json) ((takesOnlyDue json).Permits json) (newStoreCore json cfg) cmds)
    (done : List Command) (hdone : done <+: cmds) :
    ReservedBalanced (run (StoreCore.step json) (newStoreCore json cfg) done) := by
  refine (run_induct (fun c cmd hs hok => ?_) (newStoreCore_reservedSound hseed) hdue hdone).balanced
  apply step_induct ReservedSound (fun h hs => hs.ofSame h) ?_ ?_ ?_ ?_ hs hok
  · exact fun hs hg he => hs.reserve hg he
  · exact fun hs hg he => hs.settle hg he
  · exact fun hs hg he => hs.release hg he
  · exact fun hs _ he => hs.usage he

private def unknownValue : String := "\x7b\"known\":false,\"value\":\"\"\x7d"

private def scopeFields : String :=
  "\"principal_id\":" ++ unknownValue ++ ",\"credential_id\":" ++ unknownValue ++
    ",\"tenant_id\":" ++ unknownValue ++
    ",\"organization_id\":" ++ unknownValue ++ ",\"workspace_id\":" ++ unknownValue ++
    ",\"project_id\":" ++
    unknownValue ++ ",\"department_id\":" ++ unknownValue ++ ",\"cost_center_id\":" ++ unknownValue

def plainCodec : RowKeyCodec where
  encode i := 0x7b :: (lit "\"rule_id\":\"" ++ i.ruleID ++
    lit ("\",\"authority_namespace\":\"legacy\",\"perspective\":\"\",\"lifecycle_scope\":\"\",\"basis\":\"\"," ++
      "\"rule_version\":\"\",\"correlation\":\x7b\x7d,\"scope\":\x7b\"principal\":\x7b\"subject_kind\":\"\"," ++
      "\"principal_id\":" ++ unknownValue ++ ",\"display_name\":" ++ unknownValue ++ ",\"auth_method\":" ++
      unknownValue ++ ",\"credential_id\":" ++ unknownValue ++ ",\"tenant_id\":" ++ unknownValue ++
      ",\"organization_id\":" ++ unknownValue ++ ",\"workspace_id\":" ++ unknownValue ++
        ",\"project_id\":" ++
      unknownValue ++ ",\"department_id\":" ++ unknownValue ++ ",\"cost_center_id\":" ++ unknownValue ++
      ",\"origin\":\"\",\"parent_trace_id\":" ++ unknownValue ++ "\x7d," ++ scopeFields ++
        "\x7d,\"unit\":\"") ++
    i.unit.name ++
    lit "\",\"window_start\":\"0001-01-01T00:00:00Z\",\"window_end\":\"0001-01-01T00:00:00Z\"\x7d")
  encode_ne_nil _ := List.cons_ne_nil _ _

def hundredRequests : Config :=
  { limitRows := [{ ruleID := lit "r", ruleType := .quota, unit := .requests, limit := 100, remaining := 100 }] }

def requestKey (name : String) : ReservationKey :=
  { logicalRequestID := lit name, ruleID := lit "r" }

def reserveRequests (name : String) (n : Int64) : Command :=
  .reserve { reservationKey := requestKey name, ruleID := lit "r", ruleType := .quota, request := ⟨.requests, n⟩ }

def settleRequests (name : String) (n : Int64) : Command :=
  .settle { reservationKey := requestKey name, ruleID := lit "r", finalUsage := ⟨.requests, n⟩ }

def releaseRequests (name : String) : Command :=
  .release { reservationKey := requestKey name, ruleID := lit "r" }

theorem reserved_balanced_of_due_clean_run :
    ReservedBalanced (run (StoreCore.step plainCodec) (newStoreCore plainCodec hundredRequests)
      [reserveRequests "a" 50, reserveRequests "b" 50, settleRequests "a" 10, releaseRequests "b"]) :=
  reserved_balanced_of_due plainCodec hundredRequests (by decide) _ (by decide +kernel) _
    (List.prefix_refl _)

/-- Releasing the settled reservation takes its amount off the row a second time, so the row shows
nothing reserved while the other reservation still holds fifty. -/
theorem reserved_unbalanced_after_settle_release :
    ¬ ReservedBalanced (run (StoreCore.step plainCodec) (newStoreCore plainCodec hundredRequests)
      [reserveRequests "a" 50, reserveRequests "b" 50, settleRequests "a" 10, releaseRequests "a"]) := by
  decide +kernel

open StoreCore

/-- Seed value, plus settled reservations, plus stored usage facts of a row. -/
def StoreCore.accounted (seed : GoStr → ℤ) (c : StoreCore) (key : GoStr) : ℤ :=
  seed key + c.settledUsage key + c.unreservedUsage key

def ConsumedBalanced (seed : GoStr → ℤ) (c : StoreCore) : Prop :=
  Balanced (fun row : LimitRow => row.consumed.toInt) (c.accounted seed) c.limits
  deriving Decidable

/-- The `Consumed` a row started with; a row opened later started with nothing. -/
def seedConsumed (json : RowKeyCodec) (cfg : Config) (key : GoStr) : ℤ :=
  (((newStoreCore json cfg).limits.lookup key).map fun row => row.consumed.toInt).getD 0

def SettleCounts (c : StoreCore) (cmd : SettleCommand) : Prop :=
  (c.settleExisting cmd.source).isNone →
    ∀ rcd ∈ c.reservations.lookup cmd.reservationKey.string, ∀ row ∈ c.limits.lookup rcd.limitRowKey,
      row.consumed.toInt - rcd.settledAmount + (settleActual rcd cmd).value.toInt < 2 ^ 63
  deriving Decidable

@[simp] def replacedAmount (previous : Option UnreservedUsageFact) (key : GoStr) : ℤ :=
  match previous with
  | some p => if p.limitRowKey = key then p.amount.value.toInt else 0
  | none => 0

/-- The command names its source, and the counted total of the row stays in the range of the
counter. -/
def UsageCounts (json : RowKeyCodec) (c : StoreCore) (cmd : ApplyUsageCommand) (ruleID : GoStr) :
    Prop :=
  cmd.sourceKey ≠ [] ∧
    ∀ found ∈ c.matchLimitRow json ruleID cmd.dimensions cmd.issuedAt,
      found.1.alreadyCounted cmd ruleID found.2.2 (usageAmount found.2.1 cmd)
          ((usageAuthority cmd).forUnit found.2.1.unit) = false →
        found.2.1.consumed.toInt -
            replacedAmount (found.1.unreservedUsageFacts.lookup
              (unreservedUsageFactKey cmd.sourceKey ruleID)) found.2.2 +
          (usageAmount found.2.1 cmd).value.toInt < 2 ^ 63
  deriving Decidable

/-- No settlement and no counted usage pushes a row's `Consumed` out of range. -/
@[reducible]
def countsInRange (json : RowKeyCodec) : TurnGuards where
  reserve := fun _ _ => True
  settle := SettleCounts
  release := fun _ _ => True
  usage := UsageCounts json

structure ConsumedSound (seed : GoStr → ℤ) (c : StoreCore) : Prop where
  bound : WellBound c
  balanced : ConsumedBalanced seed c
  seedLive : ∀ k, c.limits.lookup k = none → seed k = 0
  seedNonneg : ∀ k, 0 ≤ seed k

variable {seed : GoStr → ℤ}

lemma consumedBalanced_iff :
    ConsumedBalanced seed c ↔ Balanced (fun row : LimitRow => row.consumed.toInt)
      (fun k => (seed k + c.unreservedUsage k) +
        owed ReservationRecord.limitRowKey ReservationRecord.settledAmount c.reservations k) c.limits := by
  have h : ∀ k, c.accounted seed k = (seed k + c.unreservedUsage k) +
      owed ReservationRecord.limitRowKey ReservationRecord.settledAmount c.reservations k := by
    unfold accounted settledUsage
    omega
  exact ⟨fun hb => hb.congr fun k => (h k).symm, fun hb => hb.congr h⟩

namespace ConsumedSound

section

variable (hs : ConsumedSound seed c)
include hs

lemma le_consumed (h : c.limits.lookup key = some row) :
    c.settledUsage key + c.unreservedUsage key ≤ row.consumed.toInt ∧ 0 ≤ row.consumed.toInt := by
  have heq : row.consumed.toInt = seed key + c.settledUsage key + c.unreservedUsage key :=
    hs.balanced key row h
  have hseed := hs.seedNonneg key
  have hsettled := hs.bound.settledUsage_nonneg key
  have hfacts := hs.bound.unreservedUsage_nonneg key
  constructor <;> omega

lemma ofMatch (h : MatchEffect c c' row key) : ConsumedSound seed c' := by
  refine ⟨h.wellBound hs.bound, ?_, fun k hk => hs.seedLive k (h.writesRow.absent hk), hs.seedNonneg⟩
  have hsame : c'.accounted seed = c.accounted seed := by
    unfold accounted settledUsage unreservedUsage
    rw [h.reservations, h.facts]
  unfold ConsumedBalanced
  rw [hsame]
  apply h.balanced hs.balanced
  intro habsent hconsumed _
  rw [hconsumed, accounted, hs.seedLive key habsent, hs.bound.settledUsage_absent habsent,
    hs.bound.unreservedUsage_absent habsent]
  rfl

lemma ofSame (h : SameLedger c c') : ConsumedSound seed c' := by
  refine ⟨h.wellBound hs.bound, ?_, ?_, hs.seedNonneg⟩
  · unfold ConsumedBalanced accounted settledUsage unreservedUsage
    rw [h.limits, h.reservations, h.facts]
    exact hs.balanced
  · rw [h.limits]
    exact hs.seedLive

/-- A reservation rewritten on its own row: `Consumed` must move by the change of its settled
amount. -/
lemma ofMoved {rcd rcd' : ReservationRecord} (hm : Moved c c' rcd rcd' row row') (hw : WellBound c')
    (hmove : row'.consumed.toInt = row.consumed.toInt - rcd.settledAmount + rcd'.settledAmount) :
    ConsumedSound seed c' := by
  refine ⟨hw, ?_, fun k hk => hs.seedLive k (hm.rewrites.limits.absent hk), hs.seedNonneg⟩
  have hb := consumedBalanced_iff.mp hs.balanced
  have hfacts : c'.unreservedUsage = c.unreservedUsage := by
    unfold unreservedUsage
    rw [hm.rewrites.facts]
  rw [consumedBalanced_iff, hfacts]
  exact hm.rewrites.balanced_replace hb hm.live hm.held rfl hm.sameRow hmove

lemma reserve {cmd : ReserveCommand}
    (h : ReserveEffect json c cmd c') : ConsumedSound seed c' := by
  have hw := h.wellBound hs.bound
  cases h with
  | idle => exact hs
  | @granted c1 row key one _ _ hfree hmatch _ _ hone _ =>
    obtain ⟨-, hm⟩ := matchLimitRow_effect hmatch
    obtain ⟨row', rcd', hr, -, hsame, -, -, hkey, -, -, hsettled, -⟩ :=
      recordReservation_rewrites c1 one row key cmd.request
    have hs1 := hs.ofMatch hm
    have hfree1 : c1.reservations.lookup one.reservationKey.string = none := by
      rw [hm.reservations, hone, hfree]
    refine ⟨hw, ?_, fun k hk => hs1.seedLive k (hr.limits.absent hk), hs.seedNonneg⟩
    have hb := consumedBalanced_iff.mp hs1.balanced
    rw [consumedBalanced_iff]
    apply hr.balanced_add hb hm.lookup hfree1 hkey
    simp [hsame, hsettled]

lemma settle {cmd : SettleCommand} (hfits : SettleCounts c cmd)
    (h : SettleEffect c cmd c') : ConsumedSound seed c' := by
  have hw := h.wellBound hs.bound
  rcases h.moved hs.bound
    with rfl | ⟨rcd, rcd', row, row', hm, hnew, hrcd, ha, hactual, hsettled, hcase⟩
  · exact hs
  have hroom := hfits (by rw [hnew]; rfl) rcd hrcd row hm.live
  have hle := hs.le_consumed hm.live
  have hnow : rcd'.settledAmount = (settleActual rcd cmd).value.toInt := by
    simp [hsettled, hactual]
  apply hs.ofMoved hm hw
  rcases hcase with ⟨hopen, -, -, hmove⟩ | ⟨hwas, -, hmove⟩
  · have hunsettled : rcd.settledAmount = 0 := by simp [hopen]
    rw [hmove, toInt_add ⟨by omega, by omega⟩]
    omega
  · have hpart := hs.bound.settledAmount_le hm.held
    have hfacts := hs.bound.unreservedUsage_nonneg rcd.limitRowKey
    have hwas : rcd.settledAmount = rcd.settledActual.value.toInt := by simp [hwas]
    -- the old amount is part of `Consumed`, so the difference cannot take it below zero
    have hdelta := toInt_sub_of_nonneg ha (hs.bound.settledNonneg _ _ hm.held)
    rw [hmove, toInt_add (by rw [hdelta]; constructor <;> omega), hnow]
    omega

lemma release {cmd : ReleaseCommand} (h : ReleaseEffect c cmd c') : ConsumedSound seed c' := by
  have hw := h.wellBound hs.bound
  rcases h.moved hs.bound
    with rfl | ⟨rcd, rcd', row, row', hm, -, -, -, -, -, hsame, hactual, hsettled, -⟩
  · exact hs
  apply hs.ofMoved hm hw
  have hamount : rcd'.settledAmount = rcd.settledAmount := by
    simp [hsettled, hactual]
  rw [hsame]
  omega

end

variable {f : GoStr}

section

variable (hs : ConsumedSound seed c)

include hs

lemma replaced_le (hrow : c.limits.lookup key = some row) :
    0 ≤ replacedAmount (c.unreservedUsageFacts.lookup f) key ∧
      replacedAmount (c.unreservedUsageFacts.lookup f) key ≤ row.consumed.toInt := by
  have hle := hs.le_consumed hrow
  have hsettled := hs.bound.settledUsage_nonneg key
  cases hf : c.unreservedUsageFacts.lookup f with
  | none => exact ⟨le_rfl, hle.2⟩
  | some p =>
    have hpart := hs.bound.fact_le hf
    have hnonneg := hs.bound.factNonneg f p hf
    unfold replacedAmount
    dsimp only
    split_ifs with hk
    · subst hk
      omega
    · omega

lemma withdraw_consumed {k : GoStr} (hk : k ≠ key) {r : LimitRow}
    (h : (c.withdraw (c.unreservedUsageFacts.lookup f) key).limits.lookup k = some r) :
    ∃ r0, c.limits.lookup k = some r0 ∧
      r.consumed.toInt = r0.consumed.toInt - replacedAmount (c.unreservedUsageFacts.lookup f) k := by
  cases hf : c.unreservedUsageFacts.lookup f with
  | none =>
    rw [hf] at h
    exact ⟨r, h, (sub_zero _).symm⟩
  | some p =>
    rw [hf] at h
    simp only [withdraw] at h
    obtain ⟨hne, live, hlive⟩ := hs.bound.factRowed f p hf
    rcases withdrawFact_cases c p key with ⟨heq, hwhy⟩ | ⟨row, -, hrow, heq⟩
    · -- nothing was withdrawn, so the replaced fact sits on the counted row
      have hpk : p.limitRowKey = key := by
        rcases hwhy with hnil | hkey | hnone
        · exact absurd hnil hne
        · exact hkey
        · rw [hlive] at hnone
          cases hnone
      rw [heq] at h
      refine ⟨r, h, ?_⟩
      simp [hpk, hk.symm]
    · rw [heq, lookup_insert_eq] at h
      split_ifs at h with hkp
      · cases h
        subst hkp
        refine ⟨row, hrow, ?_⟩
        have hle := hs.replaced_le (f := f) hrow
        have hp := hs.bound.factNonneg f p hf
        simp only [hf, replacedAmount, if_pos] at hle ⊢
        simp only [LimitRow.withConsumed]
        rw [toInt_max, toInt_sub_of_nonneg (hs.le_consumed hrow).2 hp, toInt_zero]
        omega
      · exact ⟨r, h, by simp [Ne.symm hkp]⟩

lemma usageDelta_toInt (key : GoStr) {actual : Amount} (ha : 0 ≤ actual.value.toInt) :
    (usageDelta (c.unreservedUsageFacts.lookup f) key actual).toInt =
      actual.value.toInt - replacedAmount (c.unreservedUsageFacts.lookup f) key := by
  cases hf : c.unreservedUsageFacts.lookup f with
  | none => exact (sub_zero _).symm
  | some p =>
    unfold usageDelta replacedAmount
    dsimp only
    split_ifs
    · exact toInt_sub_of_nonneg ha (hs.bound.factNonneg f p hf)
    · exact (sub_zero _).symm

end

lemma unreserved_insert {facts : Table GoStr UnreservedUsageFact} (fact : UnreservedUsageFact)
    (k : GoStr) :
    owed UnreservedUsageFact.limitRowKey (fun fact => fact.amount.value.toInt)
    (facts.insert f fact) k =
      owed UnreservedUsageFact.limitRowKey (fun fact => fact.amount.value.toInt) facts k -
        replacedAmount (facts.lookup f) k + if fact.limitRowKey = k then fact.amount.value.toInt
        else 0 := by
  cases hf : facts.lookup f with
  | none =>
    rw [owed_insert_new hf]
    simp
  | some p =>
    rw [owed_insert_old hf]
    simp

lemma usage {cmd : ApplyUsageCommand} {ruleID : GoStr} (hs : ConsumedSound seed c)
    (hfits : UsageCounts json c cmd ruleID) (h : UsageEffect json c cmd ruleID c') :
    ConsumedSound seed c' := by
  have hw := h.wellBound hs.bound
  cases h with
  | skipped hmatch => exact hs.ofMatch (matchLimitRow_effect hmatch).2
  | @counted c1 row key hmatch hvalid hnew =>
    obtain ⟨-, hm⟩ := matchLimitRow_effect hmatch
    have hs1 := hs.ofMatch hm
    have ha := validateRowAmount_nonneg hvalid
    have hroom := hfits.2 (c1, row, key) hmatch hnew
    dsimp only at hroom
    set factKey := unreservedUsageFactKey cmd.sourceKey ruleID
    have hle := hs1.replaced_le (f := factKey) hm.lookup
    have hdelta := hs1.usageDelta_toInt (f := factKey) key ha
    have hwrites :=
      recordUsage_writesRow c1 cmd ruleID key factKey row (c1.unreservedUsageFacts.lookup factKey)
      (usageAmount row cmd) (usageAuthority cmd) ((usageAuthority cmd).forUnit row.unit)
    refine ⟨hw, ?_, ?_, hs.seedNonneg⟩
    · intro k r hr
      unfold accounted settledUsage unreservedUsage
      rw [recordUsage_reservations, recordUsage_facts, if_neg hfits.1, unreserved_insert]
      rw [hwrites k] at hr
      split_ifs at hr with hk
      · cases hr
        subst hk
        have hbefore : row.consumed.toInt = c1.accounted seed k := hs1.balanced k row hm.lookup
        unfold accounted settledUsage unreservedUsage at hbefore
        simp only [LimitRow.withConsumed, usageFact, if_pos]
        rw [toInt_max, toInt_add (by rw [hdelta]; constructor <;> omega), toInt_zero]
        omega
      · obtain ⟨r0, hr0, hconsumed⟩ := hs1.withdraw_consumed hk hr
        have hbefore : r0.consumed.toInt = c1.accounted seed k := hs1.balanced k r0 hr0
        unfold accounted settledUsage unreservedUsage at hbefore
        have hother : ¬ key = k := fun h => hk h.symm
        simp only [usageFact, hother, if_false]
        omega
    · intro k hk
      apply hs1.seedLive
      have hkept := withdraw_lookup (c := c1) (c1.unreservedUsageFacts.lookup factKey) key k
      rw [hwrites.absent hk] at hkept
      exact Option.map_eq_none_iff.mp hkept.symm

end ConsumedSound

lemma newStoreCore_consumedSound {cfg : Config}
    (hseed : ∀ row ∈ cfg.limitRows, 0 ≤ row.consumed) :
    ConsumedSound (seedConsumed json cfg) (newStoreCore json cfg) := by
  have h := (newStoreCore_seeded json cfg).1
  refine ⟨newStoreCore_wellBound json cfg, ?_, ?_, ?_⟩
  · intro k row hk
    unfold accounted settledUsage unreservedUsage
    rw [h.reservations, h.facts, seedConsumed, hk]
    simp
  · intro k hk
    rw [seedConsumed, hk]
    rfl
  · intro k
    unfold seedConsumed
    cases hk : (newStoreCore json cfg).limits.lookup k with
    | none => exact le_rfl
    | some row =>
      have hrow := hseed row (h.limits k row hk)
      rw [Int64.le_iff_toInt_le] at hrow
      exact hrow

lemma consumedSound_step {cmd : Command} (hs : ConsumedSound seed c)
    (hok : (countsInRange json).Permits json c cmd) : ConsumedSound seed (c.step json cmd) := by
  apply step_induct (ConsumedSound seed) (fun h hs => hs.ofSame h) ?_ ?_ ?_ ?_ hs hok
  · exact fun hs _ he => hs.reserve he
  · exact fun hs hg he => hs.settle hg he
  · exact fun hs _ he => hs.release he
  · exact fun hs hg he => hs.usage hg he

/-- In every run in which no counter leaves its range, every state reached has each row's `Consumed`
equal to its seed value plus the settled reservations plus the stored usage facts of the row. -/
theorem consumed_balanced_in_range (json : RowKeyCodec) (cfg : Config)
    (hseed : ∀ row ∈ cfg.limitRows, 0 ≤ row.consumed) (cmds : List Command)
    (hrange : Meets (StoreCore.step json) ((countsInRange json).Permits json) (newStoreCore json cfg) cmds)
    (done : List Command) (hdone : done <+: cmds) :
    ConsumedBalanced (seedConsumed json cfg)
    (run (StoreCore.step json) (newStoreCore json cfg) done) :=
  (run_induct (fun _ _ hs hok => consumedSound_step hs hok) (newStoreCore_consumedSound hseed) hrange hdone).balanced

/-- An estimated settlement of `n` requests. -/
def settleEstimated (name : String) (n : Int64) : Command :=
  .settle { reservationKey := requestKey name, ruleID := lit "r", kind := .partialUsage,
            authority := .estimated, finalUsage := ⟨.requests, n⟩ }

def settleAuthoritative (name : String) (n : Int64) : Command :=
  .settle { reservationKey := requestKey name, ruleID := lit "r", kind := .final,
            authority := .authoritative, finalUsage := ⟨.requests, n⟩ }

def applyRequests (source : String) (n : Int64) : Command :=
  .applyUsage { ruleIDs := [lit "r"], requestCount := ⟨.requests, n⟩, sourceKey := lit source }

theorem consumed_balanced_in_range_upgrade :
    ConsumedBalanced (seedConsumed plainCodec hundredRequests)
      (run (StoreCore.step plainCodec) (newStoreCore plainCodec hundredRequests)
        [reserveRequests "a" 50, settleEstimated "a" 20, settleAuthoritative "a" 15,
          applyRequests "s" 3, releaseRequests "a"]) :=
  consumed_balanced_in_range plainCodec hundredRequests (by decide) _ (by decide +kernel) _
    (List.prefix_refl _)

/-- Two settlements of the largest amount: `Consumed` wraps to minus two. -/
theorem consumed_unbalanced_after_overflow :
    ¬ ConsumedBalanced (seedConsumed plainCodec hundredRequests)
      (run (StoreCore.step plainCodec) (newStoreCore plainCodec hundredRequests)
        [reserveRequests "a" 50, reserveRequests "b" 50, settleRequests "a" 9223372036854775807,
          settleRequests "b" 9223372036854775807]) := by
  decide +kernel

/-- Every reservation that the command creates leaves its row with consumed plus outstanding amounts
within the limit. -/
def GrantsWithinLimit (json : RowKeyCodec) (c : StoreCore) (cmd : ReserveCommand) : Prop :=
  (c.reserve json cmd).2.isOk = true →
    ∀ granted ∈ (c.reserve json cmd).1.reservations.entries, (c.reservations.lookup granted.1).isNone →
      ∀ row ∈ (c.reserve json cmd).1.limits.lookup granted.2.limitRowKey,
        row.consumed.toInt + (c.reserve json cmd).1.outstanding granted.2.limitRowKey ≤
        row.limit.toInt
  deriving Decidable

/-- A command that succeeds and asks for more than an estimate has a reservation on record for each
of its descriptors. -/
def RecordsGrants (json : RowKeyCodec) (c : StoreCore) (cmd : ReserveCommand) : Prop :=
  (c.reserve json cmd).2.isOk = true → cmd.estimateOnly = false → ∀ d ∈ reserveDescriptors cmd,
    ((c.reserve json cmd).1.reservationForDescriptor d).isSome ∨
      ((c.reserve json cmd).1.reserveExisting (reserveCommandFor cmd d).source).isSome

/-- Settlements and releases take off what is due, and `Consumed` stays in range. -/
@[reducible]
def countersFollow (json : RowKeyCodec) : TurnGuards where
  reserve := fun _ _ => True
  settle := fun c cmd => SettlesDue c cmd ∧ SettleCounts c cmd
  release := ReleasesDue
  usage := UsageCounts json

structure QuotaSound (seed : GoStr → ℤ) (c : StoreCore) : Prop where
  consumed : ConsumedSound seed c
  reserved : ReservedBalanced c
  strict : c.backing.strictCapable
  rowLimit : ∀ k row, c.limits.lookup k = some row → 0 ≤ row.limit.toInt ∧
    row.reserved.toInt ≤ row.limit.toInt
  templateLimit : ∀ ruleID templates, c.limitTemplates.lookup ruleID = some templates →
    ∀ template ∈ templates, 0 ≤ template.limit.toInt

variable {seed : GoStr → ℤ}

namespace QuotaSound

variable (hq : QuotaSound seed c) {rcd' : ReservationRecord}
include hq

lemma reservedSound : ReservedSound c := ⟨hq.consumed.bound, hq.reserved⟩

lemma ofMatch (h : MatchEffect c c' row key) : QuotaSound seed c' := by
  refine ⟨hq.consumed.ofMatch h, (hq.reservedSound.ofMatch h).balanced, h.backing ▸ hq.strict, ?_,
    h.templates ▸ hq.templateLimit⟩
  cases h with
  | found => exact hq.rowLimit
  | opened _ _ hreserved hlimit =>
    intro k r hr
    rw [lookup_insert_eq] at hr
    split_ifs at hr
    · cases hr
      obtain ⟨ruleID, templates, template, hl, hmem, heq⟩ := hlimit
      have hpos := hq.templateLimit ruleID templates hl template hmem
      rw [heq, hreserved]
      exact ⟨hpos, hpos⟩
    · exact hq.rowLimit k r hr

lemma rowLimit_of_rewrite {id : GoStr} (hr : Rewrites c c' key row' id rcd')
    (hrow : c.limits.lookup key = some row)
    (hlimit : row'.limit = row.limit)
    (hle : row'.reserved.toInt ≤ max row.reserved.toInt row.limit.toInt) :
    ∀ k r, c'.limits.lookup k = some r → 0 ≤ r.limit.toInt ∧ r.reserved.toInt ≤ r.limit.toInt := by
  intro k r hk
  have hold := hq.rowLimit key row hrow
  rw [hr.limits k] at hk
  split_ifs at hk
  · cases hk
    rw [hlimit]
    omega
  · exact hq.rowLimit k r hk

lemma ofMoved {rcd : ReservationRecord} (hm : Moved c c' rcd rcd' row row')
    (hconsumed : ConsumedSound seed c') (hreserved : ReservedSound c')
    (hle : row'.reserved.toInt ≤ max row.reserved.toInt row.limit.toInt) : QuotaSound seed c' :=
  ⟨hconsumed, hreserved.balanced, hm.rewrites.backing ▸ hq.strict,
    hq.rowLimit_of_rewrite hm.rewrites hm.live hm.limit hle,
    hm.rewrites.templates ▸ hq.templateLimit⟩

lemma settle {cmd : SettleCommand} (hdue : SettlesDue c cmd) (hfits : SettleCounts c cmd)
    (h : SettleEffect c cmd c') : QuotaSound seed c' := by
  have hconsumed := hq.consumed.settle hfits h
  have hreserved := hq.reservedSound.settle hdue h
  rcases h.moved hq.consumed.bound with rfl | ⟨rcd, rcd', row, row', hm, -, -, -, -, -, hcase⟩
  · exact hq
  apply hq.ofMoved hm hconsumed hreserved
  rcases hcase with ⟨-, htaken, hmove, -⟩ | ⟨-, hsame, -⟩
  · have hheld := hq.reservedSound.nonneg hm.live
    rw [hq.reservedSound.taken_toInt hm.live htaken hmove]
    omega
  · rw [hsame]
    exact le_max_left _ _

lemma release {cmd : ReleaseCommand} (hdue : ReleasesDue c cmd)
    (h : ReleaseEffect c cmd c') : QuotaSound seed c' := by
  have hconsumed := hq.consumed.release h
  have hreserved := hq.reservedSound.release hdue h
  rcases h.moved hq.consumed.bound with rfl | ⟨rcd, rcd', row, row', hm, -, -, -, htaken, hmove, -⟩
  · exact hq
  apply hq.ofMoved hm hconsumed hreserved
  have hheld := hq.reservedSound.nonneg hm.live
  rw [hq.reservedSound.taken_toInt hm.live htaken hmove]
  omega

lemma usage {cmd : ApplyUsageCommand} {ruleID : GoStr}
    (hfits : UsageCounts json c cmd ruleID) (h : UsageEffect json c cmd ruleID c') :
    QuotaSound seed c' := by
  have hconsumed := hq.consumed.usage hfits h
  have hreserved := (hq.reservedSound.usage h).balanced
  cases h with
  | skipped hmatch => exact hq.ofMatch (matchLimitRow_effect hmatch).2
  | @counted c1 row key hmatch _ _ =>
    obtain ⟨-, hm⟩ := matchLimitRow_effect hmatch
    have hq1 := hq.ofMatch hm
    refine ⟨hconsumed, hreserved, ?_, ?_, ?_⟩
    · simpa only [recordUsage, appendDecision, withdraw_frame] using hq1.strict
    · intro k r hk
      obtain ⟨r0, hr0, hsame, hlimit⟩ := recordUsage_row hm.lookup hk
      exact hsame ▸ hlimit ▸ hq1.rowLimit k r0 hr0
    · simpa only [recordUsage, appendDecision, withdraw_frame] using hq1.templateLimit

lemma ofSame (h : SameLedger c c') : QuotaSound seed c' :=
  ⟨hq.consumed.ofSame h, (hq.reservedSound.ofSame h).balanced, h.backing ▸ hq.strict,
    h.limits ▸ hq.rowLimit, h.templates ▸ hq.templateLimit⟩

/-- The admission test computes the true remaining amount: none of its subtractions wraps. -/
lemma room (hrow : c.limits.lookup key = some row) {asked : Int64}
    (h : asked ≤ row.limit - row.consumed - row.reserved) :
    row.consumed.toInt + row.reserved.toInt + asked.toInt ≤ row.limit.toInt := by
  have hlimit := hq.rowLimit key row hrow
  have hconsumed := (hq.consumed.le_consumed hrow).2
  have hheld := hq.reservedSound.nonneg hrow
  have hmax := (fits_toInt row.consumed).2
  have hfirst := toInt_sub_of_nonneg hlimit.1 hconsumed
  have hsecond : (row.limit - row.consumed - row.reserved).toInt =
      row.limit.toInt - row.consumed.toInt - row.reserved.toInt := by
    have hlt := (fits_toInt row.limit).2
    rw [toInt_sub (by rw [hfirst]; constructor <;> omega), hfirst]
  rw [Int64.le_iff_toInt_le] at h
  omega

end QuotaSound

/-- The rows of reservations created since `before` hold no more than their limit. -/
def GrantedWithin (before c : StoreCore) : Prop :=
  ∀ id rcd, before.reservations.lookup id = none → c.reservations.lookup id = some rcd →
    ∀ row, c.limits.lookup rcd.limitRowKey = some row →
    row.consumed.toInt + row.reserved.toInt ≤ row.limit.toInt

lemma GrantedWithin.refl (c : StoreCore) : GrantedWithin c c := by
  intro id rcd hbefore hid
  cases hbefore.symm.trans hid

/-- One turn of a reserve command on a sound strict core. -/
lemma ReserveEffect.quota {before c c' : StoreCore} {cmd : ReserveCommand}
    (h : ReserveEffect json c cmd c') (hq : QuotaSound seed c) (hg : GrantedWithin before c) :
    QuotaSound seed c' ∧ GrantedWithin before c' := by
  have hconsumed := hq.consumed.reserve h
  cases h with
  | idle => exact ⟨hq, hg⟩
  | @granted c1 row key one hnew hreal hfree hmatch hvalid hroom hone hsource =>
    obtain ⟨-, hm⟩ := matchLimitRow_effect hmatch
    obtain ⟨row', rcd', hr, hmove, hsame, hlimit, -, hkey, -, -, -, -⟩ :=
      recordReservation_rewrites c1 one row key cmd.request
    have hq1 := hq.ofMatch hm
    have hheld := hq1.reservedSound.nonneg hm.lookup
    have hasked := validateRowAmount_nonneg hvalid
    have hfit := hq1.room hm.lookup (hroom hq1.strict)
    have hused := (hq1.consumed.le_consumed hm.lookup).2
    have hmax := (fits_toInt row.limit).2
    have hsum := toInt_add (a := row.reserved) (b := cmd.request.value) ⟨by omega, by omega⟩
    have hfits : ReserveFits json c cmd := by
      intro _ _ found hfound
      cases hmatch.symm.trans hfound
      dsimp only
      omega
    have hreserved := hq.reservedSound.reserve hfits
      (.granted one hnew hreal hfree hmatch hvalid hroom hone hsource)
    refine ⟨⟨hconsumed, hreserved.balanced, hr.backing ▸ hq1.strict, ?_, hr.templates ▸ hq1.templateLimit⟩, ?_⟩
    · apply hq1.rowLimit_of_rewrite hr hm.lookup hlimit
      rw [hmove]
      omega
    · intro id rcd hbefore hid r hrow
      rw [hr.limits] at hrow
      split_ifs at hrow with hk
      · cases hrow
        rw [hmove, hsame, hlimit]
        omega
      · -- another row: an older grant of the same command, its row untouched
        rw [hr.reservations, lookup_insert_eq] at hid
        split_ifs at hid
        · cases hid
          exact absurd hkey hk
        · rw [hm.writesRow, if_neg hk] at hrow
          rw [hm.reservations] at hid
          exact hg id rcd hbefore hid r hrow

lemma quotaSound_step {cmd : Command} (hq : QuotaSound seed c)
    (hok : (countersFollow json).Permits json c cmd) : QuotaSound seed (c.step json cmd) := by
  apply step_induct (QuotaSound seed) (fun h hq => hq.ofSame h) ?_ ?_ ?_ ?_ hq hok
  · -- only the soundness half is wanted here, so nothing counts as newly granted
    exact fun hq _ he => (he.quota hq (.refl _)).1
  · exact fun hq hg he => hq.settle hg.1 hg.2 he
  · exact fun hq hg he => hq.release hg he
  · exact fun hq hg he => hq.usage hg he

lemma grantsWithinLimit_of_sound (hq : QuotaSound seed c)
    (cmd : ReserveCommand) : GrantsWithinLimit json c cmd := by
  intro _ granted hgranted hbefore row hrow
  rw [Option.isNone_iff_eq_none] at hbefore
  obtain ⟨hq', hg'⟩ :=
    (reserve_outcome json c cmd).induct (fun c' => QuotaSound seed c' ∧ GrantedWithin c c')
    (fun h hs => ⟨hs.1.ofSame h, fun _ _ hnew hid _ hr => hs.2 _ _ hnew (h.reservations ▸ hid) _ (h.limits ▸ hr)⟩)
    (fun s d s' hs _ hb => (reserveTurn_effect hb).quota hs.1 hs.2) ⟨hq, .refl c⟩
    fun _ => loopMeets_of_forall (fun _ _ => True) (fun _ _ => trivial) _ _
  have hbalance : row.reserved.toInt = _ := hq'.reserved _ row hrow
  rw [← hbalance]
  exact hg' granted.1 granted.2 hbefore (lookup_of_mem_entries hgranted) row hrow

lemma reserveExisting_isSome {source : GoStr} : (c.reserveExisting source).isSome ↔
    source ≠ [] ∧ ∃ key, c.resBySource.lookup source = some key ∧
      (c.reservations.lookup key).isSome := by
  unfold reserveExisting recordBySource
  split_ifs with hsource
  · simp [hsource]
  · simp [hsource, Option.isSome_iff_exists, Option.bind_eq_some_iff]

lemma ReserveCommand.source_ne (cmd : ReserveCommand) : cmd.source ≠ [] := by
  have hbar : lit "|" ≠ [] := by decide
  unfold source firstNonEmpty ReservationKey.string
  dsimp only
  split_ifs <;> simp_all

/-- One turn keeps the reservations on record and adds its own. -/
lemma ReserveEffect.existing {cmd : ReserveCommand} (h : ReserveEffect json c cmd c')
    {source : GoStr}
    (hs : (c.reserveExisting source).isSome ∨ source = cmd.source ∧ cmd.estimateOnly = false) :
    (c'.reserveExisting source).isSome := by
  cases h with
  | idle hidle =>
    rcases hs with hs | ⟨rfl, hreal⟩
    · exact hs
    · exact hidle.resolve_left (by simp [hreal])
  | @granted c1 row key one _ _ _ hmatch _ _ _ hsource =>
    have hsame : c1.resBySource = c.resBySource ∧ c1.reservations = c.reservations := by
      cases (matchLimitRow_effect hmatch).2 <;> exact ⟨rfl, rfl⟩
    rw [reserveExisting_isSome]
    by_cases hown : source = one.sourceKey
    · refine ⟨hown ▸ hsource ▸ cmd.source_ne, one.reservationKey.string, ?_, ?_⟩
      · exact lookup_insert_eq.trans (if_pos hown)
      · exact congrArg Option.isSome (lookup_insert_eq.trans (if_pos rfl))
    · have hold := hs.resolve_right fun hnew => hown (hnew.1.trans hsource.symm)
      obtain ⟨hne, found, hfound, hheld⟩ := reserveExisting_isSome.mp hold
      refine ⟨hne, found, ?_, ?_⟩
      · exact (lookup_insert_eq.trans (if_neg hown)).trans (hsame.1 ▸ hfound)
      · refine (congrArg Option.isSome lookup_insert_eq).trans ?_
        split_ifs
        · rfl
        · exact hsame.2 ▸ hheld

lemma foldlM_existing {cmd : ReserveCommand} (hreal : cmd.estimateOnly = false)
    {ds : List ReservationDescriptor} {acc acc' : StoreCore × Option ReserveResult}
    (h : ds.foldlM (reserveTurn json cmd) acc = .ok acc') {d : ReservationDescriptor}
    (hd : d ∈ ds) : (acc'.1.reserveExisting (reserveCommandFor cmd d).source).isSome := by
  induction ds generalizing acc with
  | nil => cases hd
  | cons e ds ih =>
    rw [List.foldlM_cons] at h
    obtain ⟨next, hturn, hrest⟩ := bind_eq_ok.mp h
    rcases List.mem_cons.mp hd with rfl | hd
    · exact loop_induct (fun acc => (acc.1.reserveExisting (reserveCommandFor cmd d).source).isSome = true)
        (fun _ _ _ hs _ hb => (reserveTurn_effect hb).existing (.inl hs))
        ((reserveTurn_effect hturn).existing (.inr ⟨rfl, hreal⟩))
        (loopMeets_of_forall (fun _ _ => True) (fun _ _ => trivial) _ _) hrest
    · exact ih hrest hd

lemma recordsGrants (json : RowKeyCodec) (c : StoreCore) (cmd : ReserveCommand) :
    RecordsGrants json c cmd := by
  intro hok hreal d hd
  unfold reserve at hok ⊢
  cases h : c.reserveSetInPlace json cmd with
  | error e =>
    rw [h] at hok
    cases hok
  | ok out =>
    unfold reserveSetInPlace at h
    dsimp only at h
    split_ifs at h with _ _ hall
    · cases h
      exact .inl (List.countP_eq_length.mp hall d hd)
    · obtain ⟨acc, hloop, rfl⟩ := map_eq_ok.mp h
      exact .inr (foldlM_existing hreal hloop hd)

/-- On a strict-capable core, in every run in which settlements and releases take off what is due
and no `Consumed` leaves its range, every grant stays within its limit and is on record. -/
theorem strict_quota_never_oversold (json : RowKeyCodec) (cfg : Config)
    (hstrict : cfg.normalized.backing.strictCapable)
    (hseed : ∀ row ∈ cfg.limitRows, 0 ≤ row.limit ∧ 0 ≤ row.consumed ∧ row.reserved = 0)
    (cmds : List Command)
    (hfollow : Meets (StoreCore.step json) ((countersFollow json).Permits json) (newStoreCore json cfg) cmds)
    (done : List Command) (hdone : done <+: cmds) (cmd : ReserveCommand) :
    GrantsWithinLimit json (run (StoreCore.step json) (newStoreCore json cfg) done) cmd ∧
      RecordsGrants json (run (StoreCore.step json) (newStoreCore json cfg) done) cmd := by
  obtain ⟨hseeded, hbacking⟩ := newStoreCore_seeded json cfg
  have hlimit : ∀ row ∈ cfg.limitRows, 0 ≤ row.limit.toInt := by
    intro row hrow
    have h := (hseed row hrow).1
    rw [Int64.le_iff_toInt_le] at h
    exact h
  have hstart : QuotaSound (seedConsumed json cfg) (newStoreCore json cfg) := by
    refine ⟨newStoreCore_consumedSound fun row hrow => (hseed row hrow).2.1,
      (newStoreCore_reservedSound fun row hrow => (hseed row hrow).2.2).balanced,
      hbacking ▸ hstrict, ?_, ?_⟩
    · intro k row hk
      have hrow := hseeded.limits k row hk
      rw [(hseed row hrow).2.2]
      exact ⟨hlimit row hrow, hlimit row hrow⟩
    · intro ruleID templates hl template ht
      exact hlimit template (hseeded.templates ruleID templates hl template ht)
  have hsound := run_induct (fun _ _ hq hok => quotaSound_step hq hok) hstart hfollow hdone
  exact ⟨grantsWithinLimit_of_sound hsound cmd, recordsGrants json _ cmd⟩

def askNinety : ReserveCommand :=
  { reservationKey := requestKey "c", ruleID := lit "r", ruleType := .quota, request := ⟨.requests, 90⟩ }

/-- Two reservations of fifty, the first settled for ten, and the named one released. -/
def releasedCore (id : String) : StoreCore :=
  run (StoreCore.step plainCodec) (newStoreCore plainCodec hundredRequests)
    [reserveRequests "a" 50, reserveRequests "b" 50, settleRequests "a" 10, releaseRequests id]

theorem strict_quota_never_oversold_ninety :
    ((releasedCore "b").reserve plainCodec askNinety).2.isOk ∧
      GrantsWithinLimit plainCodec (releasedCore "b") askNinety ∧
      RecordsGrants plainCodec (releasedCore "b") askNinety :=
  ⟨by decide +kernel, strict_quota_never_oversold plainCodec hundredRequests (by decide)
    (by decide) _ (by decide +kernel) _ (List.prefix_refl _) askNinety⟩

/-- After the settled reservation was released again, ninety are granted on top of ten consumed and
fifty outstanding. -/
theorem strict_quota_oversold_after_settle_release :
    ¬ GrantsWithinLimit plainCodec (releasedCore "a") askNinety := by
  decide +kernel

end InteractiveProxy.UsageAuthority
