import InteractiveProxy.UsageAuthorityStore
import InteractiveProxy.GuardedRun

/-! The ledger behind the row counters: which reservations and usage facts belong to a row, the
referential integrity of the core, and how a rewritten row and reservation keep a balance. -/
namespace InteractiveProxy.UsageAuthority
open GoText KeyedTable SignedWord Attribution LedgerBalance GuardedRun StoreCore

@[simp] def ReservationRecord.openAmount (rcd : ReservationRecord) : ℤ :=
  if rcd.settled || rcd.released then 0 else rcd.reservedAmount.value.toInt

@[simp] def ReservationRecord.settledAmount (rcd : ReservationRecord) : ℤ :=
  if rcd.settled then rcd.settledActual.value.toInt else 0

/-- Sum of `ReservedAmount` over the reservations of a row that are neither settled nor released. -/
def StoreCore.outstanding (c : StoreCore) (key : GoStr) : ℤ :=
  owed ReservationRecord.limitRowKey ReservationRecord.openAmount c.reservations key

/-- Sum of `SettledActual` over the settled reservations of a row. -/
def StoreCore.settledUsage (c : StoreCore) (key : GoStr) : ℤ :=
  owed ReservationRecord.limitRowKey ReservationRecord.settledAmount c.reservations key

def StoreCore.unreservedUsage (c : StoreCore) (key : GoStr) : ℤ :=
  owed UnreservedUsageFact.limitRowKey (fun fact => fact.amount.value.toInt) c.unreservedUsageFacts key

/-- Referential integrity: every record and every fact names a live row, and amounts are natural. -/
structure WellBound (c : StoreCore) : Prop where
  keyed : ∀ id rcd, c.reservations.lookup id = some rcd → rcd.reservationKey = id
  rowed : ∀ id rcd, c.reservations.lookup id = some rcd →
    rcd.limitRowKey ≠ [] ∧ ∃ row, c.limits.lookup rcd.limitRowKey = some row
  reservedNonneg :
    ∀ id rcd, c.reservations.lookup id = some rcd → 0 ≤ rcd.reservedAmount.value.toInt
  settledNonneg : ∀ id rcd, c.reservations.lookup id = some rcd → 0 ≤ rcd.settledActual.value.toInt
  factRowed : ∀ f fact, c.unreservedUsageFacts.lookup f = some fact →
    fact.limitRowKey ≠ [] ∧ ∃ row, c.limits.lookup fact.limitRowKey = some row
  factNonneg : ∀ f fact, c.unreservedUsageFacts.lookup f = some fact → 0 ≤ fact.amount.value.toInt

variable {c c' : StoreCore} {rcd rcd' : ReservationRecord} {row row' : LimitRow} {key id k : GoStr}

lemma openAmount_nonneg (h : 0 ≤ rcd.reservedAmount.value.toInt) : 0 ≤ rcd.openAmount := by
  unfold ReservationRecord.openAmount
  split_ifs
  · exact le_rfl
  · exact h

lemma settledAmount_nonneg (h : 0 ≤ rcd.settledActual.value.toInt) : 0 ≤ rcd.settledAmount := by
  unfold ReservationRecord.settledAmount
  split_ifs
  · exact h
  · exact le_rfl

namespace WellBound

variable (hw : WellBound c)
include hw

lemma reservationRow_eq (hrcd : c.reservations.lookup id = some rcd)
    (h : c.reservationRow rcd = some (row, key)) :
    key = rcd.limitRowKey ∧ c.limits.lookup rcd.limitRowKey = some row ∧
      c.reservations.lookup rcd.reservationKey = some rcd := by
  obtain ⟨hne, live, hlive⟩ := hw.rowed id rcd hrcd
  unfold reservationRow at h
  rw [if_pos hne, hlive] at h
  cases h
  exact ⟨rfl, hlive, hw.keyed id rcd hrcd ▸ hrcd⟩

lemma outstanding_nonneg (key : GoStr) : 0 ≤ c.outstanding key :=
  owed_nonneg (fun id rcd h => openAmount_nonneg (hw.reservedNonneg id rcd h)) key

lemma openAmount_le (h : c.reservations.lookup id = some rcd) :
    rcd.openAmount ≤ c.outstanding rcd.limitRowKey :=
  weight_le_owed _ (fun id rcd h => openAmount_nonneg (hw.reservedNonneg id rcd h)) h

lemma settledUsage_nonneg (key : GoStr) : 0 ≤ c.settledUsage key :=
  owed_nonneg (fun id rcd h => settledAmount_nonneg (hw.settledNonneg id rcd h)) key

lemma settledAmount_le (h : c.reservations.lookup id = some rcd) :
    rcd.settledAmount ≤ c.settledUsage rcd.limitRowKey :=
  weight_le_owed _ (fun id rcd h => settledAmount_nonneg (hw.settledNonneg id rcd h)) h

lemma unreservedUsage_nonneg (key : GoStr) : 0 ≤ c.unreservedUsage key :=
  owed_nonneg hw.factNonneg key

lemma fact_le {f : GoStr} {fact : UnreservedUsageFact}
    (h : c.unreservedUsageFacts.lookup f = some fact) :
    fact.amount.value.toInt ≤ c.unreservedUsage fact.limitRowKey :=
  weight_le_owed (fun fact => fact.amount.value.toInt) hw.factNonneg h

section

variable (h : c.limits.lookup key = none)
include h

lemma owner_ne (hrcd : c.reservations.lookup id = some rcd) : rcd.limitRowKey ≠ key := by
  rintro rfl
  obtain ⟨_, row, hrow⟩ := hw.rowed id rcd hrcd
  cases h.symm.trans hrow

lemma outstanding_absent : c.outstanding key = 0 := owed_eq_zero fun _ _ => hw.owner_ne h

lemma settledUsage_absent : c.settledUsage key = 0 := owed_eq_zero fun _ _ => hw.owner_ne h

lemma unreservedUsage_absent : c.unreservedUsage key = 0 := by
  apply owed_eq_zero
  rintro f fact hfact rfl
  obtain ⟨_, row, hrow⟩ := hw.factRowed f fact hfact
  cases h.symm.trans hrow

end

/-- Rows stay, and every record and fact of the new core is an old one or names a row and natural
amounts itself. -/
lemma keeps
    (hlive : ∀ k, (∃ row, c.limits.lookup k = some row) → ∃ row, c'.limits.lookup k = some row)
    (hrecords : ∀ id rcd, c'.reservations.lookup id = some rcd → c.reservations.lookup id = some rcd ∨
      rcd.reservationKey = id ∧
      (rcd.limitRowKey ≠ [] ∧ ∃ row, c'.limits.lookup rcd.limitRowKey = some row) ∧
        0 ≤ rcd.reservedAmount.value.toInt ∧ 0 ≤ rcd.settledActual.value.toInt)
    (hfacts : ∀ f fact, c'.unreservedUsageFacts.lookup f = some fact → c.unreservedUsageFacts.lookup f = some fact ∨
      (fact.limitRowKey ≠ [] ∧ ∃ row, c'.limits.lookup fact.limitRowKey = some row) ∧
      0 ≤ fact.amount.value.toInt) :
    WellBound c' where
  keyed id rcd h := (hrecords id rcd h).elim (hw.keyed id rcd) And.left
  rowed id rcd h := (hrecords id rcd h).elim (fun h => (hw.rowed id rcd h).imp_right (hlive _))
    fun h => h.2.1
  reservedNonneg id rcd h := (hrecords id rcd h).elim (hw.reservedNonneg id rcd) fun h => h.2.2.1
  settledNonneg id rcd h := (hrecords id rcd h).elim (hw.settledNonneg id rcd) fun h => h.2.2.2
  factRowed f fact h := (hfacts f fact h).elim (fun h => (hw.factRowed f fact h).imp_right (hlive _)) And.left
  factNonneg f fact h := (hfacts f fact h).elim (hw.factNonneg f fact) And.right

end WellBound

/-- `c'` has the rows of `c` with `row` written under `key`, nothing removed. -/
def WritesRow (c c' : StoreCore) (key : GoStr) (row : LimitRow) : Prop :=
  ∀ k, c'.limits.lookup k = if k = key then some row else c.limits.lookup k

lemma WritesRow.live (h : WritesRow c c' key row)
    (hk : ∃ r, c.limits.lookup k = some r) : ∃ r, c'.limits.lookup k = some r := by
  rw [h k]
  split_ifs
  · exact ⟨row, rfl⟩
  · exact hk

lemma WritesRow.absent (h : WritesRow c c' key row)
    (hk : c'.limits.lookup k = none) : c.limits.lookup k = none := by
  rw [h k] at hk
  split_ifs at hk
  exact hk

structure Rewrites (c c' : StoreCore) (key : GoStr) (row : LimitRow) (id : GoStr)
    (rcd : ReservationRecord) : Prop where
  limits : WritesRow c c' key row
  reservations : c'.reservations = c.reservations.insert id rcd
  facts : c'.unreservedUsageFacts = c.unreservedUsageFacts
  templates : c'.limitTemplates = c.limitTemplates
  backing : c'.backing = c.backing

namespace Rewrites

lemma wellBound (hr : Rewrites c c' key row' id rcd') (hw : WellBound c)
    (hid : rcd'.reservationKey = id)
    (hkey : rcd'.limitRowKey = key) (hne : key ≠ [])
    (hreserved : 0 ≤ rcd'.reservedAmount.value.toInt)
    (hsettled : 0 ≤ rcd'.settledActual.value.toInt) : WellBound c' := by
  refine hw.keeps (fun _ => hr.limits.live) (fun i r hi => ?_) fun f fact hf => .inl (hr.facts ▸ hf)
  rw [hr.reservations, lookup_insert_eq] at hi
  split_ifs at hi with h
  · cases hi
    exact .inr ⟨hid.trans h.symm, ⟨hkey ▸ hne, row', by rw [hr.limits, if_pos hkey]⟩, hreserved, hsettled⟩
  · exact .inl hi

variable {counter : LimitRow → ℤ} {weight : ReservationRecord → ℤ} {base : GoStr → ℤ}

section

variable (hr : Rewrites c c' key row' id rcd')
  (hb : Balanced counter (fun k => base k + owed ReservationRecord.limitRowKey weight c.reservations k) c.limits)
  (hrow : c.limits.lookup key = some row)

include hr hb hrow

lemma balanced_replace (hold : c.reservations.lookup id = some rcd) (hkey : rcd.limitRowKey = key)
    (hkey' : rcd'.limitRowKey = key)
    (hmove : counter row' = counter row - weight rcd + weight rcd') :
    Balanced counter (fun k => base k + owed ReservationRecord.limitRowKey weight c'.reservations k)
    c'.limits := by
  apply hb.write hr.limits
  · have hbefore := hb key row hrow
    dsimp only at hbefore ⊢
    rw [hr.reservations, owed_insert_old hold, if_pos hkey, if_pos hkey']
    omega
  · intro k hk
    rw [hr.reservations, owed_insert_old hold, if_neg (hkey ▸ hk.symm), if_neg (hkey' ▸ hk.symm), sub_zero, add_zero]

lemma balanced_add (hnew : c.reservations.lookup id = none) (hkey' : rcd'.limitRowKey = key)
    (hmove : counter row' = counter row + weight rcd') :
    Balanced counter (fun k => base k + owed ReservationRecord.limitRowKey weight c'.reservations k)
    c'.limits := by
  apply hb.write hr.limits
  · have hbefore := hb key row hrow
    dsimp only at hbefore ⊢
    rw [hr.reservations, owed_insert_new hnew, if_pos hkey']
    omega
  · intro k hk
    rw [hr.reservations, owed_insert_new hnew, if_neg (hkey' ▸ hk.symm), add_zero]

end

end Rewrites

lemma recordReservation_rewrites (c : StoreCore) (cmd : ReserveCommand) (row : LimitRow)
    (key : GoStr) (amount : Amount) :
    ∃ row' rcd', Rewrites c
    (c.recordReservation cmd row key amount).1 key row' cmd.reservationKey.string rcd' ∧
      row'.reserved = row.reserved + amount.value ∧ row'.consumed = row.consumed ∧
      row'.limit = row.limit ∧
      rcd'.reservationKey = cmd.reservationKey.string ∧ rcd'.limitRowKey = key ∧
      rcd'.reservedAmount = amount ∧
      rcd'.settledActual.value = 0 ∧ rcd'.settled = false ∧ rcd'.released = false :=
  ⟨_, _, ⟨fun _ => lookup_insert_eq, rfl, rfl, rfl, rfl⟩, rfl, rfl, rfl, rfl, rfl, rfl, rfl, rfl, rfl⟩

/-- A reservation and its own row rewritten; the record keeps its identity, its row and what it
reserved. -/
structure Moved (c c' : StoreCore) (rcd rcd' : ReservationRecord) (row row' : LimitRow) : Prop where
  live : c.limits.lookup rcd.limitRowKey = some row
  held : c.reservations.lookup rcd.reservationKey = some rcd
  rewrites : Rewrites c c' rcd.limitRowKey row' rcd.reservationKey rcd'
  limit : row'.limit = row.limit
  sameID : rcd'.reservationKey = rcd.reservationKey
  sameRow : rcd'.limitRowKey = rcd.limitRowKey
  sameAmount : rcd'.reservedAmount = rcd.reservedAmount

lemma recordResettlement_moved (cmd : SettleCommand) {actual : Amount}
    (hlive : c.limits.lookup rcd.limitRowKey = some row)
    (hheld : c.reservations.lookup rcd.reservationKey = some rcd) :
    ∃ rcd' row', Moved c (c.recordResettlement cmd rcd row rcd.limitRowKey actual).1 rcd rcd' row row' ∧
      rcd'.settledActual = actual ∧ rcd'.settled = rcd.settled ∧ row'.reserved = row.reserved ∧
      row'.consumed = row.consumed + (actual.value - rcd.settledActual.value) := by
  by_cases hdelta : actual.value - rcd.settledActual.value = 0
  · refine ⟨_, row, ⟨hlive, hheld, ⟨?_, rfl, rfl, rfl, rfl⟩, rfl, rfl, rfl, rfl⟩, rfl, rfl, rfl, ?_⟩
    · intro k
      simp only [recordResettlement, appendDecision]
      split_ifs with hk
      · rw [hk, hlive]
      · rfl
    · rw [hdelta, Int64.add_zero]
  · simp only [recordResettlement, if_neg hdelta]
    exact ⟨_, _, ⟨hlive, hheld, ⟨fun _ => lookup_insert_eq, rfl, rfl, rfl, rfl⟩, rfl, rfl, rfl, rfl⟩,
      rfl, rfl, rfl, rfl⟩

lemma SettleEffect.moved {cmd : SettleCommand} (h : SettleEffect c cmd c') (hw : WellBound c) :
    c' = c ∨ ∃ rcd rcd' row row', Moved c c' rcd rcd' row row' ∧
    c.settleExisting cmd.source = none ∧
      c.reservations.lookup cmd.reservationKey.string = some rcd ∧
      0 ≤ (settleActual rcd cmd).value.toInt ∧
      rcd'.settledActual = settleActual rcd cmd ∧ rcd'.settled ∧
      (rcd.settled = false ∧ 0 ≤ (settledReservation rcd cmd).value.toInt ∧
          row'.reserved = max 0 (row.reserved - (settledReservation rcd cmd).value) ∧
          row'.consumed = row.consumed + (settleActual rcd cmd).value ∨
        rcd.settled ∧ row'.reserved = row.reserved ∧
          row'.consumed = row.consumed + ((settleActual rcd cmd).value - rcd.settledActual.value)) := by
  cases h with
  | replay => exact .inl rfl
  | @first rcd row key hnew hrcd hrow hopen hreserved hactual =>
    obtain ⟨rfl, hlive, hheld⟩ := hw.reservationRow_eq hrcd hrow
    exact .inr ⟨rcd, _, row, _, ⟨hlive, hheld, ⟨fun _ => lookup_insert_eq, rfl, rfl, rfl, rfl⟩, rfl, rfl, rfl, rfl⟩,
      hnew, hrcd, validateRowAmount_nonneg hactual, rfl, rfl,
      .inl ⟨hopen, validateRowAmount_nonneg hreserved, rfl, rfl⟩⟩
  | @again rcd row key hnew hrcd hrow hsettled hactual =>
    obtain ⟨rfl, hlive, hheld⟩ := hw.reservationRow_eq hrcd hrow
    obtain ⟨rcd', row', hm, hnow, hsame, hreserved, hconsumed⟩ :=
      recordResettlement_moved { cmd with sourceKey := cmd.source } hlive hheld
    exact .inr ⟨rcd, rcd', row, row', hm, hnew, hrcd, validateRowAmount_nonneg hactual, hnow,
      hsame.trans hsettled, .inr ⟨hsettled, hreserved, hconsumed⟩⟩

lemma ReleaseEffect.moved {cmd : ReleaseCommand} (h : ReleaseEffect c cmd c') (hw : WellBound c) :
    c' = c ∨ ∃ rcd rcd' row row', Moved c c' rcd rcd' row row' ∧
    c.releaseExisting cmd.source = none ∧
      c.reservations.lookup cmd.reservationKey.string = some rcd ∧ rcd.released = false ∧
      0 ≤ (min (requestedRelease rcd cmd).value rcd.reservedAmount.value).toInt ∧
      row'.reserved = max 0 (row.reserved - min (requestedRelease rcd cmd).value rcd.reservedAmount.value) ∧
      row'.consumed = row.consumed ∧ rcd'.settledActual = rcd.settledActual ∧
      rcd'.settled = rcd.settled ∧ rcd'.released := by
  cases h with
  | replay => exact .inl rfl
  | @first rcd row key hnew hrcd hrow hopen hpos =>
    obtain ⟨rfl, hlive, hheld⟩ := hw.reservationRow_eq hrcd hrow
    have hamount := hw.reservedNonneg _ _ hrcd
    refine .inr ⟨rcd, _, row, _, ⟨hlive, hheld, ⟨fun _ => lookup_insert_eq, rfl, rfl, rfl, rfl⟩, rfl, rfl, rfl, rfl⟩,
      hnew, hrcd, hopen, ?_, rfl, rfl, rfl, rfl, rfl⟩
    rw [toInt_min]
    omega

namespace MatchEffect

variable (h : MatchEffect c c' row key)
include h

lemma lookup : c'.limits.lookup key = some row := by
  cases h with
  | found hrow => exact hrow
  | opened => exact AList.lookup_insert _

lemma reservations : c'.reservations = c.reservations := by
  cases h <;> rfl

lemma facts : c'.unreservedUsageFacts = c.unreservedUsageFacts := by
  cases h <;> rfl

lemma templates : c'.limitTemplates = c.limitTemplates := by
  cases h <;> rfl

lemma backing : c'.backing = c.backing := by
  cases h <;> rfl

lemma writesRow : WritesRow c c' key row := by
  intro k
  cases h with
  | found hrow =>
    split_ifs with hk
    · rw [hk, hrow]
    · rfl
  | opened => exact lookup_insert_eq

lemma wellBound (hw : WellBound c) : WellBound c' :=
  hw.keeps (fun _ => h.writesRow.live)
    (fun _ _ hi => .inl (h.reservations ▸ hi)) fun _ _ hf => .inl (h.facts ▸ hf)

/-- A fresh row starts at zero, and nothing is expected of a row that was not live. -/
lemma balanced {counter : LimitRow → ℤ} {expected : GoStr → ℤ}
    (hb : Balanced counter expected c.limits)
    (hzero : c.limits.lookup key = none → row.consumed = 0 → row.reserved = 0 → counter row = expected key) :
    Balanced counter expected c'.limits := by
  cases h with
  | found => exact hb
  | opened habsent hconsumed hreserved =>
    exact hb.write (fun _ => lookup_insert_eq) (hzero habsent hconsumed hreserved) (fun _ _ => rfl)

end MatchEffect

lemma withdrawFact_cases (c : StoreCore) (previous : UnreservedUsageFact) (key : GoStr) :
    (c.withdrawFact previous key = c ∧ (previous.limitRowKey = [] ∨ previous.limitRowKey = key ∨
      c.limits.lookup previous.limitRowKey = none)) ∨
    ∃ row, previous.limitRowKey ≠ key ∧ c.limits.lookup previous.limitRowKey = some row ∧
      c.withdrawFact previous key =
        { c with
          limits := c.limits.insert previous.limitRowKey
            (row.withConsumed (max 0 (row.consumed - previous.amount.value))) } := by
  unfold withdrawFact
  split_ifs with h
  · cases hrow : c.limits.lookup previous.limitRowKey with
    | none => exact .inl ⟨rfl, .inr (.inr rfl)⟩
    | some row => exact .inr ⟨row, h.2, rfl, rfl⟩
  · refine .inl ⟨rfl, ?_⟩
    by_cases hnil : previous.limitRowKey = []
    · exact .inl hnil
    · exact .inr (.inl (not_not.mp fun hne => h ⟨hnil, hne⟩))

/-- Withdrawing the fact it replaces moves no row but its `Consumed`. -/
lemma withdraw_lookup (previous : Option UnreservedUsageFact) (key k : GoStr) :
    ((c.withdraw previous key).limits.lookup k).map (fun r => (r.reserved, r.limit)) =
      (c.limits.lookup k).map fun r => (r.reserved, r.limit) := by
  cases previous with
  | none => rfl
  | some p =>
    simp only [withdraw]
    rcases withdrawFact_cases c p key with ⟨heq, -⟩ | ⟨row, -, hrow, heq⟩
    · rw [heq]
    rw [heq, lookup_insert_eq]
    split_ifs with hk
    · rw [hk, hrow]
      rfl
    · rfl

lemma withdraw_frame (c : StoreCore) (previous : Option UnreservedUsageFact) (key : GoStr) :
    (c.withdraw previous key).reservations = c.reservations ∧
      (c.withdraw previous key).unreservedUsageFacts = c.unreservedUsageFacts ∧
      (c.withdraw previous key).limitTemplates = c.limitTemplates ∧
      (c.withdraw previous key).backing = c.backing := by
  cases previous with
  | none => exact ⟨rfl, rfl, rfl, rfl⟩
  | some p =>
    simp only [withdraw]
    rcases withdrawFact_cases c p key with ⟨heq, -⟩ | ⟨row, -, hrow, heq⟩
    · rw [heq]
      exact ⟨rfl, rfl, rfl, rfl⟩
    · rw [heq]
      exact ⟨rfl, rfl, rfl, rfl⟩

section RecordUsage

variable (c : StoreCore) (cmd : ApplyUsageCommand) (ruleID key factKey : GoStr) (row : LimitRow)
  (previous : Option UnreservedUsageFact) (actual : Amount) (measured : MeasurementAuthority)
  (effective : AuthorityLevel)

lemma recordUsage_writesRow :
    WritesRow (c.withdraw previous key)
    (c.recordUsage cmd ruleID key factKey row previous actual measured effective)
      key (row.withConsumed (max 0 (row.consumed + usageDelta previous key actual))) :=
  fun _ => lookup_insert_eq

variable {c cmd ruleID key factKey row previous actual measured effective} in
lemma recordUsage_row (hrow : c.limits.lookup key = some row) {k : GoStr} {r : LimitRow}
    (hr : (c.recordUsage cmd ruleID key factKey row previous actual measured effective).limits.lookup k = some r) :
    ∃ r0, c.limits.lookup k = some r0 ∧ r0.reserved = r.reserved ∧ r0.limit = r.limit := by
  rw [recordUsage_writesRow _ _ _ _ _ _ _ _ _ _ k] at hr
  split_ifs at hr with hk
  · cases hr
    exact ⟨row, hk ▸ hrow, rfl, rfl⟩
  have hkept := withdraw_lookup (c := c) previous key k
  rw [hr, Option.map_some, eq_comm, Option.map_eq_some_iff] at hkept
  obtain ⟨r0, hr0, hsame⟩ := hkept
  exact ⟨r0, hr0, congrArg Prod.fst hsame, congrArg Prod.snd hsame⟩

lemma recordUsage_facts :
    (c.recordUsage cmd ruleID key factKey row previous actual measured effective).unreservedUsageFacts =
      if cmd.sourceKey = [] then c.unreservedUsageFacts
      else c.unreservedUsageFacts.insert factKey (usageFact cmd ruleID key actual measured effective) := by
  simp only [recordUsage, appendDecision, withdraw_frame]

lemma recordUsage_reservations :
    (c.recordUsage cmd ruleID key factKey row previous actual measured effective).reservations =
    c.reservations :=
  (withdraw_frame c previous key).1

end RecordUsage

variable {json : RowKeyCodec} {rows : List LimitRow}

lemma ReserveEffect.wellBound {cmd : ReserveCommand}
    (h : ReserveEffect json c cmd c') (hw : WellBound c) : WellBound c' := by
  cases h with
  | idle => exact hw
  | @granted c1 row key one _ _ _ hmatch hvalid _ _ _ =>
    obtain ⟨hne, hm⟩ := matchLimitRow_effect hmatch
    obtain ⟨row', rcd', hr, -, -, -, hid, hkey, hamount, hzero, -, -⟩ :=
      recordReservation_rewrites c1 one row key cmd.request
    apply hr.wellBound (hm.wellBound hw) hid hkey hne
    · rw [hamount]
      exact validateRowAmount_nonneg hvalid
    · rw [hzero]
      exact le_rfl

lemma Moved.wellBound (h : Moved c c' rcd rcd' row row')
    (hw : WellBound c) (hactual : 0 ≤ rcd'.settledActual.value.toInt) : WellBound c' :=
  h.rewrites.wellBound hw h.sameID h.sameRow (hw.rowed _ _ h.held).1
    (h.sameAmount ▸ hw.reservedNonneg _ _ h.held) hactual

lemma SettleEffect.wellBound {cmd : SettleCommand} (h : SettleEffect c cmd c')
    (hw : WellBound c) : WellBound c' := by
  rcases h.moved hw with rfl | ⟨rcd, rcd', row, row', hm, -, -, hactual, hnow, -⟩
  · exact hw
  · exact hm.wellBound hw (hnow ▸ hactual)

lemma ReleaseEffect.wellBound {cmd : ReleaseCommand} (h : ReleaseEffect c cmd c')
    (hw : WellBound c) : WellBound c' := by
  rcases h.moved hw with rfl | ⟨rcd, rcd', row, row', hm, -, -, -, -, -, -, hsame, -, -⟩
  · exact hw
  · exact hm.wellBound hw (hsame ▸ hw.settledNonneg _ _ hm.held)

lemma UsageEffect.wellBound {cmd : ApplyUsageCommand}
    {ruleID : GoStr} (h : UsageEffect json c cmd ruleID c') (hw : WellBound c) : WellBound c' := by
  cases h with
  | skipped hmatch => exact (matchLimitRow_effect hmatch).2.wellBound hw
  | @counted c1 row key hmatch hvalid _ =>
    obtain ⟨hne, hm⟩ := matchLimitRow_effect hmatch
    set actual := usageAmount row cmd
    set measured := usageAuthority cmd
    set effective := measured.forUnit row.unit
    have hw1 := hm.wellBound hw
    set factKey := unreservedUsageFactKey cmd.sourceKey ruleID
    set previous := c1.unreservedUsageFacts.lookup factKey
    have hwrites :=
      recordUsage_writesRow c1 cmd ruleID key factKey row previous actual measured effective
    have hlive : ∀ k, (∃ r, c1.limits.lookup k = some r) → ∃ r,
        (c1.recordUsage cmd ruleID key factKey row previous actual measured effective).limits.lookup k = some r := by
      rintro k ⟨r, hk⟩
      have hkept := withdraw_lookup (c := c1) previous key k
      rw [hk, Option.map_some, Option.map_eq_some_iff] at hkept
      exact hwrites.live (hkept.imp fun _ => And.left)
    refine hw1.keeps hlive (fun id rcd hr => .inl (recordUsage_reservations .. ▸ hr))
      fun f fact hf => ?_
    -- a fact of the new core is the one just stored or an old one
    rw [recordUsage_facts] at hf
    split_ifs at hf
    · exact .inl hf
    rw [lookup_insert_eq] at hf
    split_ifs at hf
    · cases hf
      exact .inr ⟨⟨hne, hlive _ ⟨row, hm.lookup⟩⟩, validateRowAmount_nonneg hvalid⟩
    · exact .inl hf

structure SameLedger (c c' : StoreCore) : Prop where
  limits : c'.limits = c.limits
  reservations : c'.reservations = c.reservations
  facts : c'.unreservedUsageFacts = c.unreservedUsageFacts
  templates : c'.limitTemplates = c.limitTemplates
  backing : c'.backing = c.backing

lemma SameLedger.refl (c : StoreCore) : SameLedger c c := ⟨rfl, rfl, rfl, rfl, rfl⟩

lemma SameLedger.wellBound (h : SameLedger c c') (hw : WellBound c) : WellBound c' :=
  hw.keeps (fun _ hk => h.limits ▸ hk)
    (fun _ _ hi => .inl (h.reservations ▸ hi)) fun _ _ hf => .inl (h.facts ▸ hf)

lemma SameLedger.foldl {α : Type} {f : StoreCore → α → StoreCore} (hf : ∀ c a, SameLedger c (f c a))
    (as : List α) (c : StoreCore) : SameLedger c (as.foldl f c) := by
  induction as generalizing c with
  | nil => exact .refl c
  | cons a as ih =>
    have h := hf c a
    have h' := ih (f c a)
    exact ⟨h'.limits.trans h.limits, h'.reservations.trans h.reservations, h'.facts.trans h.facts,
      h'.templates.trans h.templates, h'.backing.trans h.backing⟩

structure TurnGuards where
  reserve : StoreCore → ReserveCommand → Prop
  settle : StoreCore → SettleCommand → Prop
  release : StoreCore → ReleaseCommand → Prop
  usage : StoreCore → ApplyUsageCommand → GoStr → Prop

def TurnGuards.Permits (json : RowKeyCodec) (g : TurnGuards) (c : StoreCore) : Command → Prop
  | .reserve cmd => (c.reserve json cmd).2.isOk = true →
      LoopMeets (reserveTurn json cmd) (fun acc d => g.reserve acc.1 (reserveCommandFor cmd d))
        (c, none) (reserveDescriptors cmd)
  | .settle cmd => (c.settle cmd).2.isOk = true →
      LoopMeets settleTurn (fun acc one => g.settle acc.1 one) (c, none)
        ((settleDescriptors cmd).map (settleCommandFor cmd))
  | .release cmd => (c.release cmd).2.isOk = true →
      LoopMeets releaseTurn (fun acc one => g.release acc.1 one) (c, none)
        ((releaseDescriptors cmd).map (releaseCommandFor cmd))
  | .applyUsage cmd => (c.applyUsage json cmd).2.isOk = true →
      LoopMeets (applyUsageTurn json cmd) (fun acc ruleID => g.usage acc.1 cmd ruleID)
      (c, []) cmd.ruleIDs

section Decidable

variable {g : TurnGuards} [∀ c cmd, Decidable (g.reserve c cmd)]
  [∀ c cmd, Decidable (g.settle c cmd)] [∀ c cmd, Decidable (g.release c cmd)]
  [∀ c cmd ruleID, Decidable (g.usage c cmd ruleID)]

instance : ∀ cmd, Decidable (g.Permits json c cmd)
  | .reserve _ => inferInstanceAs (Decidable (_ → _))
  | .settle _ => inferInstanceAs (Decidable (_ → _))
  | .release _ => inferInstanceAs (Decidable (_ → _))
  | .applyUsage _ => inferInstanceAs (Decidable (_ → _))

end Decidable

/-- A command changes nothing, or all its turns succeed and it publishes what they leave. -/
def Publishes {α β ε : Type} (turn : StoreCore × β → α → Except ε (StoreCore × β)) (start : β)
    (ds : List α) (c c' : StoreCore) (ok : Bool) : Prop :=
  SameLedger c c' ∨ ok = true ∧ ∃ acc, ds.foldlM turn (c, start) = .ok acc ∧ SameLedger acc.1 c'

lemma Publishes.induct {α β ε : Type} {turn : StoreCore × β → α → Except ε (StoreCore × β)}
    {start : β} {ds : List α}
    {ok : Bool} {guard : StoreCore × β → α → Prop} (h : Publishes turn start ds c c' ok)
    (inv : StoreCore → Prop) (hledger : ∀ {c c'}, SameLedger c c' → inv c → inv c')
    (hturn : ∀ s d s', inv s.1 → guard s d → turn s d = .ok s' → inv s'.1) (hc : inv c)
    (hok : ok → LoopMeets turn guard (c, start) ds) : inv c' := by
  rcases h with hsame | ⟨hsucceeds, acc, hloop, hacc⟩
  · exact hledger hsame hc
  · exact hledger hacc (loop_induct (fun acc => inv acc.1) hturn hc (hok hsucceeds) hloop)

lemma reserve_outcome (json : RowKeyCodec) (c : StoreCore) (cmd : ReserveCommand) :
    Publishes (reserveTurn json cmd) none (reserveDescriptors cmd) c (c.reserve json cmd).1
      (c.reserve json cmd).2.isOk := by
  unfold reserve
  cases h : c.reserveSetInPlace json cmd with
  | error e => exact .inl (.foldl (f := keepDecision) (fun _ _ => ⟨rfl, rfl, rfl, rfl, rfl⟩) _ c)
  | ok out =>
    unfold reserveSetInPlace at h
    dsimp only at h
    split_ifs at h
    · cases h
      exact .inl (.refl c)
    · obtain ⟨acc, hloop, rfl⟩ := map_eq_ok.mp h
      exact .inr ⟨rfl, acc, hloop, .refl _⟩

lemma settle_outcome (c : StoreCore) (cmd : SettleCommand) :
    Publishes settleTurn none ((settleDescriptors cmd).map (settleCommandFor cmd)) c
    (c.settle cmd).1
      (c.settle cmd).2.isOk := by
  unfold settle
  cases h : c.settleSetInPlace cmd with
  | error e => exact .inl (.refl c)
  | ok out =>
    unfold settleSetInPlace at h
    dsimp only at h
    split_ifs at h
    obtain ⟨acc, hloop, rfl⟩ := map_eq_ok.mp h
    exact .inr ⟨rfl, acc, hloop, .refl _⟩

lemma release_outcome (c : StoreCore) (cmd : ReleaseCommand) :
    Publishes releaseTurn none ((releaseDescriptors cmd).map (releaseCommandFor cmd)) c
    (c.release cmd).1
      (c.release cmd).2.isOk := by
  unfold release
  cases h : c.releaseSetInPlace cmd with
  | error e => exact .inl (.refl c)
  | ok out =>
    unfold releaseSetInPlace at h
    dsimp only at h
    split_ifs at h
    obtain ⟨acc, hloop, rfl⟩ := map_eq_ok.mp h
    exact .inr ⟨rfl, acc, hloop, .refl _⟩

lemma applyUsage_outcome (json : RowKeyCodec) (c : StoreCore) (cmd : ApplyUsageCommand) :
    Publishes (applyUsageTurn json cmd)
    [] cmd.ruleIDs c (c.applyUsage json cmd).1 (c.applyUsage json cmd).2.isOk := by
  unfold applyUsage
  cases h : c.applyUsageInPlace json cmd with
  | error e => exact .inl (.refl c)
  | ok out =>
    unfold applyUsageInPlace at h
    split at h
    · cases h
    · split at h
      · cases h
      · obtain ⟨acc, hloop, rfl⟩ := map_eq_ok.mp h
        exact .inr ⟨rfl, acc, hloop, ⟨rfl, rfl, rfl, rfl, rfl⟩⟩

lemma reserveTurn_effect {cmd : ReserveCommand} {acc acc' : StoreCore × Option ReserveResult}
    {d : ReservationDescriptor} (h : reserveTurn json cmd acc d = .ok acc') :
    ReserveEffect json acc.1 (reserveCommandFor cmd d) acc'.1 := by
  unfold reserveTurn at h
  split at h
  · cases h
  · rename_i c out hone
    cases h
    exact reserveOne_effect hone

lemma step_induct {g : TurnGuards} (inv : StoreCore → Prop)
    (hledger : ∀ {c c'}, SameLedger c c' → inv c → inv c')
    (hreserve : ∀ {c cmd c'}, inv c → g.reserve c cmd → ReserveEffect json c cmd c' → inv c')
    (hsettle : ∀ {c cmd c'}, inv c → g.settle c cmd → SettleEffect c cmd c' → inv c')
    (hrelease : ∀ {c cmd c'}, inv c → g.release c cmd → ReleaseEffect c cmd c' → inv c')
    (husage : ∀ {c cmd ruleID c'}, inv c → g.usage c cmd ruleID → UsageEffect json c cmd ruleID c' → inv c')
    {cmd : Command} (hc : inv c) (hok : g.Permits json c cmd) : inv (c.step json cmd) := by
  cases cmd with
  | reserve cmd =>
    exact (reserve_outcome json c cmd).induct inv hledger
      (fun s d s' hs hg hb => hreserve hs hg (reserveTurn_effect hb)) hc hok
  | settle cmd =>
    refine (settle_outcome c cmd).induct inv hledger (fun s d s' hs hg hb => ?_) hc hok
    obtain ⟨r, hone, rfl⟩ := map_eq_ok.mp hb
    exact hsettle hs hg (settleOne_effect hone)
  | release cmd =>
    refine (release_outcome c cmd).induct inv hledger (fun s d s' hs hg hb => ?_) hc hok
    obtain ⟨r, hone, rfl⟩ := map_eq_ok.mp hb
    exact hrelease hs hg (releaseOne_effect hone)
  | applyUsage cmd =>
    exact (applyUsage_outcome json c cmd).induct inv hledger
      (fun s d s' hs hg hb => husage hs hg (applyUsageTurn_effect hb)) hc hok

structure SeededFrom (rows : List LimitRow) (c : StoreCore) : Prop where
  limits : ∀ k row, c.limits.lookup k = some row → row ∈ rows
  templates : ∀ ruleID templates, c.limitTemplates.lookup ruleID = some templates →
    ∀ template ∈ templates, template ∈ rows
  reservations : c.reservations = ∅
  facts : c.unreservedUsageFacts = ∅

lemma SeededFrom.seedRow (h : SeededFrom rows c) (hmem : row ∈ rows) :
    SeededFrom rows (c.seedRow json row) := by
  refine ⟨?_, ?_, h.reservations, h.facts⟩
  · intro k r hk
    simp only [StoreCore.seedRow, lookup_insert_eq] at hk
    split_ifs at hk
    · cases hk
      exact hmem
    · exact h.limits k r hk
  · intro ruleID templates hk template ht
    simp only [StoreCore.seedRow, lookup_insert_eq] at hk
    split_ifs at hk
    · cases hk
      rcases List.mem_append.mp ht with hold | hnew
      · cases hl : c.limitTemplates.lookup row.ruleID with
        | none => simp [hl] at hold
        | some before =>
          rw [hl] at hold
          exact h.templates _ _ hl template hold
      · exact List.mem_singleton.mp hnew ▸ hmem
    · exact h.templates _ _ hk template ht

lemma seededFrom_fold (json : RowKeyCodec) {all : List LimitRow} (h : SeededFrom all c)
    (hsub : ∀ row ∈ rows, row ∈ all) :
    SeededFrom all (rows.foldl (seedRow json) c) ∧
    (rows.foldl (seedRow json) c).backing = c.backing := by
  induction rows generalizing c with
  | nil => exact ⟨h, rfl⟩
  | cons row rows ih =>
    exact ih (h.seedRow (hsub row (by simp))) fun r hr => hsub r (by simp [hr])

lemma normalized_limitRows (cfg : Config) : cfg.normalized.limitRows = cfg.limitRows := by
  unfold Config.normalized
  dsimp only
  split_ifs <;> rfl

lemma newStoreCore_seeded (json : RowKeyCodec) (cfg : Config) :
    SeededFrom cfg.limitRows (newStoreCore json cfg) ∧
    (newStoreCore json cfg).backing = cfg.normalized.backing := by
  let empty : StoreCore :=
    { backing := cfg.normalized.backing, state := cfg.normalized.readiness, ruleWindows := cfg.normalized.ruleWindows }
  have hempty : SeededFrom cfg.limitRows empty := ⟨by simp [empty], by simp [empty], rfl, rfl⟩
  have hsub :
    ∀ row ∈ cfg.normalized.limitRows, row ∈ cfg.limitRows := by simp [normalized_limitRows]
  have hrows := seededFrom_fold json hempty hsub
  have hdecisions := SameLedger.foldl (f := seedDecision) (fun _ _ => ⟨rfl, rfl, rfl, rfl, rfl⟩)
    cfg.normalized.decisionRows (cfg.normalized.limitRows.foldl (seedRow json) empty)
  refine ⟨⟨?_, ?_, ?_, ?_⟩, ?_⟩
  · exact fun k row hk => hrows.1.limits k row (hdecisions.limits ▸ hk)
  · exact fun ruleID ts hk => hrows.1.templates ruleID ts (hdecisions.templates ▸ hk)
  · exact hdecisions.reservations.trans hrows.1.reservations
  · exact hdecisions.facts.trans hrows.1.facts
  · exact hdecisions.backing.trans hrows.2

lemma newStoreCore_wellBound (json : RowKeyCodec) (cfg : Config) :
    WellBound (newStoreCore json cfg) := by
  have h := (newStoreCore_seeded json cfg).1
  constructor <;> simp [h.reservations, h.facts]

/-- `c'` is sound and has every reservation of `c`, on its row and with what it reserved; what was
settled still is. -/
structure Keeps (c c' : StoreCore) : Prop where
  bound : WellBound c'
  kept : ∀ id rcd, c.reservations.lookup id = some rcd →
    ∃ rcd', c'.reservations.lookup id = some rcd' ∧ rcd'.limitRowKey = rcd.limitRowKey ∧
      rcd'.reservedAmount = rcd.reservedAmount ∧ (rcd.settled → rcd'.settled)

namespace Keeps

variable {c₀ : StoreCore} (h : Keeps c₀ c)
include h

lemma congr (hw : WellBound c') (hsame : c'.reservations = c.reservations) : Keeps c₀ c' :=
  ⟨hw, fun id rcd hr => hsame ▸ h.kept id rcd hr⟩

lemma moved (hw : WellBound c') (hm : Moved c c' rcd rcd' row row')
    (hsettled : rcd.settled → rcd'.settled) : Keeps c₀ c' := by
  refine ⟨hw, fun id first hfirst => ?_⟩
  obtain ⟨last, hlast, hrow, hamount, hset⟩ := h.kept id first hfirst
  rw [hm.rewrites.reservations, lookup_insert_eq]
  split_ifs with hid
  · cases (hid ▸ hlast).symm.trans hm.held
    exact ⟨rcd', rfl, hm.sameRow.trans hrow, hm.sameAmount.trans hamount, hsettled ∘ hset⟩
  · exact ⟨last, hlast, hrow, hamount, hset⟩

lemma reserve {cmd : ReserveCommand} (he : ReserveEffect json c cmd c') : Keeps c₀ c' := by
  refine ⟨he.wellBound h.bound, fun id rcd hrcd => ?_⟩
  obtain ⟨last, hlast, hkept⟩ := h.kept id rcd hrcd
  refine ⟨last, ?_, hkept⟩
  cases he with
  | idle => exact hlast
  | @granted c₁ row key one _ _ hfree hmatch _ _ hone _ =>
    obtain ⟨_, _, hr, -⟩ := recordReservation_rewrites c₁ one row key cmd.request
    rw [hr.reservations, lookup_insert_eq, if_neg, (matchLimitRow_effect hmatch).2.reservations, hlast]
    rintro rfl
    cases (hone ▸ hlast).symm.trans hfree

lemma step (cmd : Command) : Keeps c₀ (c.step json cmd) := by
  refine step_induct (g := ⟨fun _ _ => True, fun _ _ => True, fun _ _ => True, fun _ _ _ => True⟩)
    (Keeps c₀)
    (fun hsame h => h.congr (hsame.wellBound h.bound) hsame.reservations) (fun h _ => h.reserve)
    (fun h _ he => ?_)
    (fun h _ he => ?_) (fun h _ he => ?_) h ?_
  · rcases he.moved h.bound with rfl | ⟨_, _, _, _, hm, -, -, -, -, hset, -⟩
    · exact h
    · exact h.moved (he.wellBound h.bound) hm fun _ => hset
  · rcases he.moved h.bound with rfl | ⟨_, _, _, _, hm, -, -, -, -, -, -, -, hset, -⟩
    · exact h
    · exact h.moved (he.wellBound h.bound) hm (hset ▸ ·)
  · refine h.congr (he.wellBound h.bound) ?_
    cases he with
    | skipped hmatch => exact (matchLimitRow_effect hmatch).2.reservations
    | counted hmatch =>
      exact (recordUsage_reservations ..).trans (matchLimitRow_effect hmatch).2.reservations
  · cases cmd <;> exact fun _ => loopMeets_of_forall _ (fun _ _ => trivial) _ _

end Keeps

/-- Over every run, failed commands included, each reservation and each usage fact names a live row,
and no later command drops a reservation, moves it to another row, changes what it reserved or takes
its settlement back. -/
theorem reservations_permanent (json : RowKeyCodec) (cfg : Config) (before after : List Command) :
    let c := run (step json) (newStoreCore json cfg) before
    Keeps c (run (step json) c after) := by
  have hrun {c : StoreCore} (hw : WellBound c) (cmds : List Command) :
      Keeps c (run (step json) c cmds) :=
    List.foldlRecOn cmds _ ⟨hw, fun _ rcd hr => ⟨rcd, hr, rfl, rfl, id⟩⟩
      fun _ (h : Keeps c _) cmd _ => h.step cmd
  exact hrun (hrun (newStoreCore_wellBound json cfg) before).bound after

end InteractiveProxy.UsageAuthority
