import InteractiveProxy.GoText
import Mathlib.Data.List.Count
import Mathlib.Data.List.Sort

/-! The admission of one authority stage: the providers in the order of their classes, the holds
they grant on a compensation stack, and what is given back when one fails. What an allowed admission
still holds. -/
namespace InteractiveProxy.AuthorityCoord

open GoText List

inductive Strength
  | required
  | advisory
  | other (text : GoStr)
  deriving DecidableEq

inductive FailureBehavior
  | failClosed
  | failOpen
  | other (text : GoStr)
  deriving DecidableEq

inductive DecisionKind
  | unset
  | allow
  | deny
  | advisory
  | other (text : GoStr)
  deriving DecidableEq

/-- A provider's decision over clamps `κ`. Of a reservation only the handle matters here; `sound` is
the verdict of those checks of `ValidateFor` that read no hold (registration, stage, provider id,
readiness, amounts, clamps). -/
structure Decision (κ : Type) where
  kind : DecisionKind := .allow
  reservations : List GoStr := []
  clamps : List κ := []
  compensationHandle : GoStr := []
  sound : Bool := true
  deriving DecidableEq

/-- A slot, with the decision and the error its provider answers when asked (`none` for a nil
provider). -/
structure Slot (κ : Type) where
  id : GoStr
  classOrd : ℤ := 0
  strength : Option Strength := none
  failBeh : Option FailureBehavior := none
  advisoryClassOrd : ℤ := 4
  answer : Option (Decision κ × Option GoStr)
  deriving DecidableEq

/-- Whose hold an entry releases: the concurrency lease's, or that of the slot asked at this turn.
-/
inductive Holder
  | lease
  | slot (turn : ℕ)
  deriving DecidableEq

structure StackEntry where
  holder : Holder
  providerID : GoStr
  handle : GoStr
  deriving DecidableEq

structure CompensateFailed where
  providerID : GoStr
  handle : GoStr
  err : GoStr
  deriving DecidableEq

/-- The composite decision while it is built; `compensated` lists the compensators called, in order.
-/
structure CompositeDecision (κ : Type) where
  kind : DecisionKind := .allow
  clamps : List κ := []
  stack : List StackEntry
  compensateFailures : List CompensateFailed := []
  deniedBy : GoStr := []
  compensated : List StackEntry := []
  deriving DecidableEq

inductive DecisionError
  | nonAllowWithHolds
  | invalid
  deriving DecidableEq

inductive StageError (κ : Type)
  | unavailable (providerID : GoStr) (err : GoStr ⊕ DecisionError) (d : Decision κ)
  | denied (providerID : GoStr) (d : Decision κ)
  | clamps (providerID : GoStr)
  deriving DecidableEq

variable {κ : Type}

namespace Decision

variable (d : Decision κ)

def hasHolds : Bool := d.reservations ≠ [] || trimSpace d.compensationHandle ≠ []

/-- The handles `pushRequestDecisionHolds` and `pushAttemptDecisionHolds` push. -/
def pushed : List GoStr :=
  d.reservations.filterMap fun r =>
    let handle := if trimSpace r = [] then trimSpace d.compensationHandle else trimSpace r
    if handle = [] then none else some handle

def validateFor : Bool :=
  d.sound && (trimSpace d.compensationHandle = [] || d.reservations ≠ []) &&
    (match d.kind with
      | .deny | .advisory => !d.hasHolds
      | .allow | .unset => true
      | .other _ => false) &&
    d.reservations.all (trimSpace · ≠ []) && (d.reservations.map trimSpace).Nodup

/-- Every handle the decision names. -/
def holds : List GoStr :=
  (d.reservations.map trimSpace ++ [trimSpace d.compensationHandle]).filter (· ≠ [])

end Decision

def validateCoordinatorDecision (d : Decision κ) : Option DecisionError :=
  if d.hasHolds ∧ (d.kind = .deny ∨ d.kind = .advisory) then some .nonAllowWithHolds
  else if d.validateFor then none else some .invalid

variable (slot : Slot κ)

def Slot.resolveStagePosture : Strength × FailureBehavior :=
  let strength :=
    slot.strength.getD (if slot.classOrd = slot.advisoryClassOrd then .advisory else .required)
  (strength, slot.failBeh.getD (if strength = .advisory then .failOpen else .failClosed))

def sortStageSlots (slots : List (Slot κ)) : List (Slot κ) :=
  slots.insertionSort fun a b => a.classOrd < b.classOrd ∨ a.classOrd = b.classOrd ∧ a.id ≤ b.id

structure LeaseDecision where
  leaseID : GoStr
  leases : List GoStr

def leaseIDsFromDecision (ld : LeaseDecision) : List GoStr :=
  let out := ((ld.leases.map trimSpace).filter (· ≠ [])).eraseDups
  if out ≠ [] then out else [trimSpace ld.leaseID].filter (· ≠ [])

def pushLeaseDecisionHolds (ld : LeaseDecision) : List StackEntry :=
  (leaseIDsFromDecision ld).map (⟨.lease, lit "concurrency", ·⟩)

section Admit

-- what the n-th compensator call answers, and `mergeClampsNonWidening`
variable (failing : ℕ → Option GoStr) (mergeClamps : List κ → List κ → Option (List κ))

def reverseCompensate (entries : List StackEntry) (out : CompositeDecision κ) :
    CompositeDecision κ :=
  entries.reverse.foldl (fun out e =>
    { out with
      compensated := out.compensated ++ [e]
      compensateFailures := out.compensateFailures ++
        ((failing out.compensated.length).map fun err => ⟨e.providerID, e.handle, err⟩).toList }) out

@[simp] def compensateCurrentThenPrior (claimed : List StackEntry) (out : CompositeDecision κ) :
    CompositeDecision κ :=
  reverseCompensate failing out.stack (reverseCompensate failing claimed out)

def Slot.pushHolds (slot : Slot κ) (turn : ℕ) (d : Decision κ) : List StackEntry :=
  d.pushed.map (⟨.slot turn, trimSpace slot.id, ·⟩)

/-- The body of the loop of `runStageAdmit`. -/
def admitSlot (turn : ℕ) (slot : Slot κ) (out : CompositeDecision κ) :
    CompositeDecision κ × Option (StageError κ) :=
  let id := trimSpace slot.id
  let posture := slot.resolveStagePosture
  let deny (claimed : List StackEntry) : CompositeDecision κ :=
    { compensateCurrentThenPrior failing claimed out with kind := .deny, deniedBy := id }
  match slot.answer with
  | none => (out, none)
  | some (d, some err) =>
    if posture.1 = .advisory ∨ posture.2 = .failOpen then
      (compensateCurrentThenPrior failing (slot.pushHolds turn d) out, none)
    else (deny (slot.pushHolds turn d), some (.unavailable id (.inl err) d))
  | some (d, none) =>
    let claimed := if d.hasHolds then slot.pushHolds turn d else []
    match validateCoordinatorDecision d with
    | some err =>
      if posture.1 = .advisory then (reverseCompensate failing claimed out, none)
      else if err = .nonAllowWithHolds ∧ d.kind = .deny then (deny claimed, some (.denied id d))
      else (deny claimed, some (.unavailable id (.inr err) d))
    | none =>
      match mergeClamps out.clamps d.clamps with
      | none => (deny (slot.pushHolds turn d), some (.clamps id))
      | some clamps =>
        match d.kind with
        | .deny =>
          if posture.1 = .advisory then ({ out with clamps }, none)
          else ({ deny claimed with clamps }, some (.denied id d))
        | .allow | .advisory | .unset => ({ out with clamps, stack := out.stack ++ slot.pushHolds turn d }, none)
        | .other _ => ({ out with clamps }, none)

def admitSlots :
    List (Slot κ) → ℕ → CompositeDecision κ → CompositeDecision κ × Option (StageError κ)
  | [], _, out => (out, none)
  | slot :: slots, turn, out =>
    match admitSlot failing mergeClamps turn slot out with
    | (out, some err) => (out, some err)
    | (out, none) => admitSlots slots (turn + 1) out

def runStageAdmit (prior : List StackEntry) (slots : List (Slot κ)) :
    CompositeDecision κ × Option (StageError κ) :=
  admitSlots failing mergeClamps (sortStageSlots slots) 0 { stack := prior }

end Admit

namespace Slot

/-- The provider fails and the posture of its slot lets the admission go on. -/
def failsLeniently : Bool :=
  match slot.answer with
  | some (_, some _) => slot.resolveStagePosture.1 = .advisory ∨
    slot.resolveStagePosture.2 = .failOpen
  | _ => false

/-- The decision the coordinator accepts from the slot. -/
@[simp] def accepted : Option (Decision κ) :=
  match slot.answer with
  | some (d, none) => if validateCoordinatorDecision d = none ∧ d.kind ≠ .deny then some d else none
  | _ => none

def granted : List GoStr := (slot.accepted.map Decision.pushed).getD []

end Slot

variable {failing : ℕ → Option GoStr} {mergeClamps : List κ → List κ → Option (List κ)}
  {slot : Slot κ}
  {slots : List (Slot κ)} {turn : ℕ} {out out' : CompositeDecision κ} {d : Decision κ}
  {e : StackEntry}

variable (failing) in
lemma reverseCompensate_spec (entries : List StackEntry) (out : CompositeDecision κ) :
    (reverseCompensate failing entries out).stack = out.stack ∧
      (reverseCompensate failing entries out).compensated = out.compensated ++ entries.reverse := by
  unfold reverseCompensate
  induction entries.reverse generalizing out with
  | nil => simp
  | cons e rest ih => simp [ih]

/-- A slot after which the admission goes on: it pushes what it granted, and compensates holds of
its own or, if it failed leniently, the whole stack below it too. -/
structure SlotEffect (turn : ℕ) (slot : Slot κ) (out out' : CompositeDecision κ)
    (own : List StackEntry) : Prop where
  stack : out'.stack = out.stack ++ slot.granted.map (⟨.slot turn, trimSpace slot.id, ·⟩)
  compensated : out'.compensated = out.compensated ++ own ++ if slot.failsLeniently then
    out.stack.reverse else []
  owned : ∀ e ∈ own, e.holder = .slot turn
  lost : slot.failsLeniently ∨ own ≠ [] → slot.granted = []

lemma holder_of_mem_pushHolds (h : e ∈ slot.pushHolds turn d) : e.holder = .slot turn := by
  obtain ⟨_, -, rfl⟩ := mem_map.mp h
  rfl

lemma admitSlot_effect_of_decision (ha : slot.answer = some (d, none))
    (h : admitSlot failing mergeClamps turn slot out = (out', none)) :
    ∃ own, SlotEffect turn slot out out' own := by
  have hno : slot.failsLeniently = false := by simp [Slot.failsLeniently, ha]
  simp only [admitSlot, ha] at h
  rcases hv : validateCoordinatorDecision d with _ | err <;> simp only [hv] at h
  · have hacc : slot.accepted = if d.kind ≠ .deny then some d else none := by simp [ha, hv]
    rcases hm : mergeClamps out.clamps d.clamps with _ | clamps <;> simp only [hm] at h
    · simp at h
    obtain ⟨hstack, hcomp⟩ :
        out'.stack = out.stack ++ (if d.kind ≠ .deny then slot.pushHolds turn d else []) ∧
        out'.compensated = out.compensated := by
      cases hk : d.kind with
      | deny =>
        simp only [hk] at h
        split_ifs at h
        · obtain rfl := (Prod.mk.inj h).1
          simp
        all_goals simp at h
      | other text => simp [validateCoordinatorDecision, Decision.validateFor, hk] at hv
      | unset | allow | advisory =>
        simp only [hk] at h
        obtain rfl := (Prod.mk.inj h).1
        simp
    refine ⟨[], ?_, by simp [hcomp, hno], by simp, by simp [hno]⟩
    rw [hstack, Slot.granted, hacc]
    split_ifs <;> simp [Slot.pushHolds]
  · have hgranted : slot.granted = [] := by simp [Slot.granted, ha, hv]
    have hown : ∀ e ∈ if d.hasHolds then slot.pushHolds turn d else [], e.holder = .slot turn := by
      split_ifs
      · exact fun e => holder_of_mem_pushHolds
      · simp
    generalize (if d.hasHolds then slot.pushHolds turn d else []) = claimed at h hown
    by_cases hadvisory : slot.resolveStagePosture.1 = .advisory
    · obtain rfl : reverseCompensate failing claimed out = out' := by simpa [hadvisory] using h
      obtain ⟨hstack, hcomp⟩ := reverseCompensate_spec failing claimed out
      exact ⟨claimed.reverse, by simp [hstack, hgranted], by simp [hcomp, hno], by simpa using hown, fun _ => hgranted⟩
    · split_ifs at h <;> simp at h

lemma admitSlot_effect (h : admitSlot failing mergeClamps turn slot out = (out', none)) :
    ∃ own, SlotEffect turn slot out out' own := by
  rcases ha : slot.answer with _ | ⟨d, _ | err⟩
  · obtain rfl : out = out' := by simpa [admitSlot, ha] using h
    have hno : slot.failsLeniently = false := by simp [Slot.failsLeniently, ha]
    exact ⟨[], by simp [Slot.granted, ha], by simp [hno], by simp, by simp [hno]⟩
  · exact admitSlot_effect_of_decision ha h
  · have hgranted : slot.granted = [] := by simp [Slot.granted, ha]
    simp only [admitSlot, ha] at h
    split_ifs at h with hlenient
    · obtain rfl := (Prod.mk.inj h).1
      have hyes : slot.failsLeniently := by simpa [Slot.failsLeniently, ha] using hlenient
      obtain ⟨hown, hcomp⟩ := reverseCompensate_spec failing (slot.pushHolds turn d) out
      obtain ⟨hstack, hall⟩ := reverseCompensate_spec failing out.stack
        (reverseCompensate failing (slot.pushHolds turn d) out)
      refine ⟨(slot.pushHolds turn d).reverse, ?_, ?_, ?_, fun _ => hgranted⟩
      · simp [hstack, hown, hgranted]
      · simp [hall, hcomp, hyes]
      · exact fun e he => holder_of_mem_pushHolds (mem_reverse.mp he)
    · simp at h

/-- Only slots asked before this turn have pushed or been compensated. -/
structure Past (turn : ℕ) (out : CompositeDecision κ) : Prop where
  stack : ∀ e ∈ out.stack, ∀ k, e.holder = .slot k → k < turn
  compensated : ∀ e ∈ out.compensated, ∀ k, e.holder = .slot k → k < turn

/-- Nothing on the stack has been compensated. -/
def Kept (out : CompositeDecision κ) : Prop := ∀ e ∈ out.stack, e ∉ out.compensated

namespace SlotEffect

variable {own : List StackEntry} (h : SlotEffect turn slot out out' own) (hp : Past turn out)
include h hp

lemma past : Past (turn + 1) out' := by
  constructor <;> intro e he k hk
  · rw [h.stack, mem_append, mem_map] at he
    rcases he with he | ⟨_, -, rfl⟩
    · exact Nat.lt_succ_of_lt (hp.stack e he k hk)
    · cases hk
      omega
  · rw [h.compensated, mem_append, mem_append] at he
    rcases he with (he | he) | he
    · exact Nat.lt_succ_of_lt (hp.compensated e he k hk)
    · cases (h.owned e he).symm.trans hk
      omega
    · split_ifs at he
      · exact Nat.lt_succ_of_lt (hp.stack e (mem_reverse.mp he) k hk)
      · simp at he

lemma kept_iff : Kept out' ↔ Kept out ∧ (slot.failsLeniently → out.stack = []) := by
  unfold Kept
  rw [h.stack, h.compensated]
  constructor
  · intro hk
    refine ⟨fun e he hmem => hk e (by simp [he]) (by simp [hmem]), fun hlenient => ?_⟩
    refine eq_nil_iff_forall_not_mem.mpr fun e he => hk e (by simp [he]) ?_
    simp [hlenient, he]
  · rintro ⟨hk, hempty⟩ e he hmem
    rw [mem_append, mem_map] at he
    rcases he with he | ⟨handle, hgranted, rfl⟩
    · simp only [mem_append] at hmem
      rcases hmem with (hmem | hmem) | hmem
      · exact hk e he hmem
      · exact (hp.stack e he turn (h.owned e hmem)).false
      · split_ifs at hmem with hlenient
        · simp [hempty hlenient] at he
        · simp at hmem
    · have hlost : ¬ (slot.failsLeniently ∨ own ≠ []) :=
        fun hwhy => by simp [h.lost hwhy] at hgranted
      simp only [mem_append] at hmem
      rcases hmem with (hmem | hmem) | hmem
      · exact (hp.compensated _ hmem turn rfl).false
      · exact hlost (.inr (ne_nil_of_mem hmem))
      · split_ifs at hmem with hlenient
        · exact hlost (.inl hlenient)
        · simp at hmem

end SlotEffect

/-- The admission goes on after its first slot. -/
lemma admitSlots_cons (h : admitSlots failing mergeClamps (slot :: slots) turn out = (out', none)) :
    ∃ next own, SlotEffect turn slot out next own ∧
      admitSlots failing mergeClamps slots (turn + 1) next = (out', none) := by
  rcases hs : admitSlot failing mergeClamps turn slot out with ⟨next, _ | err⟩ <;>
    simp only [admitSlots, hs] at h
  · obtain ⟨own, he⟩ := admitSlot_effect hs
    exact ⟨next, own, he, h⟩
  · simp at h

/-- An admission that goes through keeps its holds exactly if no lenient failure finds any on the
stack. -/
lemma admitSlots_kept_iff (hp : Past turn out)
    (h : admitSlots failing mergeClamps slots turn out = (out', none)) :
    Kept out' ↔ Kept out ∧ (∀ slot ∈ slots, slot.failsLeniently → out.stack = []) ∧
      slots.Pairwise fun earlier slot => slot.failsLeniently = true → earlier.granted = [] := by
  induction slots generalizing turn out with
  | nil =>
    obtain rfl : out = out' := by simpa [admitSlots] using h
    simp
  | cons slot slots ih =>
    obtain ⟨next, own, he, hrest⟩ := admitSlots_cons h
    rw [ih (he.past hp) hrest, he.kept_iff hp, he.stack]
    simp only [append_eq_nil_iff, map_eq_nil_iff, forall_mem_cons, pairwise_cons]
    constructor
    · rintro ⟨⟨hk, hslot⟩, hrest, hpair⟩
      exact ⟨hk, ⟨hslot, fun s hs hl => (hrest s hs hl).1⟩, fun s hs hl => (hrest s hs hl).2, hpair⟩
    · rintro ⟨hk, ⟨hslot, hrest⟩, hgranted, hpair⟩
      exact ⟨⟨hk, hslot⟩, fun s hs hl => ⟨hrest s hs hl, hgranted s hs hl⟩, hpair⟩

/-- What the slots asked from this turn on leave on the stack. -/
def grantedFrom : List (Slot κ) → ℕ → List StackEntry
  | [], _ => []
  | slot :: slots, turn =>
    slot.granted.map (⟨.slot turn, trimSpace slot.id, ·⟩) ++ grantedFrom slots (turn + 1)

lemma admitSlots_stack (h : admitSlots failing mergeClamps slots turn out = (out', none)) :
    out'.stack = out.stack ++ grantedFrom slots turn := by
  induction slots generalizing turn out with
  | nil =>
    obtain rfl : out = out' := by simpa [admitSlots] using h
    simp [grantedFrom]
  | cons slot slots ih =>
    obtain ⟨next, own, he, hrest⟩ := admitSlots_cons h
    rw [ih hrest, he.stack, grantedFrom, append_assoc]

lemma grantedFrom_later (h : e ∈ grantedFrom slots turn) : ∃ k, turn ≤ k ∧ e.holder = .slot k := by
  induction slots generalizing turn with
  | nil => simp [grantedFrom] at h
  | cons slot slots ih =>
    rcases mem_append.mp h with h | h
    · obtain ⟨_, -, rfl⟩ := mem_map.mp h
      exact ⟨turn, le_rfl, rfl⟩
    · obtain ⟨k, hk, hholder⟩ := ih h
      exact ⟨k, by omega, hholder⟩

variable (turn) in
lemma count_grantedFrom {k : ℕ} (handle : GoStr) (h : slots[k]? = some slot) :
    (grantedFrom slots turn).count ⟨.slot (turn + k), trimSpace slot.id, handle⟩ =
    slot.granted.count handle := by
  induction slots generalizing turn k with
  | nil => simp at h
  | cons first slots ih =>
    rw [grantedFrom, count_append]
    cases k with
    | zero =>
      obtain rfl : first = slot := by simpa using h
      have hlater : (grantedFrom slots (turn + 1)).count ⟨.slot (turn + 0), trimSpace first.id, handle⟩ = 0 := by
        refine count_eq_zero.mpr fun hmem => ?_
        obtain ⟨k, hk, hholder⟩ := grantedFrom_later hmem
        cases hholder
        omega
      rw [hlater]
      exact count_map_of_injective _ _ (fun a b hab => by simpa using hab) _
    | succ k =>
      have hfirst : ∀ ids :
          List GoStr, (ids.map fun x => (⟨.slot turn, trimSpace first.id, x⟩ : StackEntry)).count
          ⟨.slot (turn + (k + 1)), trimSpace slot.id, handle⟩ = 0 := by
        simp [count_eq_zero]
      rw [hfirst, Nat.zero_add, ← ih _ (by simpa using h)]
      congr 3
      omega

lemma pushed_of_accepted (h : slot.accepted = some d) :
    slot.granted = d.reservations.map trimSpace ∧ (d.reservations.map trimSpace).Nodup ∧
      ∀ r ∈ d.reservations, trimSpace r ≠ [] := by
  have hvalid : d.validateFor := by
    simp only [Slot.accepted] at h
    split at h
    · split_ifs at h with hv
      cases h
      have hnone := hv.1
      simp only [validateCoordinatorDecision] at hnone
      split_ifs at hnone with _ hvalid
      exact hvalid
    · cases h
  simp only [Decision.validateFor, Bool.and_eq_true, decide_eq_true_eq, all_eq_true] at hvalid
  obtain ⟨⟨-, hnonempty⟩, hnodup⟩ := hvalid
  refine ⟨?_, hnodup, hnonempty⟩
  rw [Slot.granted, h, Option.map_some, ← filterMap_eq_map]
  refine filterMap_congr fun r hr => ?_
  simp [hnonempty r hr]

/-- The compensation handle, if any, is one of the reservations'. -/
def Decision.Covered (d : Decision κ) : Prop :=
  trimSpace d.compensationHandle = [] ∨
    trimSpace d.compensationHandle ∈ d.reservations.map trimSpace
  deriving Decidable

lemma holds_once_iff (h : slot.accepted = some d) :
    (∀ handle ∈ d.holds, slot.granted.count handle = 1) ↔ d.Covered := by
  obtain ⟨hpushed, hnodup, hnonempty⟩ := pushed_of_accepted h
  rw [hpushed, Decision.holds]
  constructor
  · intro hall
    refine or_iff_not_imp_left.mpr fun hne => ?_
    rw [← count_pos_iff, hall _ (by simp [hne])]
    exact Nat.one_pos
  · rintro hcovered handle hmem
    refine count_eq_one_of_mem hnodup ?_
    obtain ⟨hmem, hne⟩ := mem_filter.mp hmem
    rcases mem_append.mp hmem with hmem | hmem
    · exact hmem
    · obtain rfl := mem_singleton.mp hmem
      exact hcovered.resolve_left (by simpa using hne)

/-- Whenever a provider fails leniently nothing is on the stack: no lease came before, and no
earlier slot was granted a hold. Every accepted decision names its compensation handle among its
reservations. -/
def HoldsSafe (lease : Option LeaseDecision) (slots : List (Slot κ)) : Prop :=
  (∀ slot ∈ slots, slot.failsLeniently → lease.toList.flatMap leaseIDsFromDecision = []) ∧
    slots.Pairwise (fun earlier slot => slot.failsLeniently = true → earlier.granted = []) ∧
    ∀ slot ∈ slots, ∀ d ∈ slot.accepted, d.Covered

instance (lease : Option LeaseDecision) (slots : List (Slot κ)) :
    Decidable (HoldsSafe lease slots) :=
  inferInstanceAs (Decidable (_ ∧ _ ∧ _))

/-- An allowed admission keeps every hold, once each, just when no provider fails leniently behind a
hold and each compensation handle that is accepted is a reservation's. -/
theorem allowed_admission_holds_iff (lease : Option LeaseDecision) (slots : List (Slot κ))
    (hrun : runStageAdmit failing mergeClamps (lease.toList.flatMap pushLeaseDecisionHolds) slots = (out, none))
    (_hallow : out.kind = .allow) :
    ((∀ e ∈ out.stack, e ∉ out.compensated) ∧
      ∀ turn slot d, (sortStageSlots slots)[turn]? = some slot → slot.accepted = some d →
        ∀ handle ∈ d.holds, out.stack.count ⟨.slot turn, trimSpace slot.id, handle⟩ = 1) ↔
      HoldsSafe lease (sortStageSlots slots) := by
  have hlease : ∀ e ∈ lease.toList.flatMap pushLeaseDecisionHolds, e.holder = .lease := by
    intro e he
    obtain ⟨ld, -, he⟩ := mem_flatMap.mp he
    obtain ⟨_, -, rfl⟩ := mem_map.mp he
    rfl
  have hnone : lease.toList.flatMap pushLeaseDecisionHolds = [] ↔
      lease.toList.flatMap leaseIDsFromDecision = [] := by
    simp [pushLeaseDecisionHolds]
  have hcount : ∀ turn slot handle, (sortStageSlots slots)[turn]? = some slot →
      out.stack.count ⟨.slot turn, trimSpace slot.id, handle⟩ = slot.granted.count handle := by
    intro turn slot handle hslot
    have hgranted := count_grantedFrom 0 handle hslot
    rw [Nat.zero_add] at hgranted
    have hprior : (lease.toList.flatMap pushLeaseDecisionHolds).count ⟨.slot turn, trimSpace slot.id, handle⟩ = 0 :=
      count_eq_zero.mpr fun hmem => by simpa using hlease _ hmem
    rw [admitSlots_stack hrun, count_append, hgranted, hprior, Nat.zero_add]
  have hpast : Past 0 (⟨.allow, [], lease.toList.flatMap pushLeaseDecisionHolds, [], [], []⟩ : CompositeDecision κ) :=
    ⟨fun e he k hk => (nomatch (hlease e he).symm.trans hk), by simp⟩
  have hkept := admitSlots_kept_iff hpast hrun
  unfold HoldsSafe
  rw [← and_assoc, ← hnone]
  refine and_congr ⟨fun h => (hkept.mp h).2, fun h => hkept.mpr ⟨by simp [Kept], h⟩⟩ ?_
  constructor
  · intro h slot hmem d haccepted
    obtain ⟨turn, hslot⟩ := mem_iff_getElem?.mp hmem
    refine (holds_once_iff haccepted).mp fun handle hhandle => ?_
    rw [← hcount turn slot handle hslot]
    exact h turn slot d hslot haccepted handle hhandle
  · intro h turn slot d hslot haccepted handle hhandle
    rw [hcount turn slot handle hslot]
    exact (holds_once_iff haccepted).mpr (h slot (mem_of_getElem? hslot) d haccepted) handle hhandle

def quota : Slot ℕ :=
  { id := lit "quota", classOrd := 3, answer := some ({ reservations := [lit "r1"] }, none) }

/-- A provider that fails open loses its own hold before the quota provider grants one. -/
def hintsThenQuota : List (Slot ℕ) :=
  [quota, { id := lit "hints", classOrd := 2, failBeh := some .failOpen,
            answer := some ({ reservations := [lit "h1"] }, some (lit "timeout")) }]

theorem allowed_admission_holds_quota :
    ∃ out, runStageAdmit (fun _ => none) (fun a b => some (a ++ b))
    [] hintsThenQuota = (out, none) ∧
      out.stack ≠ [] ∧ out.compensated ≠ [] ∧ ∀ e ∈ out.stack, e ∉ out.compensated :=
  ⟨{ stack := [⟨.slot 1, lit "quota", lit "r1"⟩], compensated := [⟨.slot 0, lit "hints", lit "h1"⟩] },
    by decide +kernel, by simp, by simp,
      ((@allowed_admission_holds_iff ℕ (fun _ => none) (fun a b => some (a ++ b)) _
      none hintsThenQuota (by decide +kernel) rfl).mpr (by decide +kernel)).1⟩

/-- The quota provider grants a hold; the advisory provider after it fails. -/
def quotaThenHints : List (Slot ℕ) :=
  [{ id := lit "hints", classOrd := 4, answer := some ({}, some (lit "timeout")) }, quota]

theorem allowed_admission_compensated :
    ∃ out, runStageAdmit (fun _ => none) (fun a b => some (a ++ b))
      [] quotaThenHints = (out, none) ∧ out.kind = .allow ∧ ∃ e ∈ out.stack, e ∈ out.compensated :=
  ⟨{ stack := [⟨.slot 0, lit "quota", lit "r1"⟩], compensated := [⟨.slot 0, lit "quota", lit "r1"⟩] },
    by decide +kernel, rfl, _, mem_singleton_self _, mem_singleton_self _⟩

/-- The provider of `slot`, asked when `held` was on the stack, has refused: its pushed holds are
compensated, then those on the stack, the last first. -/
structure Refused (held : List StackEntry) (turn : ℕ) (slot : Slot κ) (out : CompositeDecision κ) :
    Prop where
  kind : out.kind = .deny
  deniedBy : out.deniedBy = trimSpace slot.id
  stack : out.stack = held
  compensated : ∃ d earlier, slot.answer.map Prod.fst = some d ∧
    out.compensated = earlier ++ (held ++ slot.pushHolds turn d).reverse

variable {err : StageError κ}

lemma admitSlot_refuses (h : admitSlot failing mergeClamps turn slot out = (out', some err)) :
    Refused out.stack turn slot out' := by
  have hclaimed (d : Decision κ) :
      (if d.hasHolds then slot.pushHolds turn d else []) = slot.pushHolds turn d := by
    split_ifs with hholds
    · rfl
    · simp_all [Decision.hasHolds, Slot.pushHolds, Decision.pushed]
  have hdeny (d : Decision κ) (ha : slot.answer.map Prod.fst = some d) (clamps : List κ) :
      Refused out.stack turn slot
      { compensateCurrentThenPrior failing (slot.pushHolds turn d) out with
        kind := .deny, deniedBy := trimSpace slot.id, clamps } :=
    ⟨rfl, rfl, by simp [reverseCompensate_spec], d, out.compensated, ha, by simp [reverseCompensate_spec]⟩
  rcases ha : slot.answer with _ | ⟨d, _ | e⟩ <;> simp only [admitSlot, ha, hclaimed] at h
  · simp at h
  all_goals
    repeat' split at h
    all_goals simp at h
    all_goals
      obtain ⟨rfl, -⟩ := h
      exact hdeny d (by rw [ha]; rfl) _

lemma admitSlots_refuses (h : admitSlots failing mergeClamps slots turn out = (out', some err)) :
    ∃ k slot, slots[k]? = some slot ∧ Refused (out.stack ++ grantedFrom (slots.take k) turn)
    (turn + k) slot out' := by
  induction slots generalizing turn out with
  | nil => simp [admitSlots] at h
  | cons slot slots ih =>
    rcases hs : admitSlot failing mergeClamps turn slot out with ⟨next, _ | e⟩ <;>
      simp only [admitSlots, hs] at h
    · obtain ⟨own, he⟩ := admitSlot_effect hs
      obtain ⟨k, last, hlast, hrefused⟩ := ih h
      rw [he.stack, append_assoc, Nat.add_right_comm] at hrefused
      exact ⟨k + 1, last, hlast, hrefused⟩
    · cases h
      exact ⟨0, slot, rfl, by simpa [grantedFrom] using admitSlot_refuses hs⟩

/-- Whatever the providers and the compensators answer, an admission that does not go through is
denied in the name of one provider and compensates what the lease, the providers before that one and
it itself have pushed. -/
theorem refused_admission_released (lease : Option LeaseDecision) (slots : List (Slot κ)) :
    let prior := lease.toList.flatMap pushLeaseDecisionHolds
    let admission := runStageAdmit failing mergeClamps prior slots
    admission.2 = none ∨ ∃ turn slot, (sortStageSlots slots)[turn]? = some slot ∧
      Refused (prior ++ grantedFrom ((sortStageSlots slots).take turn) 0) turn slot admission.1 := by
  intro prior admission
  rcases hrun : admission with ⟨out, _ | err⟩
  · exact .inl rfl
  · obtain ⟨turn, slot, hslot, hrefused⟩ := admitSlots_refuses hrun
    rw [Nat.zero_add] at hrefused
    exact .inr ⟨turn, slot, hslot, hrefused⟩

end InteractiveProxy.AuthorityCoord
