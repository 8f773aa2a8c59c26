import InteractiveProxy.GoText
import InteractiveProxy.GuardedRun
import InteractiveProxy.KeyedTable

/-! The tracker of runtime-generation pins. A work id owns at most one pin and one clear handle;
adoptions reserve the id, so that none of them publishes after the work has ended. What a call gives
up it releases when it has left the tracker's lock, so that other calls come in between. -/
namespace InteractiveProxy.GenerationPins

open GoText GuardedRun KeyedTable

variable {ρ : Type}

structure Ownership (ρ : Type) where
  pin : Option ρ
  clearExec : Option ρ

def Ownership.resources (o : Ownership ρ) : List ρ := o.pin.toList ++ o.clearExec.toList

structure Slot (ρ : Type) where
  reservations : ℕ := 0
  terminal : Bool := false
  ownership : Option (Ownership ρ) := none

def Slot.resources (e : Slot ρ) : List ρ := e.ownership.elim [] Ownership.resources

abbrev Tracker (ρ : Type) := Table GoStr (Slot ρ)

structure AdoptionToken where
  workID : GoStr := []
  ended : Bool := false

def AdoptionToken.valid (tok : AdoptionToken) : Bool := tok.workID ≠ [] && !tok.ended

inductive Binding (ρ : Type)
  | panics
  | returns (release : Option ρ) (created : Bool)

def Binding.clearExec : Binding ρ → Option ρ
  | .panics => none
  | .returns release created => if created then release else none

def Binding.panicked : Binding ρ → Bool
  | .panics => true
  | .returns .. => false

namespace Tracker

variable (t : Tracker ρ) (workID : GoStr)

def slotAt : Slot ρ := (t.lookup workID).getD {}

def maybeDelete (e : Slot ρ) : Tracker ρ :=
  if e.reservations = 0 ∧ e.ownership.isNone = true then t.erase workID else t.insert workID e

def own (o : Ownership ρ) : Tracker ρ :=
  t.insert workID { t.slotAt workID with ownership := some o }

def beginAdoption : Tracker ρ × AdoptionToken :=
  if workID = [] then (t, {})
  else
    (t.insert workID { t.slotAt workID with reservations := (t.slotAt workID).reservations + 1 }, { workID })

def vacant : Bool :=
  match t.lookup workID with
  | none => false
  | some e => !e.terminal && e.ownership.isNone

def publishBound (tok : AdoptionToken) (pin : Option ρ) (bind : Option (Binding ρ)) :
    Tracker ρ × Bool × List ρ :=
  if tok.valid = false then (t, false, pin.toList)
  else if t.vacant tok.workID = false then (t, false, pin.toList)
  else if bind.any Binding.panicked then (t, false, pin.toList)
  else
    let clearExec := bind.bind Binding.clearExec
    if pin.isNone ∧ clearExec.isNone then (t, false, [])
    else (t.own tok.workID ⟨pin, clearExec⟩, true, [])

def publish (tok : AdoptionToken) (pin clearExec : Option ρ) : Tracker ρ × Bool × List ρ :=
  if tok.valid = false then (t, false, pin.toList ++ clearExec.toList)
  else if pin.isNone ∧ clearExec.isNone then (t, false, [])
  else if t.vacant tok.workID = false then (t, false, pin.toList ++ clearExec.toList)
  else (t.own tok.workID ⟨pin, clearExec⟩, true, [])

def endToken (tok : AdoptionToken) : Tracker ρ × AdoptionToken :=
  if tok.valid = false then (t, tok)
  else
    match t.lookup tok.workID with
    | none => (t, { tok with ended := true })
    | some e => (t.maybeDelete tok.workID { e with reservations := e.reservations - 1 }, { tok with ended := true })

def markTerminal : Tracker ρ × List ρ :=
  if workID = [] then (t, [])
  else
    match t.lookup workID with
    | none => (t, [])
    | some e =>
      (if e.reservations = 0 then t.erase workID else t.insert workID { e with terminal := true, ownership := none },
        e.resources)

def hold (pin clearExec : Option ρ) : Tracker ρ × Bool :=
  if workID = [] ∨ pin.isNone ∧ clearExec.isNone then (t, false)
  else if (t.slotAt workID).terminal = true ∨ (t.slotAt workID).ownership.isSome = true then
    (t, false)
  else (t.own workID ⟨pin, clearExec⟩, true)

def adoptHold (pin clearExec : Option ρ) : Tracker ρ × Bool × List ρ :=
  if workID = [] ∨ pin.isNone ∧ clearExec.isNone then (t, false, pin.toList ++ clearExec.toList)
  else
    match t.hold workID pin clearExec with
    | (t, true) => (t, true, [])
    | (t, false) => (t, false, pin.toList ++ clearExec.toList)

def release : Tracker ρ × List ρ :=
  if workID = [] then (t, [])
  else
    match t.lookup workID with
    | none => (t, [])
    | some e =>
      if e.ownership.isSome then (t.maybeDelete workID { e with ownership := none }, e.resources)
      else (t, [])

end Tracker

inductive ResourceKind
  | pin
  | clearExec
  deriving DecidableEq

structure Resource where
  serial : ℕ
  workID : GoStr
  kind : ResourceKind
  deriving DecidableEq

/-- A token that was given out, with what is no part of the program: whether `End` was called on it,
and whether its work was marked terminal since. -/
structure Adopter where
  token : AdoptionToken
  ended : Bool := false
  outlived : Bool := false

/-- A token that was begun for a work id and on which `End` was not called. -/
def Adopter.live (a : Adopter) : Bool := a.token.workID ≠ [] && !a.ended

/-- The tracker and the tokens, with what was handed over so far, what calls in progress have still
to release, and what was released. -/
structure System where
  tracker : Tracker Resource := ∅
  tokens : List Adopter := []
  serial : ℕ := 0
  handed : List Resource := []
  pending : List Resource := []
  released : List Resource := []

inductive BindResult
  | panics
  | returns (release created : Bool)

/-- Calls up to the end of their locked part, with `unwind` for a release that one of them makes
afterwards. Tokens go by the order in which they were begun. -/
inductive Op
  | beginAdoption (workID : GoStr)
  | publish (k : ℕ) (pin clearExec : Bool)
  | publishBound (k : ℕ) (pin : Bool) (bind : Option BindResult)
  | endToken (k : ℕ)
  | adoptHold (workID : GoStr) (pin clearExec : Bool)
  | markTerminal (workID : GoStr)
  | release (workID : GoStr)
  | unwind (k : ℕ)

namespace System

def offer (s : System) (workID : GoStr) (kind : ResourceKind) (given : Bool) : Option Resource :=
  if given then some ⟨s.serial, workID, kind⟩ else none

def binding (s : System) (workID : GoStr) : BindResult → Binding Resource
  | .panics => .panics
  | .returns release created => .returns (s.offer workID .clearExec release) created

/-- The state after a call that was handed `offered`. -/
def settle (s : System) (offered : List Resource)
    (outcome : Tracker Resource × Bool × List Resource) : System × Bool :=
  ({ s with
    tracker := outcome.1
    serial := s.serial + 1
    handed := offered ++ s.handed
    pending := outcome.2.2 ++ s.pending }, outcome.2.1)

def binds (s : System) (tok : AdoptionToken) : Bool := tok.valid && s.tracker.vacant tok.workID

end System

def perform (s : System) : Op → System × Bool
  | .beginAdoption workID =>
    let (tracker, token) := s.tracker.beginAdoption workID
    ({ s with tracker, tokens := s.tokens ++ [{ token }] }, false)
  | .publish k pin clearExec =>
    match s.tokens[k]? with
    | none => (s, false)
    | some a =>
      let pin := s.offer a.token.workID .pin pin
      let clearExec := s.offer a.token.workID .clearExec clearExec
      s.settle (pin.toList ++ clearExec.toList) (s.tracker.publish a.token pin clearExec)
  | .publishBound k pin bind =>
    match s.tokens[k]? with
    | none => (s, false)
    | some a =>
      let pin := s.offer a.token.workID .pin pin
      let bind := bind.map (s.binding a.token.workID)
      let bound := if s.binds a.token then bind.bind Binding.clearExec else none
      s.settle (pin.toList ++ bound.toList) (s.tracker.publishBound a.token pin bind)
  | .endToken k =>
    match s.tokens[k]? with
    | none => (s, false)
    | some a =>
      let (tracker, token) := s.tracker.endToken a.token
      ({ s with tracker, tokens := s.tokens.set k { a with token, ended := true } }, false)
  | .adoptHold workID pin clearExec =>
    let pin := s.offer workID .pin pin
    let clearExec := s.offer workID .clearExec clearExec
    s.settle (pin.toList ++ clearExec.toList) (s.tracker.adoptHold workID pin clearExec)
  | .markTerminal workID =>
    let (tracker, toRelease) := s.tracker.markTerminal workID
    ({ s with
      tracker
      tokens := s.tokens.map fun a => { a with outlived := a.outlived || a.token.workID = workID }
      pending := toRelease ++ s.pending }, false)
  | .release workID =>
    let (tracker, toRelease) := s.tracker.release workID
    ({ s with tracker, pending := toRelease ++ s.pending }, false)
  | .unwind k =>
    match s.pending[k]? with
    | none => (s, false)
    | some r => ({ s with pending := s.pending.eraseIdx k, released := r :: s.released }, false)

def step (s : System) (op : Op) : System := (perform s op).1

open List Tracker Option

namespace Tracker

variable {ρ : Type} {t : Tracker ρ} {w : GoStr} {o : Option (Slot ρ)} {tok : AdoptionToken}
  {pin : Option ρ}

/-- The tracker with the slot of one work id replaced. -/
def put (t : Tracker ρ) (w : GoStr) : Option (Slot ρ) → Tracker ρ
  | none => t.erase w
  | some e => t.insert w e

lemma lookup_put (o : Option (Slot ρ)) (w' : GoStr) :
    (t.put w o).lookup w' = if w' = w then o else t.lookup w' := by
  cases o with
  | none => exact lookup_erase_eq
  | some e => exact lookup_insert_eq

lemma maybeDelete_eq (e : Slot ρ) :
    t.maybeDelete w e =
    t.put w (if e.reservations = 0 ∧ e.ownership.isNone = true then none else some e) := by
  rw [maybeDelete]
  split_ifs <;> rfl

/-- The outcome of a publication of `offered` under a work id. -/
inductive Published (t : Tracker ρ) (w : GoStr) (offered : List ρ) :
    Tracker ρ × Bool × List ρ → Prop
  | lost : Published t w offered (t, false, offered)
  | won (o : Ownership ρ) (ho : o.resources = offered) (hopen : (t.slotAt w).terminal = false)
    (hfree : (t.slotAt w).ownership = none) :
    Published t w offered (t.put w (some { t.slotAt w with ownership := some o }), true, [])

lemma Published.nothing {pin clearExec : Option ρ} (h : pin.isNone ∧ clearExec.isNone) :
    Published t w (pin.toList ++ clearExec.toList) (t, false, []) := by
  rw [isNone_iff_eq_none, isNone_iff_eq_none] at h
  rw [h.1, h.2]
  exact .lost

lemma slotAt_of_vacant (h : ¬ t.vacant w = false) :
    (t.slotAt w).terminal = false ∧ (t.slotAt w).ownership = none := by
  rw [Bool.not_eq_false, vacant] at h
  rw [slotAt]
  cases hslot : t.lookup w with
  | none =>
    rw [hslot] at h
    cases h
  | some e =>
    rw [hslot, Bool.and_eq_true, Bool.not_eq_true', isNone_iff_eq_none] at h
    exact h

lemma publish_spec (tok : AdoptionToken) (pin clearExec : Option ρ) :
    Published t tok.workID (pin.toList ++ clearExec.toList) (t.publish tok pin clearExec) := by
  rw [publish]
  split_ifs with hinvalid hnothing hlost
  · exact .lost
  · exact .nothing hnothing
  · exact .lost
  · obtain ⟨hopen, hfree⟩ := slotAt_of_vacant hlost
    exact .won ⟨pin, clearExec⟩ rfl hopen hfree

lemma publishBound_spec (tok : AdoptionToken) (pin : Option ρ) (bind : Option (Binding ρ)) :
    Published t tok.workID (pin.toList ++
      (if tok.valid && t.vacant tok.workID then bind.bind Binding.clearExec else none).toList)
      (t.publishBound tok pin bind) := by
  have hlost : (pin.toList ++ (none : Option ρ).toList) = pin.toList := append_nil _
  rw [publishBound]
  by_cases hinvalid : tok.valid = false
  · rw [hinvalid, Bool.false_and, if_neg Bool.false_ne_true, hlost]
    exact .lost
  rw [if_neg hinvalid, eq_true_of_ne_false hinvalid, Bool.true_and]
  by_cases hvacant : t.vacant tok.workID = false
  · rw [hvacant, if_neg Bool.false_ne_true, hlost]
    exact .lost
  obtain ⟨hopen, hfree⟩ := slotAt_of_vacant hvacant
  rw [if_neg hvacant, if_pos (eq_true_of_ne_false hvacant)]
  by_cases hpanic : bind.any Binding.panicked
  · rw [if_pos hpanic]
    have hnone : bind.bind Binding.clearExec = none := by
      rcases bind with _ | _ | _
      · rfl
      · rfl
      · cases hpanic
    rw [hnone, hlost]
    exact .lost
  generalize bind.bind Binding.clearExec = clearExec
  dsimp only
  split_ifs with hnothing
  · exact .nothing hnothing
  · exact .won ⟨pin, clearExec⟩ rfl hopen hfree

lemma adoptHold_spec (pin clearExec : Option ρ) :
    Published t w (pin.toList ++ clearExec.toList) (t.adoptHold w pin clearExec) := by
  rw [adoptHold]
  split_ifs
  · exact .lost
  rw [hold]
  split_ifs with hlost
  · exact .lost
  · rw [not_or, Bool.not_eq_true, Bool.not_eq_true, isSome_eq_false_iff, isNone_iff_eq_none] at hlost
    exact .won ⟨pin, clearExec⟩ rfl hlost.1 hlost.2

lemma publish_wins {clearExec : Option ρ} (h : (t.publish tok pin clearExec).2.1) :
    tok.valid ∧ (t.slotAt tok.workID).terminal = false := by
  rw [publish] at h
  split_ifs at h with hinvalid hnothing hlost
  exact ⟨eq_true_of_ne_false hinvalid, (slotAt_of_vacant hlost).1⟩

lemma publishBound_wins {bind : Option (Binding ρ)} (h : (t.publishBound tok pin bind).2.1) :
    tok.valid ∧ (t.slotAt tok.workID).terminal = false := by
  rw [publishBound] at h
  split_ifs at h with hinvalid hlost
  exact ⟨eq_true_of_ne_false hinvalid, (slotAt_of_vacant hlost).1⟩

variable [DecidableEq ρ]

def held (r : ρ) (t : Tracker ρ) : ℤ := total (fun e => (e.resources.count r : ℤ)) t

def heldIn (r : ρ) (o : Option (Slot ρ)) : ℤ := (o.map fun e => (e.resources.count r : ℤ)).getD 0

lemma held_put (r : ρ) (o : Option (Slot ρ)) :
    held r (t.put w o) = held r t - heldIn r (t.lookup w) + heldIn r o := by
  cases o with
  | none => exact (total_erase _ _ _).trans (add_zero _).symm
  | some e => exact total_insert _ _ _ _

lemma held_put_of_eq {r : ρ} (h : heldIn r (t.lookup w) = heldIn r o) :
    held r (t.put w o) = held r t := by
  rw [held_put, h, sub_add_cancel]

lemma held_put_take {r : ρ} {e : Slot ρ} (he : t.lookup w = some e) (ho : heldIn r o = 0) :
    held r (t.put w o) + e.resources.count r = held r t := by
  rw [held_put, he, ho, add_zero]
  exact sub_add_cancel _ _

/-- What a publication does to the resources: those that it does not take are to be unwound. -/
lemma Published.held {offered : List ρ} {outcome : Tracker ρ × Bool × List ρ}
    (h : Published t w offered outcome) (r : ρ) :
    held r outcome.1 + outcome.2.2.count r = held r t + offered.count r := by
  cases h with
  | lost => rfl
  | won o ho hopen hfree =>
    have hbefore : heldIn r (t.lookup w) = 0 := by
      rw [slotAt] at hfree
      cases hslot : t.lookup w with
      | none => rfl
      | some e =>
        rw [hslot] at hfree
        change ((e.resources.count r : ℕ) : ℤ) = 0
        rw [Slot.resources, show e.ownership = none from hfree]
        rfl
    have hafter : heldIn r (some { t.slotAt w with ownership := some o }) = offered.count r := by
      rw [← ho]
      rfl
    rw [held_put, count_nil]
    omega

end Tracker

def live (w : GoStr) (tokens : List Adopter) : ℕ :=
  tokens.countP fun a => a.token.workID = w && a.live

structure SlotOk (tokens : List Adopter) (w : GoStr) (o : Option (Slot Resource)) : Prop where
  reserved : (o.getD {}).reservations = live w tokens
  used : ∀ e, o = some e → 0 < e.reservations ∨ e.ownership ≠ none
  marked : ∀ a ∈ tokens, a.token.workID = w → a.live → a.outlived → ∃ e, o = some e ∧ e.terminal
  owned : ∀ e, o = some e → ∀ r ∈ e.resources, r.workID = w

structure Sound (s : System) : Prop where
  slots : ∀ w, SlotOk s.tokens w (s.tracker.lookup w)
  recorded : ∀ a ∈ s.tokens, a.token.valid = a.live
  counted : ∀ r, held r s.tracker + s.pending.count r + s.released.count r = s.handed.count r
  fresh : ∀ r ∈ s.handed, r.serial < s.serial
  nodup : s.handed.Nodup

namespace SlotOk

variable {tokens : List Adopter} {w : GoStr} {o : Option (Slot Resource)} {e : Slot Resource}

section

variable (h : SlotOk tokens w o) {a : Adopter}
include h

/-- The slot of a publication that wins. -/
lemma own {own : Ownership Resource} (hopen : (o.getD {}).terminal = false)
    (hown : ∀ r ∈ own.resources, r.workID = w) :
    SlotOk tokens w (some { o.getD {} with ownership := some own }) where
  reserved := h.reserved
  used e he := by
    cases he
    exact .inr (some_ne_none own)
  marked a ha hw hvalid hover := by
    obtain ⟨e, rfl, hterminal⟩ := h.marked a ha hw hvalid hover
    exact absurd hterminal (Bool.eq_false_iff.mp hopen)
  owned e he r hr := by
    cases he
    exact hown r hr

/-- Another token reserves the work id. -/
lemma reserve (hw : w ≠ []) : SlotOk (tokens ++ [{ token := { workID := w } }]) w
      (some { o.getD {} with reservations := (o.getD {}).reservations + 1 }) where
  reserved := by
    have hlive : ({ token := { workID := w } } : Adopter).live := by
      rw [Adopter.live, Bool.and_eq_true]
      exact ⟨decide_eq_true hw, rfl⟩
    rw [live, countP_append, countP_singleton, if_pos (by rw [decide_eq_true rfl, hlive]; rfl)]
    exact congrArg (· + 1) h.reserved
  used e he := by
    cases he
    exact .inl (Nat.succ_pos _)
  marked a ha hid hvalid hover := by
    rcases mem_append.mp ha with ha | ha
    · obtain ⟨e, rfl, hterminal⟩ := h.marked a ha hid hvalid hover
      exact ⟨_, rfl, hterminal⟩
    · rw [mem_singleton.mp ha] at hover
      cases hover
  owned e he r hr := by
    cases he
    cases o with
    | none => cases hr
    | some e => exact h.owned e rfl r hr

lemma congr {tokens' : List Adopter} (hlive : live w tokens' = live w tokens)
    (hmarked : ∀ a' ∈ tokens', a'.token.workID = w → a'.live → a'.outlived →
      ∃ a ∈ tokens, a.token.workID = w ∧ a.live ∧ a.outlived) : SlotOk tokens' w o where
  reserved := h.reserved.trans hlive.symm
  used := h.used
  marked a' ha' hid hvalid hover := by
    obtain ⟨a, ha, hid, hvalid, hover⟩ := hmarked a' ha' hid hvalid hover
    exact h.marked a ha hid hvalid hover
  owned := h.owned

/-- A token that is new and reserves nothing here. -/
lemma other (ha : ¬ (a.token.workID = w ∧ a.live)) : SlotOk (tokens ++ [a]) w o := by
  refine h.congr ?_ fun a' ha' hid hvalid hover => ?_
  · rw [live, countP_append, countP_singleton, if_neg]
    · rfl
    · rwa [Bool.and_eq_true, decide_eq_true_eq]
  · rcases mem_append.mp ha' with ha' | ha'
    · exact ⟨a', ha', hid, hvalid, hover⟩
    · rw [mem_singleton.mp ha'] at hid hvalid
      exact absurd ⟨hid, hvalid⟩ ha

/-- A token is replaced that reserved nothing here, by one that does not either. -/
lemma set_other {k : ℕ} {a' : Adopter} (ha : tokens[k]? = some a)
    (hold : ¬ (a.token.workID = w ∧ a.live))
    (hnew : ¬ (a'.token.workID = w ∧ a'.live)) : SlotOk (tokens.set k a') w o := by
  obtain ⟨hk, hget⟩ := List.getElem?_eq_some_iff.mp ha
  refine h.congr ?_ fun b hb hidb hvalid hover => ?_
  · rw [← decide_eq_true_eq (p := _ = w), ← Bool.and_eq_true] at hold hnew
    rw [live, List.countP_set hk, hget, if_neg hold, if_neg hnew]
    rfl
  · rcases mem_or_eq_of_mem_set hb with hb | rfl
    · exact ⟨b, hb, hidb, hvalid, hover⟩
    · exact absurd ⟨hidb, hvalid⟩ hnew

lemma mark_other {w' : GoStr} (hne : w ≠ w') :
    SlotOk (tokens.map fun a => { a with outlived := a.outlived || a.token.workID = w' }) w o := by
  refine h.congr ?_ fun a' ha' hid hvalid hover => ?_
  · rw [live, countP_map]
    rfl
  · obtain ⟨a, ha, rfl⟩ := mem_map.mp ha'
    have hsame : (decide (a.token.workID = w')) = false := decide_eq_false (hid ▸ hne)
    rw [hsame, Bool.or_false] at hover
    exact ⟨a, ha, hid, hvalid, hover⟩

lemma reservations_pos (ha : a ∈ tokens) (hid : a.token.workID = w) (hvalid : a.live) :
    ∃ e, o = some e ∧ 0 < e.reservations := by
  have hlive : 0 < live w tokens := by
    rw [live, countP_pos_iff]
    exact ⟨a, ha, by rw [decide_eq_true hid, hvalid]; rfl⟩
  rw [← h.reserved] at hlive
  cases o with
  | none => cases hlive
  | some e => exact ⟨e, rfl, hlive⟩

end

lemma disown (h : SlotOk tokens w (some e)) (terminal : Bool) (hterminal : e.terminal → terminal) :
    SlotOk tokens w (if e.reservations = 0 then none else some { e with terminal, ownership := none }) where
  reserved := by
    rw [← h.reserved]
    split_ifs with hzero
    · exact hzero.symm
    · rfl
  used e' he' := by
    split_ifs at he' with hzero
    cases he'
    exact .inl (Nat.pos_of_ne_zero hzero)
  marked a ha hid hvalid hover := by
    obtain ⟨e', he', hpos⟩ := h.reservations_pos ha hid hvalid
    obtain ⟨e'', he'', hmarked⟩ := h.marked a ha hid hvalid hover
    cases he'
    cases he''
    rw [if_neg hpos.ne']
    exact ⟨_, rfl, hterminal hmarked⟩
  owned e' he' r hr := by
    split_ifs at he'
    cases he'
    cases hr

/-- The work ends: the tokens that are left see a tombstone. -/
lemma mark (h : SlotOk tokens w o) (hmarked : ∀ e, o = some e → e.terminal) :
    SlotOk (tokens.map fun a => { a with outlived := a.outlived || a.token.workID = w }) w o where
  reserved := by
    rw [live, countP_map]
    exact h.reserved
  used := h.used
  marked a' ha' hid hvalid _ := by
    obtain ⟨a, ha, rfl⟩ := mem_map.mp ha'
    obtain ⟨e, he, -⟩ := h.reservations_pos ha hid hvalid
    exact ⟨e, he, hmarked e he⟩
  owned := h.owned

lemma unreserve (h : SlotOk tokens w (some e)) {k : ℕ} {a : Adopter} (ha : tokens[k]? = some a)
    (hid : a.token.workID = w) (hvalid : a.live) :
    SlotOk (tokens.set k { a with token := { a.token with ended := true }, ended := true }) w
      (if e.reservations - 1 = 0 ∧ e.ownership.isNone = true then none
        else some { e with reservations := e.reservations - 1 }) := by
  obtain ⟨hk, hget⟩ := List.getElem?_eq_some_iff.mp ha
  have hended : ({ a with token := { a.token with ended := true }, ended := true } : Adopter).live =
      false := by
    rw [Adopter.live, Bool.not_true, Bool.and_false]
  have hlive :
      live w (tokens.set k { a with token := { a.token with ended := true }, ended := true }) =
      e.reservations - 1 := by
    rw [live, List.countP_set hk, hget, if_pos (by rw [decide_eq_true hid, hvalid]; rfl), hended,
      Bool.and_false, if_neg Bool.false_ne_true, Nat.add_zero]
    exact congrArg (· - 1) h.reserved.symm
  refine ⟨?_, ?_, ?_, ?_⟩
  · rw [hlive]
    split_ifs with hgone
    · exact hgone.1.symm
    · rfl
  · intro e' he'
    split_ifs at he' with hgone
    cases he'
    rw [not_and, isNone_iff_eq_none] at hgone
    by_cases hzero : e.reservations - 1 = 0
    · exact .inr (hgone hzero)
    · exact .inl (Nat.pos_of_ne_zero hzero)
  · intro a' ha' hid' hvalid' hover'
    have hpos : 0 < e.reservations - 1 := by
      rw [← hlive, live, countP_pos_iff]
      exact ⟨a', ha', by rw [decide_eq_true hid', hvalid']; rfl⟩
    rw [if_neg fun hgone => hpos.ne' hgone.1]
    rcases mem_or_eq_of_mem_set ha' with ha' | rfl
    · obtain ⟨e', he', hmarked⟩ := h.marked a' ha' hid' hvalid' hover'
      cases he'
      exact ⟨_, rfl, hmarked⟩
    · rw [hended] at hvalid'
      cases hvalid'
  · intro e' he' r hr
    split_ifs at he'
    cases he'
    exact h.owned e rfl r hr

end SlotOk

variable {w : GoStr}

lemma slots_put {tokens : List Adopter} {t : Tracker Resource} {o : Option (Slot Resource)}
    (hw : SlotOk tokens w o) (hother : ∀ w', w' ≠ w → SlotOk tokens w' (t.lookup w'))
    (w' : GoStr) : SlotOk tokens w' ((t.put w o).lookup w') := by
  rw [lookup_put]
  split_ifs with heq
  · exact heq ▸ hw
  · exact hother w' heq

structure Fresh (s : System) (w : GoStr) (offered : List Resource) : Prop where
  own : ∀ r ∈ offered, r.serial = s.serial ∧ r.workID = w
  nodup : offered.Nodup

variable {s : System} {given : Bool} {r : Resource}

lemma mem_offer {kind : ResourceKind} (h : r ∈ (s.offer w kind given).toList) :
    r = ⟨s.serial, w, kind⟩ := by
  cases given with
  | false => cases h
  | true => exact mem_singleton.mp h

lemma fresh_offers {bound : Option Resource}
    (hbound : ∀ r ∈ bound.toList, r = ⟨s.serial, w, .clearExec⟩) :
    Fresh s w ((s.offer w .pin given).toList ++ bound.toList) where
  own r hr := by
    rcases mem_append.mp hr with hr | hr
    · rw [mem_offer hr]
      exact ⟨rfl, rfl⟩
    · rw [hbound r hr]
      exact ⟨rfl, rfl⟩
  nodup := by
    have hsingle (o : Option Resource) : o.toList.Nodup := by
      cases o with
      | none => exact nodup_nil
      | some r => exact nodup_singleton r
    refine nodup_append.mpr ⟨hsingle _, hsingle _, ?_⟩
    rintro r hr _ hr' rfl
    rw [mem_offer hr] at hr'
    cases hbound _ hr'

lemma mem_bound {tok : AdoptionToken} {bind : Option BindResult}
    (h : r ∈ (if s.binds tok then (bind.map (s.binding tok.workID)).bind Binding.clearExec else none).toList) :
    r = ⟨s.serial, tok.workID, .clearExec⟩ := by
  split_ifs at h
  · rcases bind with _ | _ | ⟨release, created⟩
    · cases h
    · cases h
    · cases created with
      | false => cases h
      | true => exact mem_offer h
  · cases h

namespace Sound

variable {s : System}

section

variable (hs : Sound s) {tokens : List Adopter} {t : Tracker Resource}
include hs

/-- A call that hands over resources. -/
lemma settle {offered : List Resource} (hfresh : Fresh s w offered)
    {outcome : Tracker Resource × Bool × List Resource}
    (h : s.tracker.Published w offered outcome) : Sound (s.settle offered outcome).1 where
  slots := by
    cases h with
    | lost => exact hs.slots
    | won o ho hopen hfree =>
      refine slots_put ((hs.slots w).own hopen ?_) fun w' _ => hs.slots w'
      exact fun r hr => (hfresh.own r (ho ▸ hr)).2
  recorded := hs.recorded
  counted r := by
    have hbefore := hs.counted r
    have hcall := h.held r
    change held r outcome.1 + ((outcome.2.2 ++ s.pending).count r : ℕ) + (s.released.count r : ℕ) =
      ((offered ++ s.handed).count r : ℕ)
    rw [count_append, count_append]
    omega
  fresh r hr := by
    rcases mem_append.mp hr with hr | hr
    · rw [(hfresh.own r hr).1]
      exact Nat.lt_succ_self s.serial
    · exact (hs.fresh r hr).trans (Nat.lt_succ_self s.serial)
  nodup := by
    refine nodup_append.mpr ⟨hfresh.nodup, hs.nodup, ?_⟩
    rintro r hr _ hr' rfl
    exact (hs.fresh r hr').ne (hfresh.own r hr).1

/-- A call that leaves the resources where they are. -/
lemma keep (hslots : ∀ w, SlotOk tokens w (t.lookup w))
    (hrecorded : ∀ a ∈ tokens, a.token.valid = a.live)
    (hheld : ∀ r, held r t = held r s.tracker) : Sound { s with tracker := t, tokens } where
  slots := hslots
  recorded := hrecorded
  counted r := (congrArg (· + (s.pending.count r : ℤ) + (s.released.count r : ℤ)) (hheld r)).trans (hs.counted r)
  fresh := hs.fresh
  nodup := hs.nodup

/-- A call that takes resources out of the tracker. -/
lemma take {taken : List Resource} (hslots : ∀ w, SlotOk tokens w (t.lookup w))
    (hrecorded : ∀ a ∈ tokens, a.token.valid = a.live)
    (hheld : ∀ r, held r t + taken.count r = held r s.tracker) :
    Sound { s with tracker := t, tokens, pending := taken ++ s.pending } where
  slots := hslots
  recorded := hrecorded
  counted r := by
    have hbefore := hs.counted r
    have hcall := hheld r
    change held r t + ((taken ++ s.pending).count r : ℕ) + (s.released.count r : ℕ) =
      (s.handed.count r : ℕ)
    rw [count_append]
    omega
  fresh := hs.fresh
  nodup := hs.nodup

lemma recorded_append {tok : AdoptionToken} (hnew : tok.ended = false) :
    ∀ a ∈ s.tokens ++ [{ token := tok }], a.token.valid = a.live := by
  intro a ha
  rcases mem_append.mp ha with ha | ha
  · exact hs.recorded a ha
  · rw [mem_singleton.mp ha, AdoptionToken.valid, Adopter.live, hnew]

lemma recorded_set {k : ℕ} {a : Adopter} (ha : a.token.valid = a.live) :
    ∀ b ∈ s.tokens.set k a, b.token.valid = b.live :=
  fun b hb => (mem_or_eq_of_mem_set hb).elim (hs.recorded b) fun h => h ▸ ha

lemma recorded_mark (w : GoStr) :
    ∀ b ∈ s.tokens.map fun a => { a with outlived := a.outlived || a.token.workID = w },
    b.token.valid = b.live := by
  intro b hb
  obtain ⟨a, ha, rfl⟩ := mem_map.mp hb
  exact hs.recorded a ha

lemma beginAdoption (w : GoStr) : Sound (step s (.beginAdoption w)) := by
  rw [step, perform, Tracker.beginAdoption]
  split_ifs with hw
  · refine hs.keep (fun w' => (hs.slots w').other fun h => ?_) (hs.recorded_append rfl) fun r => rfl
    cases h.2
  · have hheld (r : Resource) : heldIn r (s.tracker.lookup w) = heldIn r
        (some { s.tracker.slotAt w with reservations := (s.tracker.slotAt w).reservations + 1 }) := by
      rw [slotAt]
      cases s.tracker.lookup w with
      | none => rfl
      | some e => rfl
    exact hs.keep (slots_put ((hs.slots w).reserve hw) fun w' hne => (hs.slots w').other fun h => hne h.1.symm)
      (hs.recorded_append rfl) fun r => held_put_of_eq (hheld r)

lemma endToken (k : ℕ) : Sound (step s (.endToken k)) := by
  rw [step, perform]
  cases ha : s.tokens[k]? with
  | none => exact hs
  | some a =>
    have hrecorded := hs.recorded a (mem_of_getElem? ha)
    have hended (tok : AdoptionToken) :
        ({ a with token := tok, ended := true } : Adopter).live = false := by
      rw [Adopter.live, Bool.not_true, Bool.and_false]
    dsimp only
    rw [Tracker.endToken]
    by_cases hvalid : a.token.valid = false
    · -- the call finds nothing to do, and there was no reservation
      rw [if_pos hvalid]
      refine hs.keep (fun w => (hs.slots w).set_other ha (fun h => ?_) fun h => ?_)
        (hs.recorded_set (hvalid.trans (hended _).symm)) fun r => rfl
      · rw [← hrecorded, hvalid] at h
        cases h.2
      · rw [hended] at h
        cases h.2
    · have hslot := hs.slots a.token.workID
      have hlive : a.live := hrecorded ▸ eq_true_of_ne_false hvalid
      obtain ⟨e, he, -⟩ := hslot.reservations_pos (mem_of_getElem? ha) rfl hlive
      rw [he] at hslot
      rw [if_neg hvalid, he]
      dsimp only
      rw [maybeDelete_eq]
      refine hs.keep (slots_put (hslot.unreserve ha rfl hlive) fun w' hne => (hs.slots w').set_other ha
        (fun h => hne h.1.symm) fun h => hne h.1.symm)
        (hs.recorded_set ?_) fun r => held_put_of_eq ?_
      · rw [hended, AdoptionToken.valid, Bool.not_true, Bool.and_false]
      rw [he]
      split_ifs with hgone
      · -- a slot that goes owns nothing
        change ((e.resources.count r : ℕ) : ℤ) = 0
        rw [Slot.resources, isNone_iff_eq_none.mp hgone.2]
        rfl
      · rfl

lemma markTerminal (w : GoStr) : Sound (step s (.markTerminal w)) := by
  have hother (w' : GoStr) (hne : w' ≠ w) := (hs.slots w').mark_other hne
  rw [step, perform, Tracker.markTerminal]
  split_ifs with hw
  · refine hs.keep (fun w' => ?_) (hs.recorded_mark w) fun r => rfl
    by_cases heq : w' = w
    · -- nobody has reserved the empty id
      refine (hs.slots w').congr ?_ fun a' ha' hid hvalid hover => ?_
      · rw [live, countP_map]
        rfl
      · rw [Adopter.live, Bool.and_eq_true] at hvalid
        exact absurd (hid.trans (heq.trans hw)) (of_decide_eq_true hvalid.1)
    · exact hother w' heq
  · cases he : s.tracker.lookup w with
    | none =>
      refine hs.keep (fun w' => ?_) (hs.recorded_mark w) fun r => rfl
      by_cases heq : w' = w
      · rw [heq, he]
        exact (he ▸ hs.slots w).mark nofun
      · exact hother w' heq
    | some e =>
      have hslot : SlotOk s.tokens w (some e) := he ▸ hs.slots w
      have hput : (if e.reservations = 0 then s.tracker.erase w
          else s.tracker.insert w { e with terminal := true, ownership := none }) =
          s.tracker.put w (if e.reservations = 0 then none
            else some { e with terminal := true, ownership := none }) := by
        split_ifs <;> rfl
      dsimp only
      rw [hput]
      refine hs.take (slots_put ((hslot.disown true fun _ => rfl).mark fun e' he' => ?_) hother)
        (hs.recorded_mark w) fun r => held_put_take he ?_
      · split_ifs at he'
        rw [← Option.some.inj he']
      · split_ifs <;> rfl

lemma release (w : GoStr) : Sound (step s (.release w)) := by
  rw [step, perform, Tracker.release]
  split_ifs with hw
  · exact hs
  cases he : s.tracker.lookup w with
  | none => exact hs
  | some e =>
    have hslot : SlotOk s.tokens w (some e) := he ▸ hs.slots w
    dsimp only
    by_cases howned : e.ownership.isSome
    · have hput : s.tracker.maybeDelete w { e with ownership := none } =
          s.tracker.put w (if e.reservations = 0 then none else some { e with ownership := none }) := by
        rw [maybeDelete_eq]
        by_cases hzero : e.reservations = 0
        · rw [if_pos hzero, if_pos ⟨hzero, rfl⟩]
        · rw [if_neg hzero, if_neg fun h => hzero h.1]
      rw [if_pos howned, hput]
      refine hs.take (slots_put (hslot.disown e.terminal id) fun w' _ => hs.slots w') hs.recorded fun r =>
        held_put_take he ?_
      split_ifs <;> rfl
    · rw [if_neg howned]
      exact hs

lemma unwind (k : ℕ) : Sound (step s (.unwind k)) := by
  rw [step, perform]
  cases hr : s.pending[k]? with
  | none => exact hs
  | some r =>
    obtain ⟨hk, hget⟩ := List.getElem?_eq_some_iff.mp hr
    refine ⟨hs.slots, hs.recorded, fun r' => ?_, hs.fresh, hs.nodup⟩
    have hbefore := hs.counted r'
    have hmoved : s.pending.count r' = (s.pending.eraseIdx k).count r' + if r == r' then 1
      else 0 := by
      rw [← (getElem_cons_eraseIdx_perm hk).count_eq, hget, count_cons]
    dsimp only
    rw [count_cons]
    omega

lemma step (op : Op) : Sound (step s op) := by
  cases op with
  | beginAdoption w => exact hs.beginAdoption w
  | publish k pin clearExec =>
    rw [GenerationPins.step, perform]
    cases s.tokens[k]? with
    | none => exact hs
    | some a => exact hs.settle (fresh_offers fun r => mem_offer) (publish_spec _ _ _)
  | publishBound k pin bind =>
    rw [GenerationPins.step, perform]
    cases s.tokens[k]? with
    | none => exact hs
    | some a => exact hs.settle (fresh_offers fun r => mem_bound) (publishBound_spec _ _ _)
  | endToken k => exact hs.endToken k
  | adoptHold w pin clearExec =>
    exact hs.settle (fresh_offers fun r => mem_offer) (adoptHold_spec _ _)
  | markTerminal w => exact hs.markTerminal w
  | release w => exact hs.release w
  | unwind k => exact hs.unwind k

end

lemma empty : Sound {} where
  slots w := by
    exact ⟨rfl, nofun, nofun, nofun⟩
  recorded _ := nofun
  counted _ := rfl
  fresh _ := nofun
  nodup := nodup_nil

lemma run (ops : List Op) : Sound (run GenerationPins.step {} ops) :=
  run_induct (fun _ op hs _ => hs.step op) empty (meets_of_forall (fun _ _ => trivial) _)
    (prefix_refl ops)

end Sound

def Owned (s : System) (r : Resource) : Prop :=
  ∃ e, s.tracker.lookup r.workID = some e ∧ r ∈ e.resources

lemma held_nonneg (r : Resource) (t : Tracker Resource) : 0 ≤ held r t :=
  total_nonneg fun _ _ _ => Int.natCast_nonneg _

namespace Sound

variable {s : System}

lemma owned_iff (hs : Sound s) (r : Resource) : Owned s r ↔ 0 < held r s.tracker := by
  constructor
  · rintro ⟨e, he, hr⟩
    calc (0 : ℤ) < (e.resources.count r : ℕ) := Int.natCast_pos.mpr (count_pos_iff.mpr hr)
      _ ≤ held r s.tracker := le_total (fun _ _ _ => Int.natCast_nonneg _) he
  · intro hheld
    by_contra hnot
    refine hheld.ne' (total_eq_zero fun w e he => ?_)
    rw [Int.natCast_eq_zero, count_eq_zero]
    intro hr
    rw [← (hs.slots w).owned e he r hr] at he
    exact hnot ⟨e, he, hr⟩

lemma not_outlived (hs : Sound s) {a : Adopter} (ha : a ∈ s.tokens) (hvalid : a.token.valid)
    (hopen : (s.tracker.slotAt a.token.workID).terminal = false) : a.outlived = false := by
  by_contra hover
  obtain ⟨e, he, hmarked⟩ := (hs.slots a.token.workID).marked a ha rfl (hs.recorded a ha ▸ hvalid)
    (eq_true_of_ne_false hover)
  rw [slotAt, he] at hopen
  exact absurd hmarked (Bool.eq_false_iff.mp hopen)

end Sound

/-- Whatever calls have been made, and wherever those in progress are: each pin and each clear
handle that was handed over is held by its work id, or has still to be released by one call, or was
released once; no publication goes through a token that the end of its work has overtaken; and once
`End` was called on all tokens of a work id, which owns nothing either, it has no slot. -/
theorem generation_pins_accounted (ops : List Op) : let s := run step {} ops
    (∀ r, s.released.count r ≤ 1) ∧
    (∀ r ∈ s.handed,
      Owned s r ∧ r ∉ s.pending ∧ r ∉ s.released ∨
      ¬ Owned s r ∧ s.pending.count r = 1 ∧ r ∉ s.released ∨
      ¬ Owned s r ∧ r ∉ s.pending ∧ s.released.count r = 1) ∧
    (∀ k a, s.tokens[k]? = some a → a.outlived = true →
      (∀ pin clearExec, (perform s (.publish k pin clearExec)).2 = false) ∧
      ∀ pin bind, (perform s (.publishBound k pin bind)).2 = false) ∧
    ∀ w, (∀ a ∈ s.tokens, a.token.workID = w → a.ended = true) →
      (∀ e, s.tracker.lookup w = some e → e.ownership = none) → s.tracker.lookup w = none := by
  intro s
  have hs : Sound s := Sound.run ops
  have honce (r : Resource) : s.handed.count r ≤ 1 := nodup_iff_count_le_one.mp hs.nodup r
  refine ⟨fun r => ?_, fun r hr => ?_,
    fun k a ha hover => ⟨fun pin clearExec => ?_, fun pin bind => ?_⟩, fun w hended hfree => ?_⟩
  · have hcounted := hs.counted r
    have hheld := held_nonneg r s.tracker
    have := honce r
    omega
  · have hcounted := hs.counted r
    have hheld := held_nonneg r s.tracker
    have hone : s.handed.count r = 1 := le_antisymm (honce r) (count_pos_iff.mpr hr)
    rw [hs.owned_iff, ← count_eq_zero, ← count_eq_zero]
    omega
  · by_contra hwins
    rw [perform, ha] at hwins
    obtain ⟨hvalid, hopen⟩ := publish_wins (eq_true_of_ne_false hwins)
    exact absurd hover (Bool.eq_false_iff.mp (hs.not_outlived (mem_of_getElem? ha) hvalid hopen))
  · by_contra hwins
    rw [perform, ha] at hwins
    obtain ⟨hvalid, hopen⟩ := publishBound_wins (eq_true_of_ne_false hwins)
    exact absurd hover (Bool.eq_false_iff.mp (hs.not_outlived (mem_of_getElem? ha) hvalid hopen))
  · cases he : s.tracker.lookup w with
    | none => rfl
    | some e =>
      have hslot : SlotOk s.tokens w (some e) := he ▸ hs.slots w
      rcases hslot.used e rfl with hreserved | howned
      · have hlive : 0 < live w s.tokens := hslot.reserved ▸ hreserved
        rw [live, countP_pos_iff] at hlive
        obtain ⟨a, ha, hvalid⟩ := hlive
        rw [Bool.and_eq_true, decide_eq_true_eq, Adopter.live, Bool.and_eq_true, hended a ha hvalid.1] at hvalid
        cases hvalid.2.2
      · exact absurd (hfree e he) howned

/-- Two adoptions of one work: the first wins, the work ends, the second comes too late, and both
end. -/
def twoAdoptions : List Op :=
  [.beginAdoption (lit "w"), .publish 0 true true, .beginAdoption (lit "w"), .publishBound 1 true none,
    .markTerminal (lit "w"), .publish 1 true false, .unwind 3, .unwind 0, .endToken 0, .unwind 0,
    .unwind 0, .endToken 1]

theorem generation_pins_accounted_twice : let s := run step {} twoAdoptions
    (s.handed.length = 4 ∧ ∀ r ∈ s.handed, s.released.count r = 1) ∧
    (perform s (.publish 1 true true)).2 = false ∧ s.tracker.lookup (lit "w") = none := by
  obtain ⟨-, -, hover, hslot⟩ := generation_pins_accounted twoAdoptions
  exact ⟨by decide, (hover 1 _ rfl (by decide)).1 true true, hslot (lit "w") (by decide) (by decide)⟩

/-- Whatever calls have been made, a slot counts the tokens of its work id on which `End` was not
called, holds only what was handed over for that id, and is there just as long as it has such tokens
or an ownership. -/
theorem reservations_count_tokens (ops : List Op) (w : GoStr) : let s := run step {} ops
    (s.tracker.slotAt w).reservations = live w s.tokens ∧
    (∀ r ∈ (s.tracker.slotAt w).resources, r.workID = w) ∧
    ((s.tracker.lookup w).isSome = true ↔ 0 < live w s.tokens ∨ (s.tracker.slotAt w).ownership ≠ none) := by
  intro s
  have h : SlotOk s.tokens w (s.tracker.lookup w) := (Sound.run ops).slots w
  rw [slotAt]
  refine ⟨h.reserved, ?_⟩
  rw [← h.reserved]
  cases he : s.tracker.lookup w with
  | none => simp [Slot.resources]
  | some e => simpa using ⟨h.owned e he, h.used e he⟩

theorem reservations_count_tokens_ended : let s := run step {} (twoAdoptions.take 9)
    (s.tracker.slotAt (lit "w")).reservations = 1 := by
  have hcount := (reservations_count_tokens (twoAdoptions.take 9) (lit "w")).1
  exact hcount.trans (by decide)

end InteractiveProxy.GenerationPins
