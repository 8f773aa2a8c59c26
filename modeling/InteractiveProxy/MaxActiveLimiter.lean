import InteractiveProxy.GoText
import InteractiveProxy.GuardedRun
import InteractiveProxy.KeyedTable
import InteractiveProxy.SignedWord

/-! The limiter of active requests of one executable generation. It hands out leases of its own, or
those of an inner provider, and holds a slot for each request. What the inner provider answers is an
input of a call. -/
namespace InteractiveProxy.MaxActive

open GoText KeyedTable SignedWord

inductive LeaseDecisionKind
  | allow
  | deny
  | advisory
  | other (raw : GoStr)
  deriving DecidableEq

inductive FailureBehavior
  | unset
  | failClosed
  | failOpen
  | other (raw : GoStr)
  deriving DecidableEq

inductive Readiness
  | unset
  | ready
  | degraded
  | unavailable
  | disabled
  | other (raw : GoStr)

structure LeaseDecision where
  kind : LeaseDecisionKind := .other []
  leaseID : GoStr := []
  generation : Int64 := 0
  expiresAt : Time := 0
  remainingSlots : Int64 := 0
  readiness : Readiness := .unset
  renewBefore : Duration := 0
  ttl : Duration := 0
  failureBehavior : FailureBehavior := .unset

structure LeaseAdmission where
  requestID : GoStr
  ttl : Duration := 0

structure LeaseRenew where
  leaseID : GoStr
  expectedGeneration : Int64 := 0
  ttl : Duration := 0

structure LeaseRelease where
  leaseID : GoStr
  requestID : GoStr := []

def LeaseRelease.names (input : LeaseRelease) (reqID leaseID : GoStr) : Bool :=
  leaseID = input.leaseID || input.requestID ≠ [] && reqID = input.requestID

abbrev Answer := LeaseDecision × Option GoStr

structure LeaseSlot where
  leaseID : GoStr
  generation : Int64
  expiresAt : Time

/-- The limiter; `inner` says whether there is an inner provider. -/
structure Limiter where
  limit : Int64
  inner : Bool
  active : Table GoStr LeaseSlot := ∅
  seq : Int64 := 0

def newMaxActiveLimiter (limit : Int64) (inner : Bool) : Option Limiter :=
  if limit ≤ 0 then none else some { limit, inner }

def leaseName (n : Int64) : GoStr := lit "gen-lease-" ++ formatInt n.toInt

def timeToLive (ttl : Duration) : Duration := if ttl ≤ 0 then 60000000000 else ttl

namespace Limiter

variable (l : Limiter)

def reapLocked (now : Time) : Limiter :=
  { l with active := keep (fun _ slot => slot.expiresAt = 0 || now < slot.expiresAt) l.active }

def remainingSlots : Int64 := l.limit - Int64.ofNat (size l.active)

def allowed (slot : LeaseSlot) (ttl : Duration) : LeaseDecision where
  kind := .allow
  leaseID := slot.leaseID
  generation := slot.generation
  expiresAt := slot.expiresAt
  remainingSlots := l.remainingSlots
  renewBefore := ttl / 3
  ttl := ttl
  failureBehavior := .failClosed

/-- The lease that an inner provider gives, with what it leaves out. -/
def complete (ld : LeaseDecision) (now : Time) (ttl : Duration) : LeaseDecision :=
  { ld with
    leaseID := if ld.leaseID = [] then leaseName (l.seq + 1) else ld.leaseID
    generation := if ld.generation = 0 then 1 else ld.generation
    expiresAt := if ld.expiresAt = 0 then now.add ttl else ld.expiresAt
    ttl := if ld.ttl ≤ 0 then ttl else ld.ttl
    renewBefore := if ld.renewBefore ≤ 0 then ttl / 3 else ld.renewBefore
    failureBehavior := if ld.failureBehavior = .unset then .failClosed else ld.failureBehavior }

def put (reqID : GoStr) (slot : LeaseSlot) : Limiter :=
  { l with active := l.active.insert reqID slot }

def admitLease (input : LeaseAdmission) (now : Time) (inner : Answer) : Limiter × Answer :=
  let reqID := trimSpace input.requestID
  if reqID = [] then (l, {}, some (lit "snapshotgen: empty request id"))
  else
    let ttl := timeToLive input.ttl
    let l := l.reapLocked now
    match l.active.lookup reqID with
    | some slot => (l, l.allowed slot ttl, none)
    | none =>
      if l.limit.toInt ≤ size l.active then (l, { kind := .deny, readiness := .ready }, none)
      else if l.inner then
        if inner.2.isSome ∨ inner.1.kind = .deny then (l, inner)
        else
          let ld := l.complete inner.1 now ttl
          let l := { l with seq := if inner.1.leaseID = [] then l.seq + 1 else l.seq }
          let l := l.put reqID ⟨ld.leaseID, ld.generation, ld.expiresAt⟩
          (l, { ld with remainingSlots := l.remainingSlots }, none)
      else
        let slot : LeaseSlot := ⟨leaseName (l.seq + 1), 1, now.add ttl⟩
        let l := { l with seq := l.seq + 1 }.put reqID slot
        (l, l.allowed slot ttl, none)

/-- A renewal goes to the inner provider, if there is one; `order` is that of the loop over the
slots. -/
def renewLease (input : LeaseRenew) (now : Time) (order : RangeOrder (GoStr × LeaseSlot))
    (inner : Answer) : Limiter × Answer :=
  if l.inner then (l, inner)
  else
    match (pairsIn order l.active).find? fun row => row.2.leaseID = input.leaseID with
    | none => (l, { kind := .deny }, none)
    | some (reqID, slot) =>
      if input.expectedGeneration ≠ 0 ∧ slot.generation ≠ input.expectedGeneration then
        (l, { kind := .deny }, none)
      else
        let ttl := timeToLive input.ttl
        let slot := { slot with generation := slot.generation + 1, expiresAt := now.add ttl }
        let l := l.put reqID slot
        (l, l.allowed slot ttl, none)

def releaseLease (input : LeaseRelease) (order : RangeOrder (GoStr × LeaseSlot))
    (inner : Option GoStr) : Limiter × Option GoStr :=
  let l := match (pairsIn order l.active).find? fun row => input.names row.1 row.2.leaseID with
    | none => l
    | some (reqID, _) => { l with active := l.active.erase reqID }
  (l, if l.inner then inner else none)

end Limiter

open GuardedRun

structure Grant where
  leaseID : GoStr
  expiresAt : Time

def grantOf (reply : Answer) : Option Grant :=
  if reply.2 = none ∧ reply.1.kind = .allow then some ⟨reply.1.leaseID, reply.1.expiresAt⟩ else none

inductive Op
  | admitLease (input : LeaseAdmission) (now : Time) (inner : Answer)
  | renewLease (input : LeaseRenew) (now : Time) (order : RangeOrder (GoStr × LeaseSlot))
    (inner : Answer)
  | releaseLease (input : LeaseRelease) (order : RangeOrder (GoStr × LeaseSlot))
    (inner : Option GoStr)

def Op.now : Op → Option Time
  | .admitLease _ now _ => some now
  | .renewLease _ now _ _ => some now
  | .releaseLease .. => none

structure System where
  limiter : Limiter
  granted : Table GoStr Grant := ∅

def step (s : System) : Op → System
  | .admitLease input now inner =>
    let (l, reply) := s.limiter.admitLease input now inner
    match grantOf reply with
    | none => ⟨l, s.granted⟩
    | some g => ⟨l, s.granted.insert (trimSpace input.requestID) g⟩
  | .renewLease input now order inner =>
    let (l, reply) := s.limiter.renewLease input now order inner
    match grantOf reply with
    | none => ⟨l, s.granted⟩
    | some g =>
      ⟨l, mapRows (fun held => if held.leaseID = input.leaseID then ⟨held.leaseID, g.expiresAt⟩ else held) s.granted⟩
  | .releaseLease input order inner =>
    ⟨(s.limiter.releaseLease input order inner).1, keep (fun reqID held => !input.names reqID held.leaseID) s.granted⟩

/-- The requests that hold a lease at `t`. -/
def holders (s : System) (t : Time) : ℕ := countRows (fun g => t < g.expiresAt) s.granted

/-- What the limiter needs of a call: the numbers of its own leases have not all been used, and an
inner provider does not renew a lease past the end that the slot of its request has. -/
def Within (s : System) : Op → Prop
  | .admitLease .. => s.limiter.inner = false → s.limiter.seq ≠ -1
  | .renewLease input _ _ inner => s.limiter.inner = true → ∀ g, grantOf inner = some g →
    ∀ reqID held, s.granted.lookup reqID = some held → held.leaseID = input.leaseID →
      ∃ slot, s.limiter.active.lookup reqID = some slot ∧ slot.leaseID = input.leaseID ∧
      g.expiresAt ≤ slot.expiresAt
  | .releaseLease .. => True

/-- The outcomes of an admission of `reqID`. -/
inductive Admitted (l : Limiter) (reqID : GoStr) (now : Time) : Limiter → Answer → Prop
  | refused {l' : Limiter} {reply : Answer} (hl : l' = l ∨ l' = l.reapLocked now)
    (hreply : grantOf reply = none) : Admitted l reqID now l' reply
  | held {reply : Answer} (slot : LeaseSlot)
    (hslot : (l.reapLocked now).active.lookup reqID = some slot)
    (hreply : grantOf reply = some ⟨slot.leaseID, slot.expiresAt⟩) :
    Admitted l reqID now (l.reapLocked now) reply
  | entered {l' : Limiter} {reply : Answer} (slot : LeaseSlot) (seq : Int64)
    (habsent : (l.reapLocked now).active.lookup reqID = none)
    (hroom : size (l.reapLocked now).active < l.limit.toInt)
    (hreply : grantOf reply = none ∨ grantOf reply = some ⟨slot.leaseID, slot.expiresAt⟩)
    (hown : l.inner = false → seq = l.seq + 1 ∧ slot.leaseID = leaseName (l.seq + 1))
    (hl : l' = { (l.reapLocked now) with active := (l.reapLocked now).active.insert reqID slot, seq }) :
    Admitted l reqID now l' reply

lemma grantOf_allowed (l : Limiter) (slot : LeaseSlot) (ttl : Duration) :
    grantOf (l.allowed slot ttl, none) = some ⟨slot.leaseID, slot.expiresAt⟩ := rfl

lemma grantOf_cases (reply : Answer) :
    grantOf reply = none ∨ grantOf reply = some ⟨reply.1.leaseID, reply.1.expiresAt⟩ := by
  rw [grantOf]
  split_ifs
  · exact .inr rfl
  · exact .inl rfl

lemma admitLease_spec (l : Limiter) (input : LeaseAdmission) (now : Time) (inner : Answer) :
    Admitted l (trimSpace input.requestID) now
    (l.admitLease input now inner).1 (l.admitLease input now inner).2 := by
  rw [Limiter.admitLease]
  by_cases hempty : trimSpace input.requestID = []
  · rw [if_pos hempty]
    exact .refused (.inl rfl) rfl
  rw [if_neg hempty]
  dsimp only
  cases hslot : (l.reapLocked now).active.lookup (trimSpace input.requestID) with
  | some slot => exact .held slot hslot (grantOf_allowed _ _ _)
  | none =>
    by_cases hfull : (l.reapLocked now).limit.toInt ≤ size (l.reapLocked now).active
    · rw [if_pos hfull]
      exact .refused (.inr rfl) rfl
    rw [if_neg hfull]
    have hroom := not_le.mp hfull
    by_cases hinner : (l.reapLocked now).inner
    · rw [if_pos hinner]
      by_cases hdenied : inner.2.isSome ∨ inner.1.kind = .deny
      · rw [if_pos hdenied]
        refine .refused (.inr rfl) ?_
        rw [grantOf, if_neg]
        rintro ⟨hnone, hallow⟩
        rw [hnone, hallow] at hdenied
        simp at hdenied
      · rw [if_neg hdenied]
        generalize (l.reapLocked now).complete inner.1 now (timeToLive input.ttl) = ld
        exact .entered ⟨ld.leaseID, ld.generation, ld.expiresAt⟩ _ hslot hroom (grantOf_cases _)
          (fun hno => absurd hno (ne_of_eq_of_ne hinner nofun)) rfl
    · rw [if_neg hinner]
      exact .entered ⟨leaseName (l.seq + 1), 1, now.add (timeToLive input.ttl)⟩
        (l.seq + 1) hslot hroom (.inr rfl) (fun _ => ⟨rfl, rfl⟩) rfl

/-- The outcomes of a renewal: without an inner provider, the slot that has the lease takes the new
end. -/
inductive Renewed (l : Limiter) (input : LeaseRenew) (inner : Answer) : Limiter → Answer → Prop
  | forwarded (hinner : l.inner) : Renewed l input inner l inner
  | refused {reply : Answer} (hreply : grantOf reply = none) : Renewed l input inner l reply
  | extended {reply : Answer} (hinner : l.inner = false) (reqID : GoStr) (slot slot' : LeaseSlot)
    (hslot : l.active.lookup reqID = some slot) (hlease : slot.leaseID = input.leaseID)
    (hlease' : slot'.leaseID = input.leaseID)
      (hreply : grantOf reply = some ⟨slot'.leaseID, slot'.expiresAt⟩) :
    Renewed l input inner (l.put reqID slot') reply

lemma renewLease_spec (l : Limiter) (input : LeaseRenew) (now : Time)
    (order : RangeOrder (GoStr × LeaseSlot)) (inner : Answer) :
    Renewed l input inner
    (l.renewLease input now order inner).1 (l.renewLease input now order inner).2 := by
  rw [Limiter.renewLease]
  cases hinner : l.inner with
  | true => exact .forwarded hinner
  | false =>
    rw [if_neg Bool.false_ne_true]
    cases hfound :
      (pairsIn order l.active).find? fun row => decide (row.2.leaseID = input.leaseID) with
    | none => exact .refused rfl
    | some row =>
      obtain ⟨reqID, slot⟩ := row
      have hfits := List.find?_some hfound
      have hlease : slot.leaseID = input.leaseID := of_decide_eq_true hfits
      have hmem := List.mem_of_find?_eq_some hfound
      have hslot := lookup_of_mem_pairsIn hmem
      dsimp only
      split_ifs
      · exact .refused rfl
      · exact .extended hinner reqID slot _ hslot hlease hlease (grantOf_allowed _ _ _)

lemma releaseLease_spec (l : Limiter) (input : LeaseRelease)
    (order : RangeOrder (GoStr × LeaseSlot)) (inner : Option GoStr) :
    (l.releaseLease input order inner).1 = l ∨ ∃ reqID slot, l.active.lookup reqID = some slot ∧
      input.names reqID slot.leaseID ∧
      (l.releaseLease input order inner).1 = { l with active := l.active.erase reqID } := by
  rw [Limiter.releaseLease]
  cases hfound : (pairsIn order l.active).find? fun row => input.names row.1 row.2.leaseID with
  | none => exact .inl rfl
  | some row =>
    have hnames := List.find?_some hfound
    have hmem := List.mem_of_find?_eq_some hfound
    exact .inr ⟨row.1, row.2, lookup_of_mem_pairsIn hmem, hnames, rfl⟩

def Issued (seq : Int64) (leaseID : GoStr) : Prop :=
  ∃ n : Int64, leaseID = leaseName n ∧ n.toUInt64.toNat ≤ seq.toUInt64.toNat

variable {seq : Int64}

lemma toNat_succ (h : seq ≠ -1) : (seq + 1).toUInt64.toNat = seq.toUInt64.toNat + 1 := by
  have hlt := seq.toUInt64.toNat_lt
  have hne : seq.toUInt64.toNat ≠ 2 ^ 64 - 1 := by
    intro hmax
    exact h (congrArg Int64.ofUInt64 (UInt64.toNat_inj.mp hmax))
  rw [Int64.toUInt64_add, UInt64.toNat_add, show (1 : Int64).toUInt64.toNat = 1 from rfl]
  omega

lemma leaseName_injective {m n : Int64} (h : leaseName m = leaseName n) : m = n := by
  have hdigits := congrArg intValue (List.append_cancel_left h)
  rw [intValue_formatInt, intValue_formatInt] at hdigits
  exact Int64.toInt_inj.mp hdigits

variable {leaseID : GoStr}

lemma Issued.next (hseq : seq ≠ -1) (h : Issued seq leaseID) :
    Issued (seq + 1) leaseID ∧ leaseID ≠ leaseName (seq + 1) := by
  obtain ⟨n, rfl, hn⟩ := h
  have hsucc := toNat_succ hseq
  refine ⟨⟨n, rfl, by omega⟩, fun hsame => ?_⟩
  rw [leaseName_injective hsame] at hn
  omega

/-- Without an inner provider, leases are told apart by their names: the slot that has the lease of
a request is its own. -/
structure Named (l : Limiter) (granted : Table GoStr Grant) : Prop where
  slots : ∀ r slot, l.active.lookup r = some slot → Issued l.seq slot.leaseID
  grants : ∀ r g, granted.lookup r = some g → Issued l.seq g.leaseID
  distinct : ∀ r r' slot slot', l.active.lookup r = some slot → l.active.lookup r' = some slot' →
    slot.leaseID = slot'.leaseID → r = r'
  owner : ∀ r r' g slot, granted.lookup r = some g → l.active.lookup r' = some slot →
    g.leaseID = slot.leaseID → r = r'

namespace Named

variable {l : Limiter} {granted : Table GoStr Grant} {slot : LeaseSlot} {r : GoStr}

lemma mono (h : Named l granted) {l' : Limiter} {granted' : Table GoStr Grant}
    (hseq : l'.seq = l.seq) (hactive : ∀ r slot, l'.active.lookup r = some slot →
      ∃ old, l.active.lookup r = some old ∧ slot.leaseID = old.leaseID)
    (hgranted : ∀ r g, granted'.lookup r = some g → ∃ old, granted.lookup r = some old ∧ g.leaseID = old.leaseID) :
    Named l' granted' where
  slots r slot hslot := by
    obtain ⟨old, hold, hname⟩ := hactive r slot hslot
    rw [hseq, hname]
    exact h.slots r old hold
  grants r g hg := by
    obtain ⟨old, hold, hname⟩ := hgranted r g hg
    rw [hseq, hname]
    exact h.grants r old hold
  distinct r r' slot slot' hslot hslot' hsame := by
    obtain ⟨old, hold, hname⟩ := hactive r slot hslot
    obtain ⟨old', hold', hname'⟩ := hactive r' slot' hslot'
    exact h.distinct r r' old old' hold hold' (by rw [← hname, ← hname', hsame])
  owner r r' g slot hg hslot hsame := by
    obtain ⟨old, hold, hname⟩ := hgranted r g hg
    obtain ⟨old', hold', hname'⟩ := hactive r' slot hslot
    exact h.owner r r' old old' hold hold' (by rw [← hname, ← hname', hsame])

/-- A request takes the name of the slot that it has. -/
lemma grant (h : Named l granted) (hslot : l.active.lookup r = some slot) (e : Time) :
    Named l (granted.insert r ⟨slot.leaseID, e⟩) where
  slots := h.slots
  grants r' g hg := by
    rw [lookup_insert_eq] at hg
    split_ifs at hg
    · cases hg
      exact h.slots r slot hslot
    · exact h.grants r' g hg
  distinct := h.distinct
  owner r' r'' g slot' hg hslot' hsame := by
    rw [lookup_insert_eq] at hg
    split_ifs at hg with hr
    · cases hg
      rw [hr]
      exact h.distinct r r'' slot slot' hslot hslot' hsame
    · exact h.owner r' r'' g slot' hg hslot' hsame

lemma enter (h : Named l granted) (hseq : l.seq ≠ -1)
    (hname : slot.leaseID = leaseName (l.seq + 1)) :
    Named { l with active := l.active.insert r slot, seq := l.seq + 1 } granted where
  slots r' slot' hslot' := by
    rw [lookup_insert_eq] at hslot'
    split_ifs at hslot'
    · cases hslot'
      exact ⟨l.seq + 1, hname, le_rfl⟩
    · exact ((h.slots r' slot' hslot').next hseq).1
  grants r' g hg := ((h.grants r' g hg).next hseq).1
  distinct r' r'' slot' slot'' hslot' hslot'' hsame := by
    rw [lookup_insert_eq] at hslot' hslot''
    split_ifs at hslot' hslot'' with hr' hr'' hr''
    · rw [hr', hr'']
    · cases hslot'
      exact absurd (hsame.symm.trans hname) ((h.slots r'' slot'' hslot'').next hseq).2
    · cases hslot''
      exact absurd (hsame.trans hname) ((h.slots r' slot' hslot').next hseq).2
    · exact h.distinct r' r'' slot' slot'' hslot' hslot'' hsame
  owner r' r'' g slot' hg hslot' hsame := by
    rw [lookup_insert_eq] at hslot'
    split_ifs at hslot'
    · cases hslot'
      exact absurd (hsame.trans hname) ((h.grants r' g hg).next hseq).2
    · exact h.owner r' r'' g slot' hg hslot' hsame

end Named

/-- At `t`: the slots fit, and a request whose lease has not ended has a slot that does not end
before it. -/
structure Backed (limit : Int64) (t : Time) (s : System) : Prop where
  limit_eq : s.limiter.limit = limit
  size_le : size s.limiter.active ≤ limit.toInt
  slot : ∀ r g, s.granted.lookup r = some g → t < g.expiresAt →
    ∃ slot, s.limiter.active.lookup r = some slot ∧ slot.leaseID = g.leaseID ∧
    g.expiresAt ≤ slot.expiresAt
  named : s.limiter.inner = false → Named s.limiter s.granted

namespace Backed

variable {limit : Int64} {t : Time} {s : System} {slot : LeaseSlot} {r : GoStr} {now : Time}

lemma lookup_reapLocked {l : Limiter}
    (h : (l.reapLocked now).active.lookup r = some slot) : l.active.lookup r = some slot :=
    (lookup_keep.mp h).1

section

variable (h : Backed limit t s) {l' : Limiter}
include h

/-- Only slots that have ended are reaped. -/
lemma reap (hnow : now ≤ t) : Backed limit t { s with limiter := s.limiter.reapLocked now } where
  limit_eq := h.limit_eq
  size_le := (Int.ofNat_le.mpr (size_keep_le _ _)).trans h.size_le
  slot r g hg hlive := by
    obtain ⟨slot, hslot, hname, hend⟩ := h.slot r g hg hlive
    refine ⟨slot, lookup_keep.mpr ⟨hslot, ?_⟩, hname, hend⟩
    rw [Bool.or_eq_true]
    exact .inr (decide_eq_true (hnow.trans_lt (hlive.trans_le hend)))
  named hno := (h.named hno).mono rfl (fun r slot hslot => ⟨slot, lookup_reapLocked hslot, rfl⟩)
    fun r g hg => ⟨g, hg, rfl⟩

/-- A request is granted the lease of its slot. -/
lemma grant (hslot : s.limiter.active.lookup r = some slot) :
    Backed limit t { s with granted := s.granted.insert r ⟨slot.leaseID, slot.expiresAt⟩ } where
  limit_eq := h.limit_eq
  size_le := h.size_le
  slot r' g hg hlive := by
    rw [lookup_insert_eq] at hg
    split_ifs at hg with hr
    · cases hg
      exact ⟨slot, hr ▸ hslot, rfl, le_rfl⟩
    · exact h.slot r' g hg hlive
  named hno := (h.named hno).grant hslot slot.expiresAt

lemma enter (habsent : s.limiter.active.lookup r = none)
    (hroom : size s.limiter.active < s.limiter.limit.toInt)
    (hseq : s.limiter.inner = false → s.limiter.seq ≠ -1)
    (hown : s.limiter.inner = false → seq = s.limiter.seq + 1 ∧ slot.leaseID = leaseName (s.limiter.seq + 1)) :
    Backed limit t
    { s with limiter := { s.limiter with active := s.limiter.active.insert r slot, seq } } where
  limit_eq := h.limit_eq
  size_le := by
    rw [h.limit_eq] at hroom
    rw [size_insert_of_absent habsent]
    omega
  slot r' g hg hlive := by
    obtain ⟨slot', hslot', hname, hend⟩ := h.slot r' g hg hlive
    refine ⟨slot', ?_, hname, hend⟩
    rw [lookup_insert_eq, if_neg, hslot']
    rintro rfl
    rw [habsent] at hslot'
    cases hslot'
  named hno := by
    obtain ⟨rfl, hname⟩ := hown hno
    exact (h.named hno).enter (hseq hno) hname

lemma admission {reqID : GoStr} (hnow : now ≤ t)
    (hseq : s.limiter.inner = false → s.limiter.seq ≠ -1)
    {reply : Answer} (hadm : Admitted s.limiter reqID now l' reply) :
    Backed limit t (match grantOf reply with
      | none => ⟨l', s.granted⟩
      | some g => ⟨l', s.granted.insert reqID g⟩) := by
  have hreap := h.reap hnow
  cases hadm with
  | refused hl hreply =>
    rw [hreply]
    rcases hl with rfl | rfl
    · exact h
    · exact hreap
  | held slot hslot hreply =>
    rw [hreply]
    exact hreap.grant hslot
  | entered slot seq habsent hroom hreply hown hl =>
    subst hl
    have henter := hreap.enter habsent hroom hseq hown
    rcases hreply with hreply | hreply
    · rw [hreply]
      exact henter
    · rw [hreply]
      exact henter.grant (AList.lookup_insert _)

/-- Leases end anew where the slots of their requests do not end earlier. -/
lemma renew {e : Time}
    (hslots : ∀ r held, s.granted.lookup r = some held → held.leaseID = leaseID →
      ∃ slot, s.limiter.active.lookup r = some slot ∧ slot.leaseID = leaseID ∧ e ≤ slot.expiresAt) :
    Backed limit t { s with granted := mapRows (fun held =>
      if held.leaseID = leaseID then ⟨held.leaseID, e⟩ else held) s.granted } where
  limit_eq := h.limit_eq
  size_le := h.size_le
  slot r g hg hlive := by
    rw [lookup_mapRows, Option.map_eq_some_iff] at hg
    obtain ⟨held, hheld, rfl⟩ := hg
    split_ifs at hlive ⊢ with hname
    · obtain ⟨slot, hslot, hname', hend⟩ := hslots r held hheld hname
      exact ⟨slot, hslot, hname'.trans hname.symm, hend⟩
    · exact h.slot r held hheld hlive
  named hno := by
    refine (h.named hno).mono rfl (fun r slot hslot => ⟨slot, hslot, rfl⟩) fun r g hg => ?_
    rw [lookup_mapRows, Option.map_eq_some_iff] at hg
    obtain ⟨held, hheld, rfl⟩ := hg
    refine ⟨held, hheld, ?_⟩
    split_ifs <;> rfl

lemma extend (hno : s.limiter.inner = false) {r0 : GoStr} {slot' : LeaseSlot}
    (hslot : s.limiter.active.lookup r0 = some slot) (hname : slot.leaseID = leaseID)
    (hname' : slot'.leaseID = leaseID) :
    Backed limit t ⟨s.limiter.put r0 slot', mapRows (fun held =>
      if held.leaseID = leaseID then ⟨held.leaseID, slot'.expiresAt⟩ else held) s.granted⟩ where
  limit_eq := h.limit_eq
  size_le := by
    dsimp only [Limiter.put]
    rw [size_insert_of_lookup hslot]
    exact h.size_le
  slot r g hg hlive := by
    dsimp only [Limiter.put] at hg ⊢
    rw [lookup_mapRows, Option.map_eq_some_iff] at hg
    obtain ⟨held, hheld, rfl⟩ := hg
    rw [lookup_insert_eq]
    by_cases hlease : held.leaseID = leaseID
    · rw [if_pos hlease, if_pos ((h.named hno).owner r r0 held slot hheld hslot (hlease.trans hname.symm))]
      exact ⟨slot', rfl, hname'.trans hlease.symm, le_rfl⟩
    · rw [if_neg hlease] at hlive ⊢
      obtain ⟨old, hold, hown, hend⟩ := h.slot r held hheld hlive
      rw [if_neg, hold]
      · exact ⟨old, rfl, hown, hend⟩
      · rintro rfl
        cases hslot.symm.trans hold
        exact hlease (hown.symm.trans hname)
  named _ := by
    refine (h.named hno).mono rfl (fun r found hfound => ?_) fun r g hg => ?_
    · dsimp only [Limiter.put] at hfound
      rw [lookup_insert_eq] at hfound
      split_ifs at hfound with hr
      · cases hfound
        exact ⟨slot, hr ▸ hslot, hname'.trans hname.symm⟩
      · exact ⟨found, hfound, rfl⟩
    · rw [lookup_mapRows, Option.map_eq_some_iff] at hg
      obtain ⟨held, hheld, rfl⟩ := hg
      refine ⟨held, hheld, ?_⟩
      split_ifs <;> rfl

/-- Requests that a release names no longer hold a lease, and the slot that it frees is one of
theirs. -/
lemma release (input : LeaseRelease)
    (hl : l' = s.limiter ∨ ∃ reqID slot, s.limiter.active.lookup reqID = some slot ∧
      input.names reqID slot.leaseID ∧
      l' = { s.limiter with active := s.limiter.active.erase reqID }) :
    Backed limit t ⟨l', keep (fun reqID held => !input.names reqID held.leaseID) s.granted⟩ := by
  rcases hl with rfl | ⟨reqID, slot, hslot, hnamed, rfl⟩
  · exact ⟨h.limit_eq, h.size_le, fun r g hg => h.slot r g (lookup_keep.mp hg).1, fun hno => (h.named hno).mono rfl
      (fun r slot hslot => ⟨slot, hslot, rfl⟩) fun r g hg => ⟨g, (lookup_keep.mp hg).1, rfl⟩⟩
  refine ⟨h.limit_eq, ?_, fun r g hg hlive => ?_,
      fun hno => (h.named hno).mono rfl (fun r found hfound => ?_) fun r g hg =>
    ⟨g, (lookup_keep.mp hg).1, rfl⟩⟩
  · have hsize := size_erase_of_lookup hslot
    have hle := h.size_le
    dsimp only
    omega
  · obtain ⟨hg, hkept⟩ := lookup_keep.mp hg
    obtain ⟨found, hfound, hname, hend⟩ := h.slot r g hg hlive
    refine ⟨found, ?_, hname, hend⟩
    rw [lookup_erase_eq, if_neg, hfound]
    rintro rfl
    cases hslot.symm.trans hfound
    rw [← hname, hnamed] at hkept
    cases hkept
  · rw [lookup_erase_eq] at hfound
    split_ifs at hfound
    exact ⟨found, hfound, rfl⟩

lemma step {op : Op} (hok : Within s op) (hnow : ∀ now, op.now = some now → now ≤ t) :
    Backed limit t (MaxActive.step s op) := by
  cases op with
  | admitLease input now inner => exact h.admission (hnow now rfl) hok (admitLease_spec _ _ _ _)
  | renewLease input now order inner =>
    have hspec := renewLease_spec s.limiter input now order inner
    rw [MaxActive.step]
    generalize s.limiter.renewLease input now order inner = outcome at hspec ⊢
    obtain ⟨l', reply⟩ := outcome
    cases hspec with
    | forwarded hinner =>
      cases hreply : grantOf reply with
      | none =>
        dsimp only
        rw [hreply]
        exact h
      | some g =>
        dsimp only
        rw [hreply]
        exact h.renew (hok hinner g hreply)
    | refused hreply =>
      dsimp only
      rw [hreply]
      exact h
    | extended hno reqID slot slot' hslot hname hname' hreply =>
      dsimp only
      rw [hreply]
      exact h.extend hno hslot hname hname'
  | releaseLease input order inner => exact h.release input (releaseLease_spec _ _ _ _)

lemma holders_le : holders s t ≤ limit.toInt := by
  have hslots : holders s t ≤ countRows (fun _ => true) s.limiter.active := by
    refine count_le_of_subset fun r g hg hlive => ?_
    obtain ⟨slot, hslot, -⟩ := h.slot r g hg (of_decide_eq_true hlive)
    exact ⟨slot, hslot, rfl⟩
  have hsize := countRows_le_size (fun _ => true) s.limiter.active
  have hfits := h.size_le
  omega

end

end Backed

/-- In a run in which no inner provider renews a lease past the end of its slot, at most as many
requests as the limit hold a lease at any instant from the last call on. -/
theorem holders_within_limit (limit : Int64) (inner : Bool) (l₀ : Limiter)
    (hnew : newMaxActiveLimiter limit inner = some l₀) (ops : List Op)
    (hok : Meets step Within ⟨l₀, ∅⟩ ops) (t : Time)
    (hclock : ∀ op ∈ ops, ∀ now, op.now = some now → now ≤ t) :
    holders (run step ⟨l₀, ∅⟩ ops) t ≤ limit.toInt := by
  rw [newMaxActiveLimiter] at hnew
  split_ifs at hnew with hpos
  cases hnew
  rw [Int64.le_iff_toInt_le, not_le] at hpos
  have hstart : Backed limit t ⟨{ limit, inner }, ∅⟩ :=
    ⟨rfl, hpos.le, nofun, fun _ => ⟨nofun, nofun, nofun, nofun⟩⟩
  have hrun : Backed limit t (run step ⟨{ limit, inner }, ∅⟩ ops) :=
    run_induct (fun s op h hop => h.step hop.1 hop.2) hstart (hok.and_forall hclock)
      (List.prefix_refl ops)
  exact hrun.holders_le

def renewedPastSlot : List Op :=
  [.admitLease ⟨lit "a", 0⟩ unixEpoch
    ({ kind := .allow, leaseID := lit "lease-a", expiresAt := unixEpoch + 60000000000 }, none),
    .renewLease ⟨lit "lease-a", 0, 0⟩ (unixEpoch + 50000000000) .tableOrder
      ({ kind := .allow, leaseID := lit "lease-a", expiresAt := unixEpoch + 110000000000 }, none),
    .admitLease ⟨lit "b", 0⟩ (unixEpoch + 60000000000)
      ({ kind := .allow, leaseID := lit "lease-b", expiresAt := unixEpoch + 120000000000 }, none)]

/-- The slot of the first request ends at its first end, so that a second one is let in beside it.
-/
theorem holders_above_limit : newMaxActiveLimiter 1 true = some { limit := 1, inner := true } ∧
      holders (run step ⟨{ limit := 1, inner := true }, ∅⟩ renewedPastSlot)
      (unixEpoch + 60000000000) = 2 :=
  ⟨rfl, by decide +kernel⟩

def twoRequests : List Op :=
  [.admitLease ⟨lit "a", 0⟩ unixEpoch ({}, none),
    .renewLease ⟨lit "gen-lease-1", 1, 0⟩ unixEpoch .tableOrder ({}, none),
    .admitLease ⟨lit "b", 0⟩ unixEpoch ({}, none)]

theorem holders_within_one : newMaxActiveLimiter 1 false = some { limit := 1, inner := false } ∧
      (holders (run step ⟨{ limit := 1, inner := false }, ∅⟩ twoRequests) unixEpoch : ℤ) ≤ 1 := by
  have hok : Meets step Within ⟨{ limit := 1, inner := false }, ∅⟩ twoRequests :=
    ⟨fun _ => by decide, ⟨nofun, ⟨fun _ => by decide +kernel, trivial⟩⟩⟩
  exact ⟨rfl, holders_within_limit 1 false _ rfl twoRequests hok unixEpoch (by simp [twoRequests, Op.now])⟩

end InteractiveProxy.MaxActive
