import InteractiveProxy.AdmissionRing
import InteractiveProxy.GuardedRun
import InteractiveProxy.KeyedTable
import InteractiveProxy.NetAddress
import InteractiveProxy.SignedWord
import Mathlib.Algebra.BigOperators.Intervals

/-! The adaptive defense of the ingress: a bounded table of hostile addresses in shards, with a ring
of admissions in each, and the operations on it. An operation holds the lock of one shard, so that
concurrent operations are the operations of some sequence. -/
namespace InteractiveProxy.IngressDefense

open GoText KeyedTable NetAddress SignedWord

inductive Reason
  | unset
  | impossiblePath
  | authFailureThreshold

structure Policy where
  enabled : Bool
  authFailures : Int64
  failureWindow : Duration
  initialQuarantine : Duration
  maxQuarantine : Duration
  adaptiveExemptCIDRs : List Prefix

inductive PolicyError
  | authFailures (got : Int64)
  | failureWindow (got : Duration)
  | initialQuarantine (got : Duration)
  | maxQuarantine (got : Duration)
  | maxBelowInitial (initial got : Duration)
  | invalidPrefix (i : ℕ) (got : Prefix)
  | mappedPrefix (i : ℕ) (got : Prefix)
  | unmaskedPrefix (i : ℕ) (got want : Prefix)

def validateExempt (i : ℕ) (p : Prefix) : Except PolicyError Unit :=
  if p.isValid = false then .error (.invalidPrefix i p)
  else if p.ip.is4In6 then .error (.mappedPrefix i p)
  else if p ≠ p.masked then .error (.unmaskedPrefix i p p.masked)
  else .ok ()

def Policy.validate (p : Policy) : Except PolicyError Unit :=
  if p.authFailures < 1 then .error (.authFailures p.authFailures)
  else if p.failureWindow ≤ 0 then .error (.failureWindow p.failureWindow)
  else if p.initialQuarantine ≤ 0 then .error (.initialQuarantine p.initialQuarantine)
  else if p.maxQuarantine ≤ 0 then .error (.maxQuarantine p.maxQuarantine)
  else if p.maxQuarantine < p.initialQuarantine then
    .error (.maxBelowInitial p.initialQuarantine p.maxQuarantine)
  else p.adaptiveExemptCIDRs.zipIdx.forM fun (c, i) => validateExempt i c

structure StateLimits where
  maxEntries : Int64
  stateTTL : Duration

inductive LimitsError
  | maxEntries (got : Int64)
  | stateTTL (got : Duration)

def StateLimits.validate (l : StateLimits) : Except LimitsError Unit :=
  if l.maxEntries < 1 then .error (.maxEntries l.maxEntries)
  else if l.stateTTL ≤ 0 then .error (.stateTTL l.stateTTL)
  else .ok ()

structure Transition where
  quarantineStarted : Bool := false
  quarantineUntil : Time := 0
  reason : Reason := .unset
  entryCount : ℤ

def stateShardCount : ℕ := 32

def maxOffenseLevel : Int64 := 64

structure Entry where
  windowStartedAt : Time := 0
  failures : Int64 := 0
  offenseLevel : Int64 := 0
  quarantineUntil : Time := 0
  lastHostileAt : Time
  admission : UInt64

structure AdmissionSlot where
  addr : Addr
  admission : UInt64

structure Shard where
  entries : Table Addr Entry := ∅
  order : List AdmissionSlot := []
  cursor : ℕ := 0
  cap : ℕ
  count : ℤ := 0
  nextAdmission : UInt64 := 0

namespace Shard

variable (sh : Shard)

def drop (key : Addr) : Shard := { sh with entries := sh.entries.erase key, count := sh.count - 1 }

def put (key : Addr) (e : Entry) : Shard := { sh with entries := sh.entries.insert key e }

def lookup (sh : Shard) (key : Addr) (now : Time) (ttl : Duration) : Shard × Option Entry :=
  match sh.entries.lookup key with
  | none => (sh, none)
  | some found => if now.sub found.lastHostileAt < ttl then (sh, some found)
    else (sh.drop key, none)

def issueAdmission : Shard :=
  let next := sh.nextAdmission + 1
  { sh with nextAdmission := if next = 0 then next + 1 else next }

def evict (victim : AdmissionSlot) : Shard :=
  match sh.entries.lookup victim.addr with
  | none => sh
  | some live => if live.admission = victim.admission then sh.drop victim.addr else sh

def reserve (key : Addr) (admission : UInt64) : Shard :=
  if sh.order.length < sh.cap then { sh with order := sh.order ++ [⟨key, admission⟩] }
  else
    match sh.order[sh.cursor]? with
    | none => sh -- the source indexes out of range here, which its capacities exclude
    | some victim =>
      { sh with
        order := sh.order.set sh.cursor ⟨key, admission⟩
        cursor := (sh.cursor + 1) % sh.cap }.evict victim

def enroll (key : Addr) (now : Time) : Shard × Entry :=
  let sh := if (sh.entries.lookup key).isSome then sh.drop key else sh
  let sh := sh.issueAdmission
  let found : Entry := { lastHostileAt := now, admission := sh.nextAdmission }
  let sh := (sh.reserve key found.admission).put key found
  ({ sh with count := sh.count + 1 }, found)

def touch (key : Addr) (now : Time) (ttl : Duration) : Shard × Entry × Bool :=
  match sh.entries.lookup key with
  | none => let (sh, found) := sh.enroll key now; (sh, found, false)
  | some found =>
    if now.sub found.lastHostileAt < ttl then
      let found := { found with lastHostileAt := now }
      (sh.put key found, found, true)
    else let (sh, found) := sh.enroll key now; (sh, found, false)

end Shard

def nextOffenseLevel (level : Int64) : Int64 :=
  if maxOffenseLevel ≤ level then maxOffenseLevel else level + 1

/-- The loop of `quarantineDuration`. -/
def doubled (limit : Duration) : ℕ → Duration → Duration
  | 0, duration => if limit < duration then limit else duration
  | n + 1, duration =>
    if limit ≤ duration ∨ Int64.maxValue / 2 < duration then limit
    else doubled limit n (duration * 2)

def quarantineDuration (level : Int64) (initial limit : Duration) : Duration :=
  if initial ≤ 0 then limit else doubled limit (level - 1).toInt.toNat initial

def penalize (found : Entry) (now : Time) (p : Policy) : Entry :=
  let level := nextOffenseLevel found.offenseLevel
  let until' := now.add (quarantineDuration level p.initialQuarantine p.maxQuarantine)
  { found with
    offenseLevel := level
    quarantineUntil := if until' < found.quarantineUntil then found.quarantineUntil else until' }

structure State where
  limits : StateLimits
  shards : List Shard

/-- The capacity of shard `i`: what is left over goes to the first shards. -/
def shardCapacity (maxEntries shards i : ℕ) : ℕ :=
  maxEntries / shards + if i < maxEntries % shards then 1 else 0

def newState (limits : StateLimits) : Except LimitsError State := do
  limits.validate
  let maxEntries := limits.maxEntries.toInt.toNat
  let shards := min stateShardCount maxEntries
  return ⟨limits, (List.range shards).map fun i => { cap := shardCapacity maxEntries shards i }⟩

def stateKey (addr : Addr) : Option Addr := if addr.isValid then some addr.unmap else none

namespace State

variable (s : State)

def len : ℤ := (s.shards.map Shard.count).sum

def shardIndex (key : Addr) : ℕ :=
  let hash : UInt32 := key.as16.foldl (fun hash b => (hash ^^^ b.toUInt32) * 16777619) 2166136261
  hash.toNat % s.shards.length

def shardFor (key : Addr) : Shard := s.shards.getD (s.shardIndex key) { cap := 0 }

def setShard (key : Addr) (sh : Shard) : State :=
  { s with shards := s.shards.set (s.shardIndex key) sh }

def isQuarantined (addr : Addr) (now : Time) : State × Bool :=
  match stateKey addr with
  | none => (s, false)
  | some key =>
    let (sh, found) := (s.shardFor key).lookup key now s.limits.stateTTL
    (s.setShard key sh, found.any fun e => now < e.quarantineUntil)

def countFailure (found : Entry) (live : Bool) (now : Time) (p : Policy) : Entry :=
  if live = false ∨ p.failureWindow ≤ now.sub found.windowStartedAt then
    { found with windowStartedAt := now, failures := 1 }
  else { found with failures := found.failures + 1 }

def recordAuthFailure (addr : Addr) (now : Time) (p : Policy) : State × Transition :=
  if p.enabled = false then (s, { entryCount := s.len })
  else
    match stateKey addr with
    | none => (s, { entryCount := s.len })
    | some key =>
      let threshold := max p.authFailures 1
      let (sh, found, live) := (s.shardFor key).touch key now s.limits.stateTTL
      let found := countFailure found live now p
      if found.failures < threshold then
        let s := s.setShard key (sh.put key found)
        (s, { entryCount := s.len })
      else
        let found := penalize { found with failures := 0, windowStartedAt := 0 } now p
        let s := s.setShard key (sh.put key found)
        (s, ⟨true, found.quarantineUntil, .authFailureThreshold, s.len⟩)

def recordProbe (addr : Addr) (now : Time) (p : Policy) : State × Transition :=
  if p.enabled = false then (s, { entryCount := s.len })
  else
    match stateKey addr with
    | none => (s, { entryCount := s.len })
    | some key =>
      let (sh, found, _) := (s.shardFor key).touch key now s.limits.stateTTL
      let found := penalize found now p
      let s := s.setShard key (sh.put key found)
      (s, ⟨true, found.quarantineUntil, .impossiblePath, s.len⟩)

def clear (addr : Addr) : State × ℤ :=
  match stateKey addr with
  | none => (s, s.len)
  | some key =>
    let sh := s.shardFor key
    let s := s.setShard key (if (sh.entries.lookup key).isSome then sh.drop key else sh)
    (s, s.len)

end State

inductive Op
  | recordAuthFailure (addr : Addr) (now : Time) (p : Policy)
  | recordProbe (addr : Addr) (now : Time) (p : Policy)
  | isQuarantined (addr : Addr) (now : Time)
  | clear (addr : Addr)

inductive Reply
  | transition (t : Transition)
  | quarantined (b : Bool)
  | entries (n : ℤ)

def perform (s : State) : Op → State × Reply
  | .recordAuthFailure addr now p => (s.recordAuthFailure addr now p).map id .transition
  | .recordProbe addr now p => (s.recordProbe addr now p).map id .transition
  | .isQuarantined addr now => (s.isQuarantined addr now).map id .quarantined
  | .clear addr => (s.clear addr).map id .entries

def step (s : State) (op : Op) : State := (perform s op).1

open AdmissionRing GuardedRun List Shard State AdmissionSlot

/-- The admission number of the admission after `j` others: zero is left out when the counter wraps.
-/
def stamp (j : ℕ) : UInt64 := UInt64.ofNat (j % (2 ^ 64 - 1) + 1)

/-- The counter after `n` admissions. -/
def counter : ℕ → UInt64
  | 0 => 0
  | n + 1 => stamp n

lemma toNat_stamp (j : ℕ) : (stamp j).toNat = j % (2 ^ 64 - 1) + 1 := by
  rw [stamp, UInt64.toNat_ofNat']
  omega

lemma stamp_injective {cap : ℕ} (hcap : cap < 2 ^ 64) (j k : ℕ) (h : stamp j = stamp k)
    (hj : j < k + cap) (hk : k < j + cap) : j = k := by
  have hnat := congrArg UInt64.toNat h
  rw [toNat_stamp, toNat_stamp] at hnat
  omega

lemma counter_succ (n : ℕ) :
    (if counter n + 1 = 0 then counter n + 1 + 1 else counter n + 1) = counter (n + 1) := by
  cases n with
  | zero => decide
  | succ m =>
    have hnext : (stamp m + 1).toNat = (m % (2 ^ 64 - 1) + 2) % 2 ^ 64 := by
      rw [UInt64.toNat_add, toNat_stamp]
      rfl
    have hzero : stamp m + 1 = 0 ↔ (m % (2 ^ 64 - 1) + 2) % 2 ^ 64 = 0 := by
      rw [← UInt64.toNat_inj, hnext]
      rfl
    simp only [counter, hzero]
    apply UInt64.toNat_inj.mp
    split_ifs
    · rw [UInt64.toNat_add, toNat_stamp]
      change (_ + 1) % 2 ^ 64 = _
      omega
    · rw [toNat_stamp]
      omega

namespace Shard

/-- A shard after `n` admissions. -/
structure Sound (sh : Shard) (n : ℕ) : Prop where
  cap_pos : 0 < sh.cap
  cap_lt : sh.cap < 2 ^ 64
  written : Written admission stamp sh.cap n sh.order
  cursor : sh.cursor = if n < sh.cap then 0 else n % sh.cap
  next : sh.nextAdmission = counter n
  owned : ∀ key e, sh.entries.lookup key = some e → ⟨key, e.admission⟩ ∈ sh.order
  count : sh.count = size sh.entries

def vacate (sh : Shard) (key : Addr) : Shard :=
  if (sh.entries.lookup key).isSome then sh.drop key else sh

/-- The shard `r` after the slot of an admission to `sh` is taken: the entry of another address is
gone only where the ring was full and the slot owned it. -/
structure Reserved (sh : Shard) (n : ℕ) (key : Addr) (r : Shard) : Prop where
  cap : r.cap = sh.cap
  next : r.nextAdmission = stamp n
  cursor : r.cursor = if n + 1 < sh.cap then 0 else (n + 1) % sh.cap
  written : Written admission stamp sh.cap (n + 1) r.order
  slot : ⟨key, stamp n⟩ ∈ r.order
  owned : ∀ b e, r.entries.lookup b = some e → ⟨b, e.admission⟩ ∈ r.order
  count : r.count = size r.entries
  lookup : ∃ v, ∀ b, r.entries.lookup b = sh.entries.lookup b ∨
    b = v ∧ r.entries.lookup b = none ∧ sh.order.length = sh.cap

variable {sh : Shard} {n : ℕ} {key : Addr} {e : Entry}

lemma evict_cases (sh : Shard) (victim : AdmissionSlot) :
    (sh.evict victim = sh ∧ ∀ e, sh.entries.lookup victim.addr = some e → e.admission ≠ victim.admission) ∨
      ∃ e, sh.entries.lookup victim.addr = some e ∧ e.admission = victim.admission ∧
        sh.evict victim = sh.drop victim.addr := by
  rw [evict]
  cases hlive : sh.entries.lookup victim.addr with
  | none => exact .inl ⟨rfl, nofun⟩
  | some live =>
    by_cases hadm : live.admission = victim.admission
    · exact .inr ⟨live, rfl, hadm, if_pos hadm⟩
    · refine .inl ⟨if_neg hadm, ?_⟩
      rintro e ⟨⟩
      exact hadm

lemma lookup_vacate (sh : Shard) (key b : Addr) :
    (sh.vacate key).entries.lookup b = if b = key then none else sh.entries.lookup b := by
  rw [vacate]
  cases he : sh.entries.lookup key with
  | none =>
    rw [if_neg (by simp)]
    split_ifs with hb
    · rw [hb, he]
    · rfl
  | some e => exact lookup_erase_eq

lemma vacate_order (sh : Shard) (key : Addr) : (sh.vacate key).order = sh.order := by
  rw [vacate]
  split <;> rfl

lemma vacate_cap (sh : Shard) (key : Addr) : (sh.vacate key).cap = sh.cap := by
  rw [vacate]
  split <;> rfl

lemma mem_set_of_ne {order : List AdmissionSlot} {i : ℕ} {slot victim new : AdmissionSlot}
    (hslot : slot ∈ order)
    (hvictim : order[i]? = some victim) (hne : slot ≠ victim) : slot ∈ order.set i new := by
  obtain ⟨j, hj⟩ := mem_iff_getElem?.mp hslot
  refine mem_iff_getElem?.mpr ⟨j, ?_⟩
  rw [List.getElem?_set, if_neg]
  · exact hj
  · rintro rfl
    rw [hvictim] at hj
    exact hne (Option.some.inj hj).symm

section

variable (h : sh.Sound n)
include h

lemma Sound.drop (he : sh.entries.lookup key = some e) : (sh.drop key).Sound n := by
  refine ⟨h.cap_pos, h.cap_lt, h.written, h.cursor, h.next, fun b f hf => ?_, ?_⟩
  · rw [Shard.drop, lookup_erase_eq] at hf
    split_ifs at hf
    exact h.owned b f hf
  · have hsize := size_erase_of_lookup he
    simp only [Shard.drop, h.count]
    omega

lemma Sound.put (he : sh.entries.lookup key = some e) {e' : Entry}
    (hadm : e'.admission = e.admission) : (sh.put key e').Sound n := by
  refine ⟨h.cap_pos, h.cap_lt, h.written, h.cursor, h.next, fun b f hf => ?_, ?_⟩
  · rw [Shard.put, lookup_insert_eq] at hf
    split_ifs at hf with hb
    · cases hf
      rw [hb, hadm]
      exact h.owned key e he
    · exact h.owned b f hf
  · rw [Shard.put, size_insert_of_lookup he, h.count]

lemma Sound.order_length : sh.order.length = min n sh.cap := h.written.length

lemma Sound.victim (hfull : sh.cap ≤ n) : ∃ victim, sh.order[sh.cursor]? = some victim := by
  have hlen := h.order_length
  have hpos := h.cap_pos
  have hlt : sh.cursor < sh.order.length := by
    rw [h.cursor, if_neg (by omega), hlen, min_eq_right hfull]
    exact Nat.mod_lt n hpos
  exact ⟨_, List.getElem?_eq_getElem hlt⟩

lemma Sound.vacate (key : Addr) : (sh.vacate key).Sound n := by
  rw [Shard.vacate]
  cases he : sh.entries.lookup key with
  | none => exact h
  | some e => exact h.drop he

lemma issueAdmission_next : sh.issueAdmission.nextAdmission = stamp n := by
  change (if sh.nextAdmission + 1 = 0 then sh.nextAdmission + 1 + 1 else sh.nextAdmission + 1) = _
  rw [h.next]
  exact counter_succ n

lemma enroll_eq (key : Addr) (now : Time) : sh.enroll key now =
      (let e : Entry := { lastHostileAt := now, admission := stamp n }
        let r := ((sh.vacate key).issueAdmission.reserve key (stamp n)).put key e
        { r with count := r.count + 1 }, { lastHostileAt := now, admission := stamp n }) := by
  have hnext := issueAdmission_next (h.vacate key)
  rw [← hnext]
  rfl

lemma Sound.reserved_filling (hfull : n < sh.cap) :
    Reserved sh n key (sh.issueAdmission.reserve key (stamp n)) := by
  have hlen := h.order_length
  have hfilling : sh.issueAdmission.reserve key (stamp n) =
      { sh.issueAdmission with order := sh.order ++ [⟨key, stamp n⟩] } := by
    have hroom : sh.issueAdmission.order.length < sh.issueAdmission.cap := by
      change sh.order.length < sh.cap
      omega
    exact if_pos hroom
  rw [hfilling]
  refine ⟨rfl, issueAdmission_next h, ?_, h.written.append hfull rfl,
    mem_append_right _ (mem_singleton_self _), fun b e he => mem_append_left _ (h.owned b e he),
    h.count, key, fun b => .inl rfl⟩
  change sh.cursor = _
  rw [h.cursor]
  split_ifs
  · rfl
  · rw [show n + 1 = sh.cap by omega, Nat.mod_self]

lemma Sound.reserved_full (hfull : sh.cap ≤ n) :
    Reserved sh n key (sh.issueAdmission.reserve key (stamp n)) := by
  have hlen : sh.order.length = sh.cap := by
    rw [h.order_length]
    omega
  have hpos := h.cap_pos
  have hcursor : sh.cursor = n % sh.cap := by
    rw [h.cursor, if_neg (by omega)]
  obtain ⟨victim, hvictim⟩ := h.victim hfull
  let taken : Shard :=
    { sh.issueAdmission with
      order := sh.order.set sh.cursor ⟨key, stamp n⟩
      cursor := (sh.cursor + 1) % sh.cap }
  have htaken : sh.issueAdmission.reserve key (stamp n) = taken.evict victim := by
    have hroom : ¬ sh.issueAdmission.order.length < sh.issueAdmission.cap := by
      change ¬ sh.order.length < sh.cap
      omega
    have hplace : sh.issueAdmission.order[sh.issueAdmission.cursor]? = some victim := hvictim
    rw [reserve, if_neg hroom, hplace]
    rfl
  have hwritten : Written admission stamp sh.cap (n + 1) taken.order := by
    change Written _ _ _ _ (sh.order.set sh.cursor _)
    rw [hcursor]
    exact h.written.set hfull hpos rfl
  have hmod : (sh.cursor + 1) % sh.cap = if n + 1 < sh.cap then 0 else (n + 1) % sh.cap := by
    rw [if_neg (by omega), hcursor, Nat.mod_add_mod]
  have hslot : (⟨key, stamp n⟩ : AdmissionSlot) ∈ taken.order := by
    refine mem_iff_getElem?.mpr ⟨sh.cursor, ?_⟩
    rw [List.getElem?_set, if_pos rfl, if_pos]
    rw [hlen, hcursor]
    exact Nat.mod_lt n hpos
  have howned : ∀ b e, sh.entries.lookup b = some e → (⟨b, e.admission⟩ : AdmissionSlot) ≠ victim →
      ⟨b, e.admission⟩ ∈ taken.order := fun b e he hne => mem_set_of_ne (h.owned b e he) hvictim hne
  rw [htaken]
  rcases taken.evict_cases victim with ⟨heq, hkeep⟩ | ⟨e, he, hadm, heq⟩
  · rw [heq]
    refine ⟨rfl, issueAdmission_next h, hmod, hwritten, hslot, fun b e he => ?_, h.count, key, fun b => .inl rfl⟩
    refine howned b e he ?_
    rintro rfl
    exact hkeep e he rfl
  · rw [heq]
    refine ⟨rfl, issueAdmission_next h, hmod, hwritten, hslot, fun b f hf => ?_, ?_, victim.addr, fun b => ?_⟩
    · change (sh.entries.erase victim.addr).lookup b = some f at hf
      rw [lookup_erase_eq] at hf
      split_ifs at hf with hb
      refine howned b f hf ?_
      rintro rfl
      exact hb rfl
    · have hsize := size_erase_of_lookup he
      change sh.count - 1 = (size (sh.entries.erase victim.addr) : ℤ)
      change size (sh.entries.erase victim.addr) + 1 = size sh.entries at hsize
      rw [h.count]
      omega
    · change (sh.entries.erase victim.addr).lookup b = _ ∨ _ ∧
        (sh.entries.erase victim.addr).lookup b = none ∧ _
      rw [lookup_erase_eq]
      split_ifs with hb
      · exact .inr ⟨hb, rfl, hlen⟩
      · exact .inl rfl

lemma Sound.reserved (key : Addr) :
    Reserved sh n key (sh.issueAdmission.reserve key (stamp n)) := by
  by_cases hfull : sh.cap ≤ n
  · exact h.reserved_full hfull
  · exact h.reserved_filling (by omega)

end

/-- What an operation on `key` does to its shard, as others see it: at most one entry of another
address is gone, and only where the ring was full. -/
structure Effect (key : Addr) (sh sh' : Shard) : Prop where
  cap : sh'.cap = sh.cap
  sound : ∃ n, sh'.Sound n
  others : ∃ v, ∀ b ≠ key, sh'.entries.lookup b = sh.entries.lookup b ∨
    b = v ∧ sh'.entries.lookup b = none ∧ sh.order.length = sh.cap

/-- A change of the entry behind another effect on the same address. -/
lemma Effect.put {sh' : Shard} (h : Effect key sh sh') (he : sh'.entries.lookup key = some e)
    {e' : Entry} (hadm : e'.admission = e.admission) : Effect key sh (sh'.put key e') := by
  obtain ⟨n, hsound⟩ := h.sound
  obtain ⟨v, hothers⟩ := h.others
  refine ⟨h.cap, ⟨n, hsound.put he hadm⟩, v, fun b hb => ?_⟩
  rw [Shard.put, lookup_insert_eq, if_neg hb]
  exact hothers b hb

variable (h : sh.Sound n)
include h

lemma Sound.effect_refl (key : Addr) : Effect key sh sh := ⟨rfl, ⟨n, h⟩, key, fun _ _ => .inl rfl⟩

lemma Sound.effect_drop (he : sh.entries.lookup key = some e) : Effect key sh (sh.drop key) := by
  refine ⟨rfl, ⟨n, h.drop he⟩, key, fun b hb => .inl ?_⟩
  rw [Shard.drop, lookup_erase_eq, if_neg hb]

variable (key : Addr) (now : Time)

lemma Sound.effect_enroll : Effect key sh (sh.enroll key now).1 ∧
      (sh.enroll key now).1.entries.lookup key = some (sh.enroll key now).2 := by
  have hvacant := h.vacate key
  have hnone : (sh.vacate key).entries.lookup key = none := by rw [lookup_vacate, if_pos rfl]
  have hr := hvacant.reserved key
  obtain ⟨v, hlookup⟩ := hr.lookup
  have habsent :
      ((sh.vacate key).issueAdmission.reserve key (stamp n)).entries.lookup key = none := by
    rcases hlookup key with hsame | ⟨-, hgone, -⟩
    · rw [hsame, hnone]
    · exact hgone
  have hcap : (sh.vacate key).cap = sh.cap := vacate_cap sh key
  rw [enroll_eq h]
  refine ⟨⟨hr.cap.trans hcap, ⟨n + 1, ?_⟩, v, fun b hb => ?_⟩, AList.lookup_insert _⟩
  · refine ⟨?_, ?_, ?_, ?_, hr.next, fun b f hf => ?_, ?_⟩
    · exact hr.cap ▸ hvacant.cap_pos
    · exact hr.cap ▸ hvacant.cap_lt
    · exact hr.cap.symm ▸ hr.written
    · exact hr.cap.symm ▸ hr.cursor
    · dsimp only [Shard.put] at hf
      rw [lookup_insert_eq] at hf
      split_ifs at hf with hb
      · cases hf
        rw [hb]
        exact hr.slot
      · exact hr.owned b f hf
    · have hsize : size (((sh.vacate key).issueAdmission.reserve key (stamp n)).entries.insert key
          { lastHostileAt := now, admission := stamp n }) = _ := size_insert_of_absent habsent
      dsimp only [Shard.put]
      rw [hr.count]
      omega
  · change (AList.insert key _ _).lookup b = _ ∨ b = v ∧ (AList.insert key _ _).lookup b = none ∧ _
    rw [lookup_insert_eq, if_neg hb]
    have hsame :
      (sh.vacate key).entries.lookup b = sh.entries.lookup b := by rw [lookup_vacate, if_neg hb]
    have hlookup := hlookup b
    rwa [hsame, vacate_order, hcap] at hlookup

lemma Sound.effect_touch (ttl : Duration) : Effect key sh (sh.touch key now ttl).1 ∧
      (sh.touch key now ttl).1.entries.lookup key = some (sh.touch key now ttl).2.1 := by
  rw [touch]
  cases he : sh.entries.lookup key with
  | none => exact h.effect_enroll key now
  | some found =>
    dsimp only
    split_ifs
    · exact ⟨(h.effect_refl key).put he rfl, AList.lookup_insert _⟩
    · exact h.effect_enroll key now

lemma Sound.effect_lookup (ttl : Duration) : Effect key sh (sh.lookup key now ttl).1 := by
  rw [lookup]
  cases he : sh.entries.lookup key with
  | none => exact h.effect_refl key
  | some found =>
    dsimp only
    split_ifs
    · exact h.effect_refl key
    · exact h.effect_drop he

end Shard

namespace State

def entry (s : State) (key : Addr) : Option Entry := (s.shardFor key).entries.lookup key

structure Sound (s : State) : Prop where
  shards_pos : 0 < s.shards.length
  shards : ∀ sh ∈ s.shards, ∃ n, sh.Sound n

variable {s : State} {key : Addr}

lemma shardIndex_lt (h : 0 < s.shards.length) (key : Addr) : s.shardIndex key < s.shards.length :=
  Nat.mod_lt _ h

lemma shardFor_eq (h : 0 < s.shards.length) (key : Addr) :
    s.shards[s.shardIndex key]? = some (s.shardFor key) := by
  rw [shardFor, getD_eq_getElem?_getD, List.getElem?_eq_getElem (shardIndex_lt h key)]
  rfl

lemma Sound.shardFor (h : s.Sound) (key : Addr) : ∃ n, (s.shardFor key).Sound n :=
  h.shards _ (mem_of_getElem? (shardFor_eq h.shards_pos key))

variable {sh : Shard}

lemma Sound.setShard (h : s.Sound) {n : ℕ} (hsh : sh.Sound n) : (s.setShard key sh).Sound := by
  refine ⟨by rw [State.setShard, length_set]; exact h.shards_pos, fun sh' hmem => ?_⟩
  rcases mem_or_eq_of_mem_set hmem with hmem | rfl
  · exact h.shards sh' hmem
  · exact ⟨n, hsh⟩

lemma setShard_caps (h : 0 < s.shards.length) (hcap : sh.cap = (s.shardFor key).cap) :
    (s.setShard key sh).shards.map cap = s.shards.map cap := by
  rw [setShard, map_set, hcap]
  have hget : (s.shards.map cap)[s.shardIndex key]? = some (s.shardFor key).cap := by
    rw [List.getElem?_map, shardFor_eq h key]
    rfl
  obtain ⟨hlt, hval⟩ := List.getElem?_eq_some_iff.mp hget
  rw [← hval, List.set_getElem_self]

lemma shardFor_setShard (h : 0 < s.shards.length) (key b : Addr) (sh : Shard) :
    (s.setShard key sh).shardFor b = if s.shardIndex b = s.shardIndex key then sh
      else s.shardFor b := by
  have hlt := shardIndex_lt h key
  have hindex : (s.setShard key sh).shardIndex b = s.shardIndex b := by
    rw [shardIndex, shardIndex, setShard, length_set]
  rw [shardFor, hindex, setShard, getD_eq_getElem?_getD, List.getElem?_set]
  split_ifs with hb hb' hb'
  · rfl
  · exact absurd hb.symm hb'
  · exact absurd hb'.symm hb
  · rw [shardFor, getD_eq_getElem?_getD]

/-- What an operation on `key` does, as others see it. -/
structure Effect (key : Addr) (s s' : State) : Prop where
  sound : s'.Sound
  limits : s'.limits = s.limits
  caps : s'.shards.map cap = s.shards.map cap
  others : ∃ v, ∀ b ≠ key, s'.entry b = s.entry b ∨
    b = v ∧ s'.entry b = none ∧ (s.shardFor b).order.length = (s.shardFor b).cap

lemma Sound.effect_refl (h : s.Sound) (key : Addr) : Effect key s s :=
  ⟨h, rfl, rfl, key, fun _ _ => .inl rfl⟩

lemma Sound.effect_setShard (h : s.Sound) (hsh : Shard.Effect key (s.shardFor key) sh) :
    Effect key s (s.setShard key sh) := by
  obtain ⟨n, hsound⟩ := hsh.sound
  obtain ⟨v, hothers⟩ := hsh.others
  refine ⟨h.setShard hsound, rfl, setShard_caps h.shards_pos hsh.cap, v, fun b hb => ?_⟩
  rw [entry, shardFor_setShard h.shards_pos]
  split_ifs with hindex
  · have hsame : s.shardFor key = s.shardFor b := by rw [State.shardFor, ← hindex, State.shardFor]
    rw [hsame] at hothers
    exact hothers b hb
  · exact .inl rfl

end State

def Op.target : Op → Addr
  | .recordAuthFailure addr _ _ => addr
  | .recordProbe addr _ _ => addr
  | .isQuarantined addr _ => addr
  | .clear addr => addr

/-- What a hostile event at `now` makes of the entry `found`: the deadline of the entry is the one
that is reported. -/
structure Recorded (found : Entry) (now : Time) (p : Policy) (e : Entry) (t : Transition) :
    Prop where
  admission : e.admission = found.admission
  lastHostileAt : e.lastHostileAt = found.lastHostileAt
  deadline : t.quarantineStarted = false ∧ e.quarantineUntil = found.quarantineUntil ∨
    t.quarantineStarted ∧ t.quarantineUntil = e.quarantineUntil ∧
      e.offenseLevel = nextOffenseLevel found.offenseLevel ∧
      e.quarantineUntil = max found.quarantineUntil
        (now.add (quarantineDuration (nextOffenseLevel found.offenseLevel) p.initialQuarantine p.maxQuarantine))

def Op.record : Op → Option (Time × Policy)
  | .recordAuthFailure _ now p => some (now, p)
  | .recordProbe _ now p => some (now, p)
  | _ => none

lemma penalize_quarantineUntil (found : Entry) (now : Time) (p : Policy) :
    (penalize found now p).quarantineUntil = max found.quarantineUntil
      (now.add (quarantineDuration (nextOffenseLevel found.offenseLevel) p.initialQuarantine p.maxQuarantine)) := by
  simp only [penalize]
  split_ifs with h
  · exact (max_eq_left h.le).symm
  · exact (max_eq_right (not_lt.mp h)).symm

lemma countFailure_spec (found : Entry) (live : Bool) (now : Time) (p : Policy) :
    let e := countFailure found live now p
    e.admission = found.admission ∧ e.lastHostileAt = found.lastHostileAt ∧
      e.quarantineUntil = found.quarantineUntil ∧ e.offenseLevel = found.offenseLevel := by
  rw [countFailure]
  split_ifs <;> exact ⟨rfl, rfl, rfl, rfl⟩

variable {s : State} {op : Op} {now : Time} {limits : StateLimits} {p : Policy} {addr : Addr}

lemma perform_record (h : op.record = some (now, p)) {key : Addr}
    (hkey : stateKey op.target = some key) (henabled : p.enabled) :
    ∃ e t, Recorded ((s.shardFor key).touch key now s.limits.stateTTL).2.1 now p e t ∧
      perform s op =
        (s.setShard key (((s.shardFor key).touch key now s.limits.stateTTL).1.put key e), .transition t) := by
  cases op with
  | recordAuthFailure addr now' p' =>
    obtain ⟨rfl, rfl⟩ := Prod.mk.inj (Option.some.inj h)
    change stateKey addr = some key at hkey
    obtain ⟨hadm, hlast, huntil, hlevel⟩ :=
      countFailure_spec ((s.shardFor key).touch key now' s.limits.stateTTL).2.1
      ((s.shardFor key).touch key now' s.limits.stateTTL).2.2 now' p'
    simp only [perform, recordAuthFailure, henabled, hkey, Bool.true_eq_false, if_false]
    split_ifs
    · refine ⟨_, _, ?_, rfl⟩
      exact ⟨hadm, hlast, .inl ⟨rfl, huntil⟩⟩
    · refine ⟨_, _, ?_, rfl⟩
      refine ⟨hadm, hlast, .inr ⟨rfl, rfl, ?_, ?_⟩⟩
      · exact congrArg nextOffenseLevel hlevel
      · rw [penalize_quarantineUntil, ← huntil, ← hlevel]
  | recordProbe addr now' p' =>
    obtain ⟨rfl, rfl⟩ := Prod.mk.inj (Option.some.inj h)
    change stateKey addr = some key at hkey
    simp only [perform, recordProbe, henabled, hkey]
    refine ⟨_, _, ?_, rfl⟩
    exact ⟨rfl, rfl, .inr ⟨rfl, rfl, rfl, penalize_quarantineUntil _ _ _⟩⟩
  | isQuarantined addr now' => cases h
  | clear addr => cases h

lemma perform_none (h : stateKey op.target = none) : (perform s op).1 = s := by
  cases op <;> simp only [Op.target] at h <;>
    simp [perform, recordAuthFailure, recordProbe, isQuarantined, clear, h]

lemma perform_disabled (h : op.record = some (now, p)) (hoff : p.enabled = false) :
    ∃ n, perform s op = (s, .transition { entryCount := n }) := by
  refine ⟨s.len, ?_⟩
  cases op <;> simp_all [Op.record, perform, recordAuthFailure, recordProbe]

lemma perform_isQuarantined {key : Addr} (hkey : stateKey addr = some key) :
    perform s (.isQuarantined addr now) =
      (s.setShard key ((s.shardFor key).lookup key now s.limits.stateTTL).1,
        .quarantined (((s.shardFor key).lookup key now s.limits.stateTTL).2.any fun e => now < e.quarantineUntil)) := by
  simp only [perform, isQuarantined, hkey]
  rfl

lemma perform_clear {key : Addr} (hkey : stateKey addr = some key) :
    (perform s (.clear addr)).1 = s.setShard key ((s.shardFor key).vacate key) := by
  simp only [perform, clear, hkey]
  rfl

namespace State.Sound

variable {s : State} {key : Addr}

lemma effect_step (h : s.Sound) (hkey : stateKey op.target = some key) :
    Effect key s (step s op) := by
  obtain ⟨n, hsh⟩ := h.shardFor key
  have hrecord : ∀ {now p}, op.record = some (now, p) → Effect key s (step s op) := by
    intro now p hrec
    cases henabled : p.enabled with
    | false =>
      obtain ⟨m, hsame⟩ := perform_disabled hrec henabled
      rw [step, hsame]
      exact h.effect_refl key
    | true =>
      obtain ⟨e, t, hentry, hperform⟩ := perform_record hrec hkey henabled
      obtain ⟨htouch, hlookup⟩ := hsh.effect_touch key now s.limits.stateTTL
      rw [step, hperform]
      exact h.effect_setShard (htouch.put hlookup hentry.admission)
  cases op with
  | recordAuthFailure addr now p => exact hrecord rfl
  | recordProbe addr now p => exact hrecord rfl
  | isQuarantined addr now =>
    change stateKey addr = some key at hkey
    rw [step, perform_isQuarantined hkey]
    exact h.effect_setShard (hsh.effect_lookup key now _)
  | clear addr =>
    change stateKey addr = some key at hkey
    rw [step, perform_clear hkey]
    refine h.effect_setShard ?_
    rw [vacate]
    cases he : (s.shardFor key).entries.lookup key with
    | none => exact hsh.effect_refl key
    | some e => exact hsh.effect_drop he

/-- An operation keeps the shards sound and their capacities. -/
lemma step (h : s.Sound) (op : Op) :
    (IngressDefense.step s op).Sound ∧ (IngressDefense.step s op).limits = s.limits ∧
      (IngressDefense.step s op).shards.map cap = s.shards.map cap := by
  cases hkey : stateKey op.target with
  | none =>
    rw [IngressDefense.step, perform_none hkey]
    exact ⟨h, rfl, rfl⟩
  | some key =>
    have heffect := h.effect_step hkey
    exact ⟨heffect.sound, heffect.limits, heffect.caps⟩

end State.Sound

lemma sum_shardCapacity (q r n : ℕ) :
    ((range n).map fun i => q + if i < r then 1 else 0).sum = n * q + min n r := by
  induction n with
  | zero => simp
  | succ n ih =>
    rw [range_succ, map_append, sum_append, Nat.succ_mul]
    simp only [map_cons, map_nil, sum_cons, sum_nil]
    split_ifs <;> omega

lemma newState_ok (h : newState limits = .ok s) :
    1 ≤ limits.maxEntries.toInt ∧ 0 < limits.stateTTL.toInt ∧
      s = ⟨limits, (range (min stateShardCount limits.maxEntries.toInt.toNat)).map fun i =>
        { cap := shardCapacity limits.maxEntries.toInt.toNat
            (min stateShardCount limits.maxEntries.toInt.toNat) i }⟩ := by
  rw [newState, seq_eq_ok] at h
  obtain ⟨hvalid, hs⟩ := h
  rw [StateLimits.validate] at hvalid
  split_ifs at hvalid with hmax httl
  rw [Int64.lt_iff_toInt_lt] at hmax
  rw [Int64.le_iff_toInt_le] at httl
  exact ⟨not_lt.mp hmax, not_le.mp httl, (Except.ok.inj hs).symm⟩

lemma newState_sound (h : newState limits = .ok s) :
    s.Sound ∧ s.limits = limits ∧ (s.shards.map cap).sum = limits.maxEntries.toInt.toNat := by
  obtain ⟨hmax, -, rfl⟩ := newState_ok h
  have hfits := (fits_toInt limits.maxEntries).2
  generalize hm : limits.maxEntries.toInt.toNat = m
  have hpos : 0 < min stateShardCount m := by
    rw [lt_min_iff]
    exact ⟨by decide, by omega⟩
  have hdiv := Nat.div_add_mod m (min stateShardCount m)
  have hmod := Nat.mod_lt m hpos
  refine ⟨⟨?_, fun sh hsh => ?_⟩, rfl, ?_⟩
  · rw [length_map, length_range]
    exact hpos
  · obtain ⟨i, -, rfl⟩ := mem_map.mp hsh
    refine ⟨0, ?_, ?_, written_nil, by simp, rfl, fun key e he => absurd he (by simp), rfl⟩
    · have hone : 0 < m / min stateShardCount m := Nat.div_pos (min_le_right _ _) hpos
      exact Nat.lt_of_lt_of_le hone (Nat.le_add_right _ _)
    · have hle : m / min stateShardCount m ≤ m := Nat.div_le_self _ _
      change m / min stateShardCount m + (if i < m % min stateShardCount m then 1 else 0) < 2 ^ 64
      split_ifs <;> omega
  · rw [map_map]
    change ((range (min stateShardCount m)).map fun i =>
      m / min stateShardCount m + if i < m % min stateShardCount m then 1 else 0).sum = m
    rw [sum_shardCapacity, min_eq_right hmod.le]
    exact hdiv

lemma run_sound (h : s.Sound) (ops : List Op) : (run step s ops).Sound ∧
      (run step s ops).limits = s.limits ∧ (run step s ops).shards.map cap = s.shards.map cap := by
  induction ops generalizing s with
  | nil => exact ⟨h, rfl, rfl⟩
  | cons op ops ih =>
    obtain ⟨hstep, hlimits, hcaps⟩ := h.step op
    obtain ⟨hrun, hlimits', hcaps'⟩ := ih hstep
    exact ⟨hrun, hlimits'.trans hlimits, hcaps'.trans hcaps⟩

lemma Shard.Sound.size_le {sh : Shard} {n : ℕ} (h : sh.Sound n) :
    size sh.entries ≤ sh.order.length := by
  have hkeys : size sh.entries ≤ (sh.order.map addr).length :=
    size_le_of_keys fun key e he => mem_map.mpr ⟨_, h.owned key e he, rfl⟩
  rwa [length_map] at hkeys

lemma Shard.Sound.owner_unique {sh : Shard} {n : ℕ} (h : sh.Sound n) {key : Addr} {e : Entry}
    (he : sh.entries.lookup key = some e) : ∃! i :
    ℕ, sh.order[i]? = some (AdmissionSlot.mk key e.admission) := by
  obtain ⟨i, hi⟩ := mem_iff_getElem?.mp (h.owned key e he)
  exact ⟨i, hi, fun j hj => h.written.unique (stamp_injective h.cap_lt) hj hi rfl⟩

/-- The state stays bounded: counts are exact, entries and rings fit into the capacities, and every
entry is owned by one slot of the ring. -/
theorem defense_state_bounded (limits : StateLimits) (s₀ : State) (hnew : newState limits = .ok s₀)
    (ops : List Op) : let s := run step s₀ ops
    (∀ sh ∈ s.shards, sh.count = size sh.entries ∧ sh.count ≤ sh.cap ∧ sh.order.length ≤ sh.cap ∧
      ∀ key e, sh.entries.lookup key = some e → ∃! i :
      ℕ, sh.order[i]? = some (AdmissionSlot.mk key e.admission)) ∧
      ((s.shards.map fun sh => size sh.entries).sum : ℤ) ≤ limits.maxEntries.toInt := by
  obtain ⟨hsound₀, -, hcaps₀⟩ := newState_sound hnew
  obtain ⟨hsound, -, hcaps⟩ := run_sound hsound₀ ops
  have hshard : ∀ sh ∈ (run step s₀ ops).shards, size sh.entries ≤ sh.cap ∧
      sh.order.length ≤ sh.cap := by
    intro sh hsh
    obtain ⟨n, h⟩ := hsound.shards sh hsh
    have hring : sh.order.length ≤ sh.cap := by
      rw [h.order_length]
      exact min_le_right _ _
    exact ⟨h.size_le.trans hring, hring⟩
  refine ⟨fun sh hsh => ?_, ?_⟩
  · obtain ⟨n, h⟩ := hsound.shards sh hsh
    obtain ⟨hsize, hring⟩ := hshard sh hsh
    exact ⟨h.count, by rw [h.count]; exact_mod_cast hsize, hring, fun key e he => h.owner_unique he⟩
  · have hsum : ((run step s₀ ops).shards.map fun sh => size sh.entries).sum ≤
        ((run step s₀ ops).shards.map cap).sum :=
      sum_le_sum fun sh hsh => (hshard sh hsh).1
    rw [hcaps] at hsum
    obtain ⟨hmax, -, -⟩ := newState_ok hnew
    omega

def smallLimits : StateLimits := ⟨64, 86400000000000⟩

def defaultPolicy : Policy := ⟨true, 5, 60000000000, 60000000000, 7200000000000, []⟩

/-- The address 203.0.113.`x`. -/
def testAddr (x : ℕ) : Addr := .v4 (BitVec.ofNat 32 (0xCB007100 + x))

def smallState : State := ⟨smallLimits, (range 32).map fun _ => { cap := 2 }⟩

lemma newState_small : newState smallLimits = .ok smallState := rfl

/-- Four addresses of one shard: two clears leave its ring full of slots that own nothing, and the
fourth admission takes the slot of the second address. -/
def staleSlots : List Op :=
  [.recordProbe (testAddr 1) unixEpoch defaultPolicy, .recordProbe (testAddr 33) unixEpoch defaultPolicy,
    .clear (testAddr 1), .recordProbe (testAddr 65) unixEpoch defaultPolicy, .clear (testAddr 65)]

theorem defense_state_bounded_small : newState smallLimits = .ok smallState ∧
    ((run step smallState staleSlots).entry (testAddr 33)).isSome ∧
    (((run step smallState staleSlots).shards.map fun sh => size sh.entries).sum : ℤ) ≤ 64 :=
  ⟨newState_small, by decide +kernel, (defense_state_bounded smallLimits smallState newState_small staleSlots).2⟩

/-- An operation leaves the entries of other addresses as they are, but for one that it may remove
when the ring of the shard is full. -/
theorem operation_frame (limits : StateLimits) (s₀ : State) (hnew : newState limits = .ok s₀)
    (ops : List Op) (op : Op) : let s := run step s₀ ops
    (∃ v, ∀ b, stateKey op.target ≠ some b → (step s op).entry b = s.entry b ∨
      b = v ∧ (step s op).entry b = none ∧ (s.shardFor b).order.length = (s.shardFor b).cap) ∧
      ∀ b, stateKey op.target ≠ some b → ∀ e, (step s op).entry b = some e →
        s.entry b = some e := by
  obtain ⟨hsound, -, -⟩ := run_sound (newState_sound hnew).1 ops
  have hframe : ∃ v, ∀ b, stateKey op.target ≠ some b →
      (step (run step s₀ ops) op).entry b = (run step s₀ ops).entry b ∨
      b = v ∧ (step (run step s₀ ops) op).entry b = none ∧
        ((run step s₀ ops).shardFor b).order.length = ((run step s₀ ops).shardFor b).cap := by
    cases hkey : stateKey op.target with
    | none => exact ⟨.invalid, fun b _ => .inl (by rw [step, perform_none hkey])⟩
    | some key =>
      obtain ⟨v, hothers⟩ := (hsound.effect_step hkey).others
      exact ⟨v, fun b hb => hothers b fun heq => hb (heq ▸ rfl)⟩
  refine ⟨hframe, fun b hb e he => ?_⟩
  obtain ⟨v, hothers⟩ := hframe
  rcases hothers b hb with hsame | ⟨-, hgone, -⟩
  · rw [← hsame]
    exact he
  · rw [hgone] at he
    cases he

theorem operation_frame_small : newState smallLimits = .ok smallState ∧
    let s := run step smallState staleSlots
    let s' := step s (.recordProbe (testAddr 97) unixEpoch defaultPolicy)
    (s'.entry (testAddr 97)).isSome = true ∧
      ∀ b, stateKey (testAddr 97) ≠ some b → ∀ e, s'.entry b = some e → s.entry b = some e :=
  ⟨newState_small, by decide +kernel, (operation_frame smallLimits smallState newState_small staleSlots
    (.recordProbe (testAddr 97) unixEpoch defaultPolicy)).2⟩

/-- The second address loses its entry while its shard has room for another. -/
theorem removed_below_capacity : newState smallLimits = .ok smallState ∧
      ((run step smallState staleSlots).entry (testAddr 33)).isSome ∧
      (step (run step smallState staleSlots)
        (.recordProbe (testAddr 97) unixEpoch defaultPolicy)).entry (testAddr 33) = none ∧
      ((run step smallState staleSlots).shardFor (testAddr 33)).count = 1 ∧
      ((run step smallState staleSlots).shardFor (testAddr 33)).cap = 2 := by
  have hbefore : ((run step smallState staleSlots).entry (testAddr 33)).isSome := by decide +kernel
  have hafter : ((step (run step smallState staleSlots)
      (.recordProbe (testAddr 97) unixEpoch defaultPolicy)).entry (testAddr 33)).isNone =
      true := by decide +kernel
  exact ⟨newState_small, hbefore, Option.isNone_iff_eq_none.mp hafter, by decide +kernel, by decide +kernel⟩

end InteractiveProxy.IngressDefense
