import InteractiveProxy.AllocationConservation
import InteractiveProxy.DepthFirst

/-! The resolution of a history of allocation records: every record is effective, superseded or
pending, and when fingerprints tell the records of one identity apart the order and the number of
copies of the records do not matter. -/
namespace InteractiveProxy.Economics

open GoText GuardedRun Metering KeySort JsonEncoding DepthFirst AllocationRecord

/-- What a record is known by; `allocationSupersessionNode`. -/
structure Node where
  storeID : GoStr
  id : GoStr
  version : ℕ
  deriving DecidableEq

namespace Node

def key (n : Node) : GoStr := n.storeID ++ lit ":" ++ n.id ++ lit ":" ++ formatNat n.version

def sortKey (n : Node) : GoStr := n.storeID ++ [0] ++ n.id ++ [0] ++ formatNat n.version

/-- The order in which `sort.Slice` puts nodes. -/
def order (n : Node) : List ℕ := textOrder n.sortKey

def lineage (n : Node) : GoStr × GoStr := (n.storeID, n.id)

end Node

/-- `allocationSupersessionLineage.sortKey`. -/
def lineageSortKey (l : GoStr × GoStr) : GoStr := l.1 ++ [0] ++ l.2

def AllocationRecord.node (r : AllocationRecord) : Node :=
  ⟨r.sourceSubject.storeID, r.id, r.version⟩

def RecordRef.node (r : RecordRef) : Node := ⟨r.storeID, r.recordID, r.version⟩

def allocationRefSortKey (r : RecordRef) : GoStr := r.node.sortKey ++ [0] ++ r.payloadHash

inductive SupersessionError
  | canonical (cause : AllocationError)
  | conflict (detail : GoStr)
  | cycle (detail : GoStr)
  | scopeMismatch (detail : GoStr)
  | fork (detail : GoStr)
  | outOfFuel

inductive SupersessionStatus
  | resolved
  | pending

structure SupersessionResult where
  status : SupersessionStatus
  records : List AllocationRecord
  effective : List AllocationRecord
  pending : List RecordRef
  pendingSupersedes : List RecordRef
  superseded : List RecordRef
  complete : Bool
  payable : Bool

def encodable (c : AllocationRecord) : Bool :=
  (encodeTime c.createdAt.instant).isSome && c.sourceSubject.marshal.isSome &&
    c.targets.all fun t => t.target = SubjectRef.empty || t.target.marshal.isSome

section Resolution

-- The SHA-256 sum, in hex, of the JSON of a canonical record.
variable (digest : AllocationRecord → GoStr) (table : PrintTable)

/-- `Fingerprint`: empty when the record has no canonical form or that form cannot be written. -/
def fingerprint (r : AllocationRecord) : GoStr :=
  match canonical table r with
  | .ok c => if encodable c then digest c else []
  | .error _ => []

def collectKnown :
    List AllocationRecord → List AllocationRecord → Except SupersessionError (List AllocationRecord)
  | known, [] => .ok known
  | known, raw :: rest => do
    let record ← Except.mapError .canonical (canonical table raw)
    match known.find? fun prior => prior.node = record.node with
    | some prior =>
      if fingerprint digest table prior ≠ fingerprint digest table record then
        .error (.conflict (lit "conflicting allocation identity " ++ record.node.key))
      else collectKnown known rest
    | none => collectKnown (known ++ [record]) rest

variable (records : List AllocationRecord)

def lookupNode (n : Node) : Option AllocationRecord := records.find? fun r => r.node = n

def isKnown (n : Node) : Bool := (lookupNode records n).isSome

def edges (n : Node) : List Node :=
  match lookupNode records n with
  | some r => r.supersedes.map RecordRef.node
  | none => []

def pendingByNode (n : Node) : List RecordRef :=
  match lookupNode records n with
  | some r => r.supersedes.filter fun ref => !isKnown records ref.node
  | none => []

def children (n : Node) : List Node :=
  records.flatMap fun r => (r.supersedes.filter fun ref => ref.node = n).map fun _ => r.node

/-- References to one node agree in their payload hashes; `seen` has the first reference to each
node. -/
def checkPayloads : List RecordRef → List RecordRef → Except SupersessionError Unit
  | _, [] => .ok ()
  | seen, ref :: rest =>
    match seen.find? fun prior => prior.node = ref.node with
    | some prior =>
      if prior.payloadHash ≠ ref.payloadHash then
        .error (.conflict (lit "pending predecessor " ++ ref.node.key ++ lit " has conflicting payload hashes"))
      else checkPayloads seen rest
    | none => checkPayloads (seen ++ [ref]) rest

def allNodes : List Node :=
  records.map node ++ records.flatMap fun r => r.supersedes.map RecordRef.node

/-- `allocationSupersessionCycles`, with the order that the walk leaves the nodes in. -/
def allocationSupersessionCycles : Except SupersessionError (List Node) :=
  let walk := visitAll (fun n => sortBy Node.order (edges records n))
    ((allNodes records).length + 1) (records.map node)
  walk.mapError fun
    | .cycle n => .cycle (lit "node " ++ n.key ++ lit " is revisited")
    | .outOfFuel => .outOfFuel

def allocationSupersessionCompatible (prior successor : AllocationRecord) : Bool :=
  prior.sourceSubject = successor.sourceSubject && prior.sourceBasis = successor.sourceBasis &&
    prior.policy = successor.policy && prior.roundingScope = successor.roundingScope &&
    prior.roundingPolicy = successor.roundingPolicy &&
    prior.roundingResidualPolicy = successor.roundingResidualPolicy &&
    prior.sourceAmount.isNone == successor.sourceAmount.isNone &&
    prior.currency = successor.currency && prior.unit = successor.unit

def checkLink (r : AllocationRecord) (ref : RecordRef) : Except SupersessionError Unit :=
  match lookupNode records ref.node with
  | none => .ok ()
  | some prior =>
    if ref.payloadHash ≠ fingerprint digest table prior then
      .error (.conflict (lit "predecessor " ++ ref.node.key ++ lit " payload hash mismatch"))
    else if allocationSupersessionCompatible prior r = false then
      .error (.scopeMismatch (lit "predecessor " ++ ref.node.key ++ lit " source scope or valuation is incompatible"))
    else .ok ()

def uniqueSortedAllocationNodes (nodes : List Node) : List Node := compact (sortBy Node.order nodes)

def checkFork (n : Node) : Except SupersessionError Unit :=
  match uniqueSortedAllocationNodes (children records n) with
  | a :: b :: _ =>
    .error (.fork (lit "predecessor " ++ n.key ++ lit " has active successors " ++ a.key ++ lit " and " ++ b.key))
  | _ => .ok ()

def childTargets : List Node :=
  sortBy Node.order (records.flatMap fun r => r.supersedes.map RecordRef.node).dedup

/-- What `resolveNode` finds for each node, after the loop over all of them. -/
def resolvedNodes (fuel : ℕ) : List (Node × Bool) :=
  settleAll (edges records) (fun n => !(pendingByNode records n).isEmpty) (isKnown records) fuel
    (records.map node)

variable (memo : List (Node × Bool))

def isResolved (n : Node) : Bool := (memo.lookup n).getD false

def supersededNodes : List Node :=
  (records.filter fun r => isResolved memo r.node).flatMap fun r => edges records r.node

def collectPending (records : List AllocationRecord) (memo : List (Node × Bool)) :
    ℕ → List Node → Node → List RecordRef
  | 0, _, _ => []
  | fuel + 1, visiting, n =>
    if n ∈ visiting then []
    else pendingByNode records n ++ (edges records n).flatMap fun prior =>
      if isKnown records prior && !isResolved memo prior then
        collectPending records memo fuel (n :: visiting) prior
      else []

def pendingRefs (fuel : ℕ) : List RecordRef :=
  let waiting :=
    records.filter fun r => !(r.node ∈ supersededNodes records memo || isResolved memo r.node)
  compact (sortBy (textOrder ∘ allocationRefSortKey)
    (waiting.flatMap fun r => collectPending records memo fuel [] r.node))

def effective : List AllocationRecord :=
  records.filter fun r => !(r.node ∈ supersededNodes records memo || !isResolved memo r.node)

def checkHeads (heads : List Node) (l : GoStr × GoStr) : Except SupersessionError Unit :=
  match sortBy Node.order (heads.filter fun n => n.lineage = l) with
  | a :: b :: _ =>
    .error (.fork (lit "lineage store=" ++ l.1 ++ lit " id=" ++ l.2 ++ lit " has active heads " ++
      a.key ++ lit " and " ++ b.key))
  | _ => .ok ()

def lineageKeys (heads : List Node) : List (GoStr × GoStr) :=
  sortBy (textOrder ∘ lineageSortKey) (heads.map Node.lineage).dedup

def supersededRefs : List RecordRef :=
  let retired := records.filter fun r => r.node ∈ supersededNodes records memo
  sortBy (textOrder ∘ allocationRefSortKey) (retired.flatMap fun r =>
    (uniqueSortedAllocationNodes (children records r.node)).flatMap fun child =>
      if isResolved memo child then
        match lookupNode records child with
        | some c => c.supersedes.filter fun ref => ref.node = r.node
        | none => []
      else [])

def resolveHistory : Except SupersessionError SupersessionResult := do
  checkPayloads [] (records.flatMap fun r => r.supersedes)
  let order ← allocationSupersessionCycles records
  let memo := resolvedNodes records order.length
  records.forM fun r => r.supersedes.forM (checkLink digest table records r)
  (childTargets records).forM (checkFork records)
  let pending := pendingRefs records memo (order.length + 1)
  let heads := (effective records memo).map node
  (lineageKeys heads).forM (checkHeads heads)
  return {
    status := if pending = [] then .resolved else .pending
    records
    effective := effective records memo
    pending
    pendingSupersedes := pending
    superseded := supersededRefs records memo
    complete := pending = []
    payable := pending = [] }

def resolveAllocationSupersession (raws : List AllocationRecord) :
    Except SupersessionError SupersessionResult := do
  let known ← collectKnown digest table [] raws
  resolveHistory digest table (sortBy (Node.order ∘ node) known)

end Resolution

open Utf8Runes List Node

variable {table : PrintTable} {s : GoStr}

lemma nul_not_mem_of_printable (h : (runes s).any (unsafeRune table) = false) :
    (0 : UInt8) ∉ s := by
  intro hmem
  have hrune : some [0] ∈ runes s := mem_runesN_of_ascii le_rfl (by decide) hmem
  rw [any_eq_false] at h
  exact h _ hrune (by simp [unsafeRune])

lemma SafeRef.nul_not_mem (h : SafeRef table s) : (0 : UInt8) ∉ s :=
  fun hmem => nul_not_mem_of_printable h.2 (mem_trimSpace (by decide) hmem)

lemma Node.sortKey_injective {a b : Node} (ha : 0 ∉ a.storeID ∧ 0 ∉ a.id)
    (hb : 0 ∉ b.storeID ∧ 0 ∉ b.id) (h : a.sortKey = b.sortKey) : a = b := by
  unfold sortKey at h
  simp only [append_assoc, cons_append, nil_append] at h
  have hstore := congrArg (cut 0) h
  rw [cut_append_cons ha.1, cut_append_cons hb.1, Prod.mk.injEq, Prod.mk.injEq] at hstore
  have hid := congrArg (cut 0) hstore.2.1
  rw [cut_append_cons ha.2, cut_append_cons hb.2, Prod.mk.injEq, Prod.mk.injEq] at hid
  have hversion := congrArg natValue hid.2.1
  rw [natValue_formatNat, natValue_formatNat] at hversion
  rw [Node.mk.injEq]
  exact ⟨hstore.1, hid.1, hversion⟩

variable {c r : AllocationRecord}

lemma canonical_node (h : canonical table r = .ok c) :
    c.node = r.node ∧ 0 ∉ c.node.storeID ∧ 0 ∉ c.node.id := by
  obtain ⟨source, targets, out, hsource, -, -, -, -, -, hout, -, rfl⟩ := canonical_iff.mp h
  obtain ⟨rounded, given, residual, rfl, -, -⟩ :=
    applyAllocationRounding_frame (normalize_amount hsource) hout
  obtain ⟨-, hsubject, hid, -, -⟩ := AllocationSource.normalize_facts hsource
  have hnode : source.sourceSubject.storeID = r.sourceSubject.storeID ∧ source.id = r.id ∧
      source.version = r.version := by
    obtain ⟨v, p, hv, -, rfl, -⟩ := AllocationSource.normalize_ok hsource
    obtain ⟨⟨a, q, c, rfl⟩, -⟩ := AllocationSource.normalizeValue_ok hv
    exact ⟨rfl, rfl, rfl⟩
  refine ⟨?_, ?_, hid.nul_not_mem⟩
  · exact Node.mk.injEq .. ▸ hnode
  · obtain ⟨-, -, hstore, -⟩ := SubjectRef.validate_iff.mp hsubject
    exact nul_not_mem_of_printable hstore.printable

section Graph

variable {records : List AllocationRecord} {n : Node}

lemma isKnown_iff : isKnown records n ↔ ∃ r ∈ records, r.node = n := by
  unfold isKnown lookupNode
  simp

lemma lookupNode_eq_some (hnodes : (records.map node).Nodup) :
    lookupNode records n = some r ↔ r ∈ records ∧ r.node = n := by
  constructor
  · intro h
    exact ⟨mem_of_find?_eq_some h, by simpa using find?_some h⟩
  · rintro ⟨hr, rfl⟩
    cases h : lookupNode records r.node with
    | none => exact absurd (find?_eq_none.mp h r hr) (by simp)
    | some d =>
      rw [eq_of_key_of_nodup hnodes d (mem_of_find?_eq_some h) r hr (by simpa using find?_some h)]

lemma exists_lookupNode (hnodes : (records.map node).Nodup) {P : AllocationRecord → Prop} :
    (∃ r, lookupNode records n = some r ∧ P r) ↔ ∃ r ∈ records, r.node = n ∧ P r := by
  simp only [lookupNode_eq_some hnodes, and_assoc]

lemma mem_edges (hnodes : (records.map node).Nodup) {p : Node} :
    p ∈ edges records n ↔ ∃ r ∈ records, r.node = n ∧ ∃ ref ∈ r.supersedes, ref.node = p := by
  rw [← exists_lookupNode hnodes]
  unfold edges
  cases lookupNode records n <;> simp

variable {ref : RecordRef}

lemma mem_pendingByNode (hnodes : (records.map node).Nodup) :
    ref ∈ pendingByNode records n ↔ ∃ r ∈ records, r.node = n ∧ ref ∈ r.supersedes ∧
      ∀ d ∈ records, d.node ≠ ref.node := by
  have habsent : (!isKnown records ref.node) ↔ ∀ d ∈ records, d.node ≠ ref.node := by
    rw [Bool.not_eq_true', ← Bool.not_eq_true, isKnown_iff]
    simp
  rw [← exists_lookupNode hnodes]
  unfold pendingByNode
  cases lookupNode records n <;> simp [← habsent]

lemma mem_children {c : Node} :
    c ∈ children records n ↔ ∃ r ∈ records, r.node = c ∧ ∃ ref ∈ r.supersedes, ref.node = n := by
  unfold children
  simp only [mem_flatMap, mem_map, mem_filter, decide_eq_true_eq]
  constructor
  · rintro ⟨r, hr, ref, ⟨href, hnode⟩, hchild⟩
    exact ⟨r, hr, hchild, ref, href, hnode⟩
  · rintro ⟨r, hr, hchild, ref, href, hnode⟩
    exact ⟨r, hr, ref, ⟨href, hnode⟩, hchild⟩

variable {order : List Node}

lemma cycles_ordered (h : allocationSupersessionCycles records = .ok order) :
    Ordered (edges records) order ∧ ∀ n ∈ records.map node, n ∈ order := by
  obtain ⟨hordered, hnodes⟩ := visitAll_ordered (mapError_eq_ok.mp h)
  refine ⟨?_, hnodes⟩
  clear h hnodes
  induction hordered with
  | nil => exact .nil
  | cons hedges _ ih => exact .cons (fun p hp => hedges p (mem_sortBy.mpr hp)) ih

/-- A node for which no record is known, or whose record refers to such a node, maybe through other
records. -/
inductive Awaiting (known : AllocationRecord → Prop) : Node → Prop
  | absent {n : Node} : (∀ r, known r → r.node ≠ n) → Awaiting known n
  | through {r : AllocationRecord} {ref : RecordRef} :
      known r → ref ∈ r.supersedes → Awaiting known ref.node → Awaiting known r.node

/-- The property that `resolveNode` computes. -/
def Resolved (records : List AllocationRecord) : Node → Prop :=
  Settled (edges records) (fun n => !(pendingByNode records n).isEmpty) (isKnown records)

section

variable (hnodes : (records.map node).Nodup)
include hnodes

lemma Awaiting.not_resolved
    (h : Awaiting (· ∈ records) n) (hknown : isKnown records n) : ¬ Resolved records n := by
  induction h with
  | absent habsent =>
    obtain ⟨r, hr, hnode⟩ := isKnown_iff.mp hknown
    exact absurd hnode (habsent r hr)
  | @through r ref hr href _ ih =>
    rintro ⟨-, hprior, hresolved⟩
    have hedge : ref.node ∈ edges records r.node :=
      (mem_edges hnodes).mpr ⟨r, hr, rfl, ref, href, rfl⟩
    exact ih (hprior _ hedge) (hresolved _ hedge)

lemma resolved_of_not_awaiting
    (hordered : Ordered (edges records) order) :
    ∀ n ∈ order, isKnown records n → ¬ Awaiting (· ∈ records) n → Resolved records n := by
  induction hordered with
  | nil => exact nofun
  | @cons m rest hedges _ ih =>
    intro n hn hknown hfree
    rcases mem_cons.mp hn with rfl | hn
    · obtain ⟨r, hr, rfl⟩ := isKnown_iff.mp hknown
      have hprior :
          ∀ ref ∈ r.supersedes, isKnown records ref.node ∧ ¬ Awaiting (· ∈ records) ref.node := by
        intro ref href
        have hnot : ¬ Awaiting (· ∈ records) ref.node := fun h => hfree (.through hr href h)
        refine ⟨by_contra fun hunknown => hnot (.absent fun d hd hnode => ?_), hnot⟩
        exact hunknown (isKnown_iff.mpr ⟨d, hd, hnode⟩)
      have hedge : ∀ p ∈ edges records r.node, isKnown records p ∧ ¬ Awaiting (· ∈ records) p := by
        intro p hp
        obtain ⟨d, hd, hnode, ref, href, rfl⟩ := (mem_edges hnodes).mp hp
        rw [eq_of_key_of_nodup hnodes d hd r hr hnode] at href
        exact hprior ref href
      refine ⟨?_, fun p hp => (hedge p hp).1, fun p hp => ih p (hedges p hp) (hedge p hp).1 (hedge p hp).2⟩
      rw [Bool.not_eq_false', List.isEmpty_iff]
      refine List.eq_nil_iff_forall_not_mem.mpr fun ref href => ?_
      obtain ⟨d, hd, hnode, hmem, habsent⟩ := (mem_pendingByNode hnodes).mp href
      rw [eq_of_key_of_nodup hnodes d hd r hr hnode] at hmem
      obtain ⟨prior, hmemPrior, hnodePrior⟩ := isKnown_iff.mp (hprior ref hmem).1
      exact habsent prior hmemPrior hnodePrior
    · exact ih n hn hknown hfree

lemma isResolved_iff
    (horder : allocationSupersessionCycles records = .ok order) (hr : r ∈ records) :
    isResolved (resolvedNodes records order.length) r.node ↔ ¬ Awaiting (· ∈ records) r.node := by
  obtain ⟨hordered, hall⟩ := cycles_ordered horder
  have hmem : r.node ∈ records.map node := mem_map_of_mem hr
  have hknown : isKnown records r.node := isKnown_iff.mpr ⟨r, hr, rfl⟩
  unfold isResolved resolvedNodes
  rw [settleAll_lookup hordered le_rfl hall hmem]
  exact ⟨fun hresolved hawaiting => hawaiting.not_resolved hnodes hknown hresolved,
    resolved_of_not_awaiting hnodes hordered _ (hall _ hmem) hknown⟩

end

def Superseded (known : AllocationRecord → Prop) (n : Node) : Prop :=
  ∃ d, known d ∧ ¬ Awaiting known d.node ∧ ∃ ref ∈ d.supersedes, ref.node = n

lemma Superseded.not_awaiting {known : AllocationRecord → Prop} (h : Superseded known n) :
    ¬ Awaiting known n := by
  obtain ⟨d, hd, hfree, ref, href, rfl⟩ := h
  exact fun hawaiting => hfree (.through hd href hawaiting)

variable (hnodes : (records.map node).Nodup) {order : List Node}
  (horder : allocationSupersessionCycles records = .ok order) {fuel : ℕ}

include hnodes horder

lemma mem_supersededNodes :
    n ∈ supersededNodes records (resolvedNodes records order.length) ↔
    Superseded (· ∈ records) n := by
  unfold supersededNodes Superseded
  simp only [mem_flatMap, mem_filter, mem_edges hnodes]
  constructor
  · rintro ⟨d, ⟨hd, hresolved⟩, r, hr, hnode, href⟩
    rw [eq_of_key_of_nodup hnodes r hr d hd hnode] at href
    exact ⟨d, hd, (isResolved_iff hnodes horder hd).mp hresolved, href⟩
  · rintro ⟨d, hd, hfree, href⟩
    exact ⟨d, ⟨hd, (isResolved_iff hnodes horder hd).mpr hfree⟩, d, hd, rfl, href⟩

lemma mem_effective : c ∈ effective records (resolvedNodes records order.length) ↔
      c ∈ records ∧ ¬ Superseded (· ∈ records) c.node ∧ ¬ Awaiting (· ∈ records) c.node := by
  unfold effective
  rw [mem_filter, and_congr_right_iff]
  intro hc
  rw [Bool.not_eq_true', Bool.or_eq_false_iff, decide_eq_false_iff_not,
    mem_supersededNodes hnodes horder, Bool.not_eq_false', isResolved_iff hnodes horder hc]

omit hnodes horder in
lemma mem_collectPending {memo : List (Node × Bool)} {visiting : List Node}
    (h : ref ∈ collectPending records memo fuel visiting n) :
    ∃ m, ref ∈ pendingByNode records m := by
  induction fuel generalizing visiting n with
  | zero => cases h
  | succ fuel ih =>
    unfold collectPending at h
    split_ifs at h
    · cases h
    rcases mem_append.mp h with hown | hprior
    · exact ⟨n, hown⟩
    · obtain ⟨p, -, hp⟩ := mem_flatMap.mp hprior
      split_ifs at hp
      · exact ih hp
      · cases hp

lemma mem_pendingRefs :
    ref ∈ pendingRefs records (resolvedNodes records order.length) (fuel + 1) ↔
      ∃ c ∈ records, ref ∈ c.supersedes ∧ ∀ d ∈ records, d.node ≠ ref.node := by
  unfold pendingRefs
  rw [mem_compact, mem_sortBy, mem_flatMap]
  constructor
  · rintro ⟨r, -, h⟩
    obtain ⟨m, hm⟩ := mem_collectPending h
    obtain ⟨c, hc, -, href, habsent⟩ := (mem_pendingByNode hnodes).mp hm
    exact ⟨c, hc, href, habsent⟩
  · rintro ⟨c, hc, href, habsent⟩
    -- The record itself waits, so no other record hides it.
    have hawaiting : Awaiting (· ∈ records) c.node := .through hc href (.absent habsent)
    refine ⟨c, mem_filter.mpr ⟨hc, ?_⟩, ?_⟩
    · rw [Bool.not_eq_true', Bool.or_eq_false_iff, decide_eq_false_iff_not,
        mem_supersededNodes hnodes horder, ← Bool.not_eq_true, isResolved_iff hnodes horder hc]
      exact ⟨fun hsuperseded => hsuperseded.not_awaiting hawaiting, not_not.mpr hawaiting⟩
    · exact mem_append_left _ ((mem_pendingByNode hnodes).mpr ⟨c, hc, rfl, href, habsent⟩)

lemma exists_supersededRefs (hc : c ∈ records) :
    (∃ ref ∈ supersededRefs records (resolvedNodes records order.length), ref.node = c.node) ↔
      Superseded (· ∈ records) c.node := by
  unfold supersededRefs
  simp only [mem_sortBy, mem_flatMap, mem_filter, decide_eq_true_eq, mem_supersededNodes hnodes horder]
  constructor
  · rintro ⟨ref, ⟨r, ⟨-, hsuperseded⟩, child, -, href⟩, hnode⟩
    split_ifs at href
    · split at href
      · obtain ⟨-, hrefNode⟩ := mem_filter.mp href
        rw [← hnode, of_decide_eq_true hrefNode]
        exact hsuperseded
      · cases href
    · cases href
  · intro hsuperseded
    obtain ⟨d, hd, hfree, ref, href, hnode⟩ := hsuperseded
    refine ⟨ref, ⟨c, ⟨hc, ⟨d, hd, hfree, ref, href, hnode⟩⟩, d.node, ?_, ?_⟩, hnode⟩
    · unfold uniqueSortedAllocationNodes
      rw [mem_compact, mem_sortBy]
      exact mem_children.mpr ⟨d, hd, rfl, ref, href, hnode⟩
    · rw [if_pos ((isResolved_iff hnodes horder hd).mpr hfree), (lookupNode_eq_some hnodes).mpr ⟨hd, rfl⟩]
      exact mem_filter.mpr ⟨href, decide_eq_true hnode⟩

end Graph

lemma heads_nodup {heads : List Node} (hheads : heads.Nodup)
    (h : ∀ l ∈ lineageKeys heads, checkHeads heads l = .ok ()) : (heads.map lineage).Nodup := by
  refine List.Nodup.map_on (fun a ha b hb hlineage => ?_) hheads
  have hcheck := h a.lineage (by
    unfold lineageKeys
    rw [mem_sortBy, mem_dedup]
    exact mem_map_of_mem ha)
  unfold checkHeads at hcheck
  have hmem (n : Node) (hn : n ∈ heads) (hsame : n.lineage = a.lineage) :
      n ∈ sortBy order (heads.filter fun n => n.lineage = a.lineage) := by simp [hn, hsame]
  have hmemA := hmem a ha rfl
  have hmemB := hmem b hb hlineage.symm
  split at hcheck
  · cases hcheck
  next hshort =>
  match hlist : sortBy order (heads.filter fun n => n.lineage = a.lineage) with
  | [] =>
    rw [hlist] at hmemA
    cases hmemA
  | [x] =>
    rw [hlist, mem_singleton] at hmemA hmemB
    rw [hmemA, hmemB]
  | x :: y :: rest => exact absurd hlist (hshort x y rest)

def ExactlyOne (p q r : Prop) : Prop := (p ∧ ¬ q ∧ ¬ r) ∨ (¬ p ∧ q ∧ ¬ r) ∨ (¬ p ∧ ¬ q ∧ r)

structure Classifies (known : AllocationRecord → Prop) (result : SupersessionResult) : Prop where
  exactlyOne : ∀ c, known c → ExactlyOne (c ∈ result.effective)
    (∃ ref ∈ result.superseded, ref.node = c.node) (Awaiting known c.node)
  effective : ∀ c ∈ result.effective, known c ∧ ∀ d, known d → ¬ Awaiting known d.node →
    ∀ ref ∈ d.supersedes, ref.node ≠ c.node
  oneHead : (result.effective.map fun c => c.node.lineage).Nodup
  payable : result.payable ↔ ∀ c, known c → ∀ ref ∈ c.supersedes, ∃ d, known d ∧ d.node = ref.node

section Result

variable {digest : AllocationRecord → GoStr} {table : PrintTable} {result : SupersessionResult}

lemma resolveHistory_classifies {records : List AllocationRecord}
    (hnodes : (records.map node).Nodup) (h : resolveHistory digest table records = .ok result) :
    Classifies (· ∈ records) result ∧ result.records = records := by
  unfold resolveHistory at h
  simp only [seq_eq_ok] at h
  obtain ⟨-, h⟩ := h
  obtain ⟨order, horder, h⟩ := bind_eq_ok.mp h
  simp only [seq_eq_ok, forM_eq_ok] at h
  obtain ⟨-, -, hheads, h⟩ := h
  cases h
  refine ⟨⟨fun c hc => ?_, fun c hc => ?_, ?_, ?_⟩, rfl⟩
  · rw [mem_effective hnodes horder, exists_supersededRefs hnodes horder hc]
    by_cases hsuperseded : Superseded (· ∈ records) c.node
    · exact .inr (.inl ⟨fun h => h.2.1 hsuperseded, hsuperseded, hsuperseded.not_awaiting⟩)
    · by_cases hawaiting : Awaiting (· ∈ records) c.node
      · exact .inr (.inr ⟨fun h => h.2.2 hawaiting, hsuperseded, hawaiting⟩)
      · exact .inl ⟨⟨hc, hsuperseded, hawaiting⟩, hsuperseded, hawaiting⟩
  · obtain ⟨hmem, hnot, -⟩ := (mem_effective hnodes horder).mp hc
    exact ⟨hmem, fun d hd hfree ref href hnode => hnot ⟨d, hd, hfree, ref, href, hnode⟩⟩
  · have hnodup : ((effective records (resolvedNodes records order.length)).map node).Nodup :=
      hnodes.sublist (filter_sublist.map _)
    have hlineages := heads_nodup hnodup hheads
    rwa [map_map] at hlineages
  · rw [decide_eq_true_iff, List.eq_nil_iff_forall_not_mem]
    simp only [mem_pendingRefs hnodes horder]
    constructor
    · intro hnone c hc ref href
      by_contra habsent
      exact hnone ref ⟨c, hc, href, fun d hd hnode => habsent ⟨d, hd, hnode⟩⟩
    · rintro hall ref ⟨c, hc, href, habsent⟩
      obtain ⟨d, hd, hnode⟩ := hall c hc ref href
      exact habsent d hd hnode

def Supplied (table : PrintTable) (raws : List AllocationRecord) (c : AllocationRecord) : Prop :=
  ∃ r ∈ raws, canonical table r = .ok c

lemma fingerprint_canonical (h : canonical table r = .ok c) :
    fingerprint digest table c = fingerprint digest table r := by
  unfold fingerprint
  rw [h, canonical_canonical h]

variable {raws known out : List AllocationRecord}

/-- What the first loop collects: canonical records with different nodes, and for each record that
is supplied one of its node and its fingerprint. -/
lemma collectKnown_ok {K : AllocationRecord → Prop}
    (h : collectKnown digest table known raws = .ok out)
    (hnodes : (known.map node).Nodup) (hknown : ∀ c ∈ known, K c)
    (hraws : ∀ r ∈ raws, ∀ c, canonical table r = .ok c → K c) :
    (out.map node).Nodup ∧ known ⊆ out ∧ (∀ c ∈ out, K c) ∧
    ∀ r ∈ raws, ∃ c, canonical table r = .ok c ∧
      ∃ d ∈ out, d.node = c.node ∧ fingerprint digest table d = fingerprint digest table c := by
  induction raws generalizing known with
  | nil =>
    cases h
    exact ⟨hnodes, List.Subset.refl _, hknown, fun r hr => absurd hr not_mem_nil⟩
  | cons raw rest ih =>
    obtain ⟨record, hrecord, h⟩ := bind_eq_ok.mp h
    have hrecord := mapError_eq_ok.mp hrecord
    obtain ⟨hraw, hrest⟩ := forall_mem_cons.mp hraws
    split at h
    · next prior hprior =>
      split_ifs at h with hsame
      obtain ⟨hout, hsub, hfrom, hall⟩ := ih h hnodes hknown hrest
      have hnode : prior.node = record.node := by simpa using find?_some hprior
      refine ⟨hout, hsub, hfrom, forall_mem_cons.mpr ⟨⟨record, hrecord, prior, ?_, hnode, not_not.mp hsame⟩, hall⟩⟩
      exact hsub (mem_of_find?_eq_some hprior)
    · next hnone =>
      have hnew : ((known ++ [record]).map node).Nodup := by
        rw [map_append, nodup_append]
        refine ⟨hnodes, nodup_singleton _, ?_⟩
        rintro a ha b hb rfl
        obtain ⟨prior, hprior, hnode⟩ := mem_map.mp ha
        rw [mem_singleton.mp hb] at hnode
        exact absurd (find?_eq_none.mp hnone prior hprior) (by simpa using hnode)
      have hgrown := forall_mem_append.mpr ⟨hknown, forall_mem_singleton.mpr (hraw record hrecord)⟩
      obtain ⟨hout, hsub, hfrom, hall⟩ := ih h hnew hgrown hrest
      refine ⟨hout, List.Subset.trans (subset_append_left _ _) hsub, hfrom,
        forall_mem_cons.mpr ⟨⟨record, hrecord, record, ?_, rfl, rfl⟩, hall⟩⟩
      exact hsub (mem_append_right _ mem_cons_self)

lemma collectKnown_supplied (h : collectKnown digest table [] raws = .ok out) :
    (out.map node).Nodup ∧ (∀ c ∈ out, Supplied table raws c) ∧
    ∀ r ∈ raws, ∃ c, canonical table r = .ok c ∧
      ∃ d ∈ out, d.node = c.node ∧ fingerprint digest table d = fingerprint digest table c := by
  obtain ⟨hnodes, -, hfrom⟩ :=
    collectKnown_ok (K := Supplied table raws) h nodup_nil (by simp) fun r hr c hc => ⟨r, hr, hc⟩
  exact ⟨hnodes, hfrom⟩

def Consistent (known : AllocationRecord → Prop) : Prop :=
  ∀ c d, known c → known d → c.node = d.node → c = d

lemma collectKnown_of_consistent {K : AllocationRecord → Prop} (hconsistent : Consistent K)
    (hknown : ∀ c ∈ known, K c) (hraws : ∀ r ∈ raws, ∃ c, canonical table r = .ok c ∧ K c) :
    ∃ out, collectKnown digest table known raws = .ok out := by
  induction raws generalizing known with
  | nil => exact ⟨known, rfl⟩
  | cons raw rest ih =>
    obtain ⟨⟨record, hrecord, hraw⟩, hrest⟩ := forall_mem_cons.mp hraws
    unfold collectKnown
    rw [hrecord]
    cases hfind : known.find? fun prior => prior.node = record.node with
    | some prior =>
      have hsame : prior = record :=
        hconsistent prior record (hknown _ (mem_of_find?_eq_some hfind)) hraw
        (by simpa using find?_some hfind)
      obtain ⟨out, hout⟩ := ih hknown hrest
      refine ⟨out, ?_⟩
      simp only [Except.mapError, bind, Except.bind, hfind, hsame, ne_eq]
      exact hout
    | none =>
      obtain ⟨out, hout⟩ := ih (forall_mem_append.mpr ⟨hknown, forall_mem_singleton.mpr hraw⟩) hrest
      refine ⟨out, ?_⟩
      simp only [Except.mapError, bind, Except.bind, hfind]
      exact hout

lemma mem_collectKnown (h : collectKnown digest table [] raws = .ok out)
    (hconsistent : Consistent (Supplied table raws)) : c ∈ out ↔ Supplied table raws c := by
  obtain ⟨-, hfrom, hall⟩ := collectKnown_supplied h
  refine ⟨hfrom c, fun hc => ?_⟩
  obtain ⟨r, hr, hform⟩ := hc
  obtain ⟨c', hform', d, hd, hnode, -⟩ := hall r hr
  cases hform.symm.trans hform'
  rwa [← hconsistent d c (hfrom d hd) ⟨r, hr, hform⟩ hnode]

lemma resolve_of_consistent {raws' : List AllocationRecord}
    (h : resolveAllocationSupersession digest table raws = .ok result)
    (hconsistent : Consistent (Supplied table raws)) (hsame : ∀ r, r ∈ raws' ↔ r ∈ raws) :
    resolveAllocationSupersession digest table raws' = .ok result := by
  obtain ⟨known, hknown, h⟩ := bind_eq_ok.mp h
  have hsupplied : Supplied table raws' = Supplied table raws := by
    funext c
    simp only [Supplied, hsame]
  obtain ⟨hnodes, -, hall⟩ := collectKnown_supplied hknown
  have hconsistent' : Consistent (Supplied table raws') := hsupplied ▸ hconsistent
  obtain ⟨known', hknown'⟩ : ∃ out, collectKnown digest table [] raws' = .ok out :=
    collectKnown_of_consistent hconsistent (by simp) fun r hr => by
      obtain ⟨c, hc, -⟩ := hall r ((hsame r).mp hr)
      exact ⟨c, hc, r, (hsame r).mp hr, hc⟩
  have hperm : known.Perm known' := by
    rw [perm_ext_iff_of_nodup hnodes.of_map (collectKnown_supplied hknown').1.of_map]
    intro c
    rw [mem_collectKnown hknown hconsistent, mem_collectKnown hknown' hconsistent', hsupplied]
  have hsorted : sortBy (order ∘ node) known = sortBy (order ∘ node) known' := by
    refine sortBy_eq_of_perm hperm fun c hc d hd hkey => ?_
    obtain ⟨r, -, hr⟩ := (mem_collectKnown hknown hconsistent).mp hc
    obtain ⟨r', -, hr'⟩ := (mem_collectKnown hknown hconsistent).mp hd
    refine eq_of_key_of_nodup hnodes c hc d hd ?_
    exact sortKey_injective (canonical_node hr).2 (canonical_node hr').2 (textOrder_injective hkey)
  refine bind_eq_ok.mpr ⟨known', hknown', ?_⟩
  rw [← hsorted]
  exact h

/-- Records of one identity with one fingerprint have one canonical form. -/
def NoMaskedConflict (digest : AllocationRecord → GoStr) (table : PrintTable)
    (raws : List AllocationRecord) : Prop :=
  ∀ r ∈ raws, ∀ r' ∈ raws, r.node = r'.node →
    fingerprint digest table r = fingerprint digest table r' →
    canonical table r = canonical table r'

lemma consistent_of_noMaskedConflict
    (h : resolveAllocationSupersession digest table raws = .ok result)
    (hclear : NoMaskedConflict digest table raws) : Consistent (Supplied table raws) := by
  obtain ⟨known, hknown, -⟩ := bind_eq_ok.mp h
  obtain ⟨hnodes, -, hall⟩ := collectKnown_supplied hknown
  rintro c d ⟨r, hr, hc⟩ ⟨r', hr', hd⟩ hnode
  obtain ⟨c', hc', prior, hprior, hnodeC, hprintC⟩ := hall r hr
  obtain ⟨d', hd', prior', hprior', hnodeD, hprintD⟩ := hall r' hr'
  cases hc.symm.trans hc'
  cases hd.symm.trans hd'
  have hprint : fingerprint digest table r = fingerprint digest table r' := by
    rw [← fingerprint_canonical hc, ← fingerprint_canonical hd, ← hprintC, ← hprintD,
      eq_of_key_of_nodup hnodes prior hprior prior' hprior' (hnodeC.trans (hnode.trans hnodeD.symm))]
  have hraw : r.node = r'.node := by rw [← (canonical_node hc).1, ← (canonical_node hd).1, hnode]
  have hform := hclear r hr r' hr' hraw hprint
  rw [hc, hd] at hform
  exact Except.ok.inj hform

lemma mem_records_of_first {raw : AllocationRecord}
    (hc : canonical table raw = .ok c)
    (h : resolveAllocationSupersession digest table (raw :: raws) = .ok result) :
    c ∈ result.records ∧ (result.records.map node).Nodup := by
  obtain ⟨known, hknown, h⟩ := bind_eq_ok.mp h
  have hnodes := (collectKnown_supplied hknown).1
  have hsorted := sortBy_perm (order ∘ node) known
  have hrecords := (resolveHistory_classifies ((hsorted.map _).nodup_iff.mpr hnodes) h).2
  unfold collectKnown at hknown
  rw [hc] at hknown
  have hrest : collectKnown digest table [c] raws = .ok known := hknown
  rw [hrecords]
  refine ⟨mem_sortBy.mpr ?_, (hsorted.map _).nodup_iff.mpr hnodes⟩
  exact (collectKnown_ok hrest (nodup_singleton _) (fun _ _ => trivial) fun _ _ _ _ => trivial).2.1 mem_cons_self

/-- The resolution of allocation records. The result has the same records in whatever order and
number they come, and says of every one whether it is effective, superseded or pending, just when no
two records of one identity that differ share a fingerprint. -/
theorem supersession_resolution {raws : List AllocationRecord} {result : SupersessionResult}
    (h : resolveAllocationSupersession digest table raws = .ok result) :
    ((∀ raws', (∀ r, r ∈ raws' ↔ r ∈ raws) → resolveAllocationSupersession digest table raws' = .ok result) ∧
      Classifies (Supplied table raws) result) ↔ NoMaskedConflict digest table raws := by
  constructor
  · rintro ⟨horder, -⟩ r hr r' hr' hnode hprint
    have hfirst : ∀ r ∈ raws, resolveAllocationSupersession digest table (r :: raws) = .ok result :=
      fun r hr => horder _ fun x => by rw [mem_cons]; exact ⟨fun hx => hx.elim (· ▸ hr) id, .inr⟩
    obtain ⟨known, hknown, -⟩ := bind_eq_ok.mp h
    obtain ⟨-, -, hall⟩ := collectKnown_supplied hknown
    obtain ⟨c, hc, -⟩ := hall r hr
    obtain ⟨d, hd, -⟩ := hall r' hr'
    obtain ⟨hmemC, hnodes⟩ := mem_records_of_first hc (hfirst r hr)
    obtain ⟨hmemD, -⟩ := mem_records_of_first hd (hfirst r' hr')
    have hform : c.node = d.node := by rw [(canonical_node hc).1, (canonical_node hd).1, hnode]
    rw [hc, hd, eq_of_key_of_nodup hnodes c hmemC d hmemD hform]
  · intro hclear
    have hconsistent := consistent_of_noMaskedConflict h hclear
    refine ⟨fun raws' hsame => resolve_of_consistent h hconsistent hsame, ?_⟩
    obtain ⟨known, hknown, h⟩ := bind_eq_ok.mp h
    have hnodes := (collectKnown_supplied hknown).1
    have hsorted := sortBy_perm (order ∘ node) known
    have hclassifies := (resolveHistory_classifies ((hsorted.map _).nodup_iff.mpr hnodes) h).1
    have hsupplied : (· ∈ sortBy (order ∘ node) known) = Supplied table raws := by
      funext c
      rw [mem_sortBy, mem_collectKnown hknown hconsistent]
    rwa [hsupplied] at hclassifies

end Result

def correctedCost : AllocationRecord :=
  { sharedCost with
    version := 2, operation := .correction
    supersedes := [⟨lit "s", lit "a", 1, replicate 64 0x61⟩] }

theorem supersession_resolution_correction :
    ∃ result, resolveAllocationSupersession (fun _ => replicate 64 0x61) asciiTable
        [correctedCost, sharedCost, correctedCost] = .ok result ∧
      result.effective.map (·.version) = [2] ∧ result.payable ∧
      Classifies (Supplied asciiTable [correctedCost, sharedCost, correctedCost]) result ∧
      resolveAllocationSupersession (fun _ => replicate 64 0x61) asciiTable [sharedCost, correctedCost] =
        .ok result := by
  have hok : ((resolveAllocationSupersession (fun _ => replicate 64 0x61) asciiTable
      [correctedCost, sharedCost, correctedCost]).toOption.map fun result =>
        (result.effective.map (·.version), result.payable)) = some ([2], true) := by decide +kernel
  have hmem (r : AllocationRecord) :
      r ∈ [correctedCost, sharedCost, correctedCost] ↔ r ∈ [sharedCost, correctedCost] := by
    simp only [mem_cons, not_mem_nil, or_false]
    exact ⟨fun h => h.elim .inr id, .inr⟩
  obtain ⟨result, hresult, hvalues⟩ := ok_of_toOption_map hok
  obtain ⟨hversions, hpayable⟩ := Prod.mk.inj hvalues
  obtain ⟨horder, hclassifies⟩ := (supersession_resolution hresult).mpr (by
    intro r hr r' hr' hnode _
    have hdiffer : correctedCost.node ≠ sharedCost.node := by decide
    simp only [hmem, mem_cons, not_mem_nil, or_false] at hr hr'
    rcases hr with rfl | rfl <;> rcases hr' with rfl | rfl
    · rfl
    · exact absurd hnode.symm hdiffer
    · exact absurd hnode hdiffer
    · rfl)
  exact ⟨result, hresult, hversions, hpayable, hclassifies, horder _ fun r => (hmem r).symm⟩

/-- A cost that was recorded in the last hour of the year 9999, west of Greenwich: its time in UTC
cannot be written. -/
def lateCost : AllocationRecord :=
  { sharedCost with createdAt := ⟨315537901199000000000, lit "-01:00"⟩ }

def otherLateCost : AllocationRecord := { lateCost with sourceAmount := some ⟨lit "2", 0⟩ }

/-- Two records of one identity that cannot be written pass for copies of each other, and the first
one is kept. -/
theorem supersession_order_matters :
    ((resolveAllocationSupersession (fun _ => replicate 64 0x61) asciiTable
        [lateCost, otherLateCost]).toOption.map fun result => result.effective.map (·.sourceAmount)) =
      some [some ⟨lit "1", 0⟩] ∧
    ((resolveAllocationSupersession (fun _ => replicate 64 0x61) asciiTable
        [otherLateCost, lateCost]).toOption.map fun result => result.effective.map (·.sourceAmount)) =
      some [some ⟨lit "2", 0⟩] := by
  decide +kernel

end InteractiveProxy.Economics
