import InteractiveProxy.ComponentSchemas

/-! What the reduced measures of one scope say about a program: the quantity that complete coverages
represent, which of them account for their parents, and the bounds that sweeps of the inclusion
graph put on all quantities. -/
namespace InteractiveProxy.Billing

open GoText Metering TopologicalOrder DepthFirst

structure AggregateMeasure where
  key : ComponentKey
  scopeKey : GoStr
  rat : Option ℚ
  complete : Bool
  redundant : Bool := false

inductive QuantityEvidenceState
  | absent
  | exact
  | unavailable
  deriving DecidableEq

/-- A member that contributes to the equation of its parent; an absent optional one is zero there.
-/
def counted (state : ℕ → QuantityEvidenceState) (m : PartitionMember) : Bool :=
  state m.id ≠ .absent || !m.optional

structure Evidence where
  state : QuantityEvidenceState := .absent
  exact : ℚ := 0
  negative : Bool := false

structure NodeCover where
  represented : Option ℚ
  coverSum : Option ℚ := none
  resolved : Bool := false
  ambiguous : Bool := false

def NodeCover.summed (c : NodeCover) : Bool := c.coverSum.isSome

structure CompleteCoverVerdict where
  evidence : ℕ → Evidence
  cover : ℕ → NodeCover

section Reading

variable (table : PrintTable) (program : SchemaProgram)

def measuredNode (item : AggregateMeasure) : Option ℕ :=
  match item.key.normalize table with
  | .ok key => program.byKey (key.canonicalKey table)
  | .error _ => none

/-- The evidence of a measure for its component, which has some already; the first exact quantity
stays. -/
def Evidence.add (evidence : Evidence) (item : AggregateMeasure) : Evidence :=
  if evidence.state = .exact then evidence
  else
    match item.complete, item.rat with
    | true, some q => ⟨.exact, if q < 0 then 0 else q, q < 0⟩
    | _, _ => { evidence with state := .unavailable }

def readItem (evidence : ℕ → Evidence) (item : AggregateMeasure) : ℕ → Evidence :=
  match measuredNode table program item with
  | some id => Function.update evidence id ((evidence id).add item)
  | none => evidence

def readEvidence (items : List AggregateMeasure) : ℕ → Evidence :=
  items.foldl (readItem table program) fun _ => {}

/-- `coverShareSum` over the members that are left, with the sum so far and whether a member carries
a share. -/
def coverShareSum (evidence : ℕ → Evidence) (cover : ℕ → NodeCover) :
    List PartitionMember → ℚ → Bool → Option ℚ
  | [], sum, carrying => if carrying then some sum else none
  | m :: rest, sum, carrying =>
    let share := (cover m.id).represented.getD 0
    match (evidence m.id).state with
    | .absent =>
      if m.optional then coverShareSum evidence cover rest sum carrying
      else if (cover m.id).resolved then coverShareSum evidence cover rest (sum + share) true
      else none
    | .exact => coverShareSum evidence cover rest (sum + share) true
    | .unavailable => none

def Evidence.own (e : Evidence) : Option ℚ := if e.state = .exact then some e.exact else none

/-- The turn of a node in `resolveCompleteCovers`, from the verdicts on its members. -/
def resolveCover (evidence : ℕ → Evidence) (cover : ℕ → NodeCover) (node : ℕ) : NodeCover :=
  let members := program.completeChildren node
  if members = [] then { represented := (evidence node).own }
  else
    let ambiguous := members.any fun m => program.sharedCompleteOwner m.id || (cover m.id).ambiguous
    match coverShareSum evidence cover members 0 false with
    | none => { represented := (evidence node).own, ambiguous }
    | some sum =>
      { represented := if (evidence node).state = .exact then (evidence node).own else some sum
        coverSum := some sum
        resolved := !ambiguous
        ambiguous }

def resolveCompleteCovers (items : List AggregateMeasure) : CompleteCoverVerdict :=
  let evidence := readEvidence table program items
  { evidence
    cover := fill (resolveCover program evidence) program.topo
      fun node => { represented := (evidence node).own } }

end Reading

namespace CompleteCoverVerdict

variable (v : CompleteCoverVerdict) (node : ℕ)

def state : QuantityEvidenceState := (v.evidence node).state

def exact : ℚ := (v.evidence node).exact

def represented : Option ℚ := (v.cover node).represented

def coverSum : Option ℚ := (v.cover node).coverSum

def summed : Bool := (v.cover node).summed

def resolved : Bool := (v.cover node).resolved

def ambiguous : Bool := (v.cover node).ambiguous

end CompleteCoverVerdict

open GuardedRun

inductive PartitionClass
  | covered
  | contradicted
  | incomparable
  | incomplete
  deriving DecidableEq

structure PartitionEvidence where
  parent : ℕ
  anyMemberPresent : Bool
  reported : Bool
  coverSummed : Bool
  coverProven : Bool
  missingMember : Bool
  parentUsable : Bool
  parentRat : ℚ
  childSum : ℚ
  tainted : Bool
  unpriced : List ℕ

section Coverage

variable {μ : Type} (table : PrintTable) (program : SchemaProgram) (rules : List (RatingRule μ))
  (qualifiers : List Dimension)

def priced (node : ℕ) : Bool :=
  match resolveRule rules (program.key node) qualifiers with
  | .ok _ => true
  | .error _ => false

def partitionEvidence (cover : CompleteCoverVerdict) (parent : ℕ) : PartitionEvidence :=
  let members := program.completeChildren parent
  let allOptionalZero := members.all fun m => cover.state m.id = .absent && m.optional
  { parent
    anyMemberPresent := members.any fun m => cover.state m.id ≠ .absent
    reported := cover.state parent ≠ .absent
    coverSummed := cover.summed parent
    coverProven := cover.resolved parent
    missingMember := !allOptionalZero && !cover.summed parent
    parentUsable := cover.state parent = .exact
    parentRat := cover.exact parent
    childSum := (cover.coverSum parent).getD 0
    tainted := cover.ambiguous parent
    unpriced := ((members.filter (counted cover.state)).map PartitionMember.id).filter fun m =>
      !priced program rules qualifiers m }

/-- Every member without a rule of its own is accounted for. -/
def billable (ev : PartitionEvidence) (covered : List ℕ) : Bool := ev.unpriced.all (· ∈ covered)

def provesCover (ev : PartitionEvidence) (covered : List ℕ) : Bool :=
  !(ev.tainted || ev.missingMember || !ev.coverProven) &&
    !(ev.parentUsable && ev.parentRat ≠ ev.childSum) &&
    billable ev covered

def growCovered (covered : List ℕ) (ev : PartitionEvidence) : List ℕ :=
  if ev.parent ∈ covered then covered
  else if provesCover ev covered then ev.parent :: covered
  else covered

def coveredFixpoint (evidence : List PartitionEvidence) : ℕ → List ℕ → List ℕ
  | 0, covered => covered
  | fuel + 1, covered =>
    let grown := evidence.foldl growCovered covered
    if grown.length = covered.length then grown else coveredFixpoint evidence fuel grown

def classifyPartition (ev : PartitionEvidence) (covered : List ℕ) : Option PartitionClass :=
  if ev.reported = false then none
  else if ev.missingMember then some .incomplete
  else if ev.anyMemberPresent = false ∧ ev.coverSummed = false then none
  else if ev.parentUsable = false then none
  else if ev.tainted then some .incomparable
  else if ev.parentRat ≠ ev.childSum then some .contradicted
  else if billable ev covered then some .covered
  else none

def scopeItems (aggregates : List AggregateMeasure) (scope : GoStr) : List AggregateMeasure :=
  aggregates.filter fun item => item.scopeKey = scope && (item.key.normalize table).isOk

/-- `completeChildPartitionCoverage` for one scope: the parents that it classifies. The set of
proven coverages can grow once for each of them. -/
def completeChildPartitionCoverage (aggregates : List AggregateMeasure) (scope : GoStr) :
    List (ℕ × PartitionClass) :=
  let cover := resolveCompleteCovers table program (scopeItems table aggregates scope)
  let evidence := program.coverParents.map (partitionEvidence program rules qualifiers cover)
  let covered := coveredFixpoint evidence (evidence.length + 1) []
  evidence.filterMap fun ev => (classifyPartition ev covered).map (ev.parent, ·)

end Coverage

/-- The state of the solver. A component is settled for a pass when nothing that its turn reads has
moved since. -/
structure Intervals where
  lower : ℕ → ℚ
  upper : ℕ → Option ℚ
  contradicted : ℕ → Bool
  settledUp : ℕ → Bool
  settledDown : ℕ → Bool
  changed : Bool

/-- The sums over the members of a coverage: of the lower bounds, of the finite upper bounds, and
how many upper bounds are infinite. -/
structure CoverTotals where
  lower : ℚ := 0
  upper : ℚ := 0
  infiniteUppers : ℕ := 0

namespace Intervals

def start (state : ℕ → QuantityEvidenceState) (exact : ℕ → ℚ) : Intervals where
  lower node := if state node = .exact then exact node else 0
  upper node := if state node = .exact then some (exact node) else none
  contradicted _ := false
  settledUp _ := false
  settledDown _ := false
  changed := false

variable (s : Intervals)

def boundLower (node : ℕ) : ℚ := if s.contradicted node then 0 else s.lower node

def boundUpper (node : ℕ) : Option ℚ := if s.contradicted node then none else s.upper node

end Intervals

section Solver

variable (program : SchemaProgram) (s : Intervals)

def markMoved (node : ℕ) : Intervals :=
  let due (n : ℕ) : Bool := n = node || (program.reverseContainment node).contains n
  { s with
    changed := true
    settledUp := fun n => s.settledUp n && !due n
    settledDown := fun n => s.settledDown n && !due n }

def raiseLower (node : ℕ) (q : ℚ) : Intervals :=
  if s.lower node < q then markMoved program { s with lower := Function.update s.lower node q } node
  else s

def cutUpper (node : ℕ) (q : ℚ) : Intervals :=
  if (s.upper node).all (q < ·) then
    markMoved program { s with upper := Function.update s.upper node (some q) } node
  else s

def flagCrossed (node : ℕ) : Intervals :=
  if (s.upper node).any (· < s.lower node) then
    markMoved program { s with contradicted := Function.update s.contradicted node true } node
  else s

variable (state : ℕ → QuantityEvidenceState) (represented : ℕ → Option ℚ) (s : Intervals)

def addMember (t : CoverTotals) (m : PartitionMember) : CoverTotals :=
  if counted state m = false then t
  else
    match s.boundUpper m.id with
    | some u => ⟨t.lower + s.boundLower m.id, t.upper + u, t.infiniteUppers⟩
    | none => ⟨t.lower + s.boundLower m.id, t.upper, t.infiniteUppers + 1⟩

def coverTotals (members : List PartitionMember) : CoverTotals :=
  members.foldl (addMember state s) {}

def boundFromMembers (parent : ℕ) : Intervals :=
  let members := program.completeChildren parent
  if members = [] then s
  else
    let totals := coverTotals state s members
    let s := raiseLower program s parent totals.lower
    if totals.infiniteUppers = 0 then cutUpper program s parent totals.upper else s

def upBody (parent : ℕ) : Intervals :=
  let s := boundFromMembers program state s parent
  let s := (program.subsetChildren parent).foldl (fun s child =>
    raiseLower program s parent (s.boundLower child)) s
  let s := flagCrossed program s parent
  { s with settledUp := Function.update s.settledUp parent true }

def upPass : Intervals :=
  program.topo.foldl (fun s parent =>
    if s.contradicted parent || s.settledUp parent then s else upBody program state s parent) s

/-- The loop over the members of a coverage, with the sums that are out of date when a member has
moved. -/
structure MemberLoop where
  intervals : Intervals
  totals : CoverTotals := {}
  stale : Bool := true

def remainder (q taken : ℚ) : ℚ := if q - taken < 0 then 0 else q - taken

def cutMember (totals : CoverTotals) (parent : ℕ) (m : PartitionMember) : Intervals :=
  match s.upper parent with
  | none => s
  | some u =>
    let others := if counted state m then totals.lower - s.lower m.id else totals.lower
    cutUpper program s m.id (remainder u others)

/-- The lower bound of the parent without the upper bounds of the other members, when these are all
finite; `ownUpper` is the member's upper bound that the sums have. -/
def raiseMember (totals : CoverTotals) (ownUpper : Option ℚ) (parent : ℕ) (m : PartitionMember) :
    Intervals :=
  let remaining : ℤ := totals.infiniteUppers - if counted state m && ownUpper.isNone then 1 else 0
  if remaining = 0 then
    let others := if counted state m then totals.upper - ownUpper.getD 0 else totals.upper
    raiseLower program s m.id (remainder (s.lower parent) others)
  else s

def memberBody (members : List PartitionMember) (parent : ℕ) (loop : MemberLoop)
    (m : PartitionMember) : MemberLoop :=
  let s := loop.intervals
  if s.contradicted m.id || (represented m.id).isNone then loop
  else
    let totals := if loop.stale then coverTotals state s members else loop.totals
    let moved := raiseMember program state (cutMember program state s totals parent m) totals
      (s.upper m.id) parent m
    let flagged := flagCrossed program moved m.id
    { intervals := flagged
      totals
      stale := flagged.lower m.id ≠ s.lower m.id ||
        flagged.upper m.id ≠ s.upper m.id || flagged.contradicted m.id }

def subsetBody (parent : ℕ) (s : Intervals) (child : ℕ) : Intervals :=
  if s.contradicted child then s
  else
    match s.upper parent with
    | none => s
    | some u => flagCrossed program (cutUpper program s child u) child

def downBody (parent : ℕ) : Intervals :=
  let members := program.completeChildren parent
  let s := (members.foldl (memberBody program state represented members parent) { intervals := s }).intervals
  let s := (program.subsetChildren parent).foldl (subsetBody program parent) s
  { s with settledDown := Function.update s.settledDown parent true }

def downPass : Intervals :=
  program.topo.foldl (fun s parent =>
    if s.contradicted parent || s.settledDown parent then s
    else downBody program state represented s parent) s

def sweep : Intervals := downPass program state represented (upPass program state s)

/-- At most so many sweeps; they end when no bound has ever moved. -/
def sweeps : ℕ → Intervals → Intervals
  | 0, s => s
  | n + 1, s =>
    let s := sweep program state represented s
    if s.changed then sweeps n s else s

def maxSweeps : ℕ := min (program.topo.length + 1) (2 * program.propagationDepth + 3)

def propagateQuantityIntervals (exact : ℕ → ℚ) : Intervals :=
  sweeps program state represented (maxSweeps program) (.start state exact)

end Solver

end InteractiveProxy.Billing
