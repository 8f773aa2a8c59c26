import InteractiveProxy.GoText
import InteractiveProxy.GuardedRun
import InteractiveProxy.SignedWord

/-! The publisher of runtime generations: an atomic counter and an atomic pointer. A call is a
sequence of operations on the two, and the operations of concurrent calls interleave. -/
namespace InteractiveProxy.SnapshotGen

open GoText GuardedRun SignedWord

inductive SnapshotState
  | unset | ready | stale | degraded | unavailable | disabled
  | unknown (s : GoStr)
  deriving DecidableEq

inductive Kind
  | usage | concurrency | rating

/-- A versioned snapshot; `body` is the rest of it. -/
structure Snapshot (α : Type) where
  version : GoStr := []
  state : SnapshotState := .unset
  body : Option α := none

structure RuntimeGeneration (α : Type) where
  id : Int64 := 0
  publishedAt : Time := 0
  state : SnapshotState := .unset
  reason : GoStr := []
  snapshots : Kind → Snapshot α := fun _ => {}

variable {α : Type}

/-- A call at `now`; `complete` is the answer of `ValidateComplete`. -/
inductive Call (α : Type)
  | publishMetadata (gen : RuntimeGeneration α) (now : Time)
  | publishExecutable (gen : RuntimeGeneration α) (complete : Bool) (now : Time)
  | markUnusable (state : SnapshotState) (reason : GoStr) (now : Time)

/-- What a generation comes from; a mark has the one that it loaded. -/
inductive Origin (α : Type)
  | metadata | executable
  | mark (cur : Option (RuntimeGeneration α))

/-- The next atomic operation of a call. -/
inductive Stage (α : Type)
  | load (state : SnapshotState) (reason : GoStr) (now : Time)
  | draw (gen : RuntimeGeneration α) (origin : Origin α)
  | fill (gen : RuntimeGeneration α)
  | store (gen : RuntimeGeneration α) (origin : Origin α)
  | done

def RuntimeGeneration.withDefaults (gen : RuntimeGeneration α) (now : Time) : RuntimeGeneration α :=
  { gen with
    publishedAt := if gen.publishedAt = 0 then now else gen.publishedAt
    state := if gen.state = .unset then .ready else gen.state }

def Call.start : Call α → Stage α
  | .publishMetadata gen now => .draw (gen.withDefaults now) .metadata
  | .publishExecutable gen complete now => if complete then .draw (gen.withDefaults now) .executable
    else .done
  | .markUnusable state reason now =>
    match state with
    | .stale | .degraded | .unavailable | .disabled => .load state reason now
    | _ => .done

/-- The publisher and the calls on it. `latest` keeps the snapshots of the last publication that was
stored. -/
structure Publisher (α : Type) where
  seq : Int64 := 0
  active : Option (RuntimeGeneration α) := none
  latest : Kind → Snapshot α := fun _ => {}
  calls : ℕ → Stage α

def Publisher.new (calls : ℕ → Call α) : Publisher α := { calls := fun i => (calls i).start }

def step (p : Publisher α) (i : ℕ) : Publisher α :=
  let next (stage : Stage α) : ℕ → Stage α := Function.update p.calls i stage
  match p.calls i with
  | .load state reason now =>
    let cur := p.active.getD {}
    { p with calls := next (.draw { cur with state, reason, publishedAt := now } (.mark p.active)) }
  | .draw gen origin =>
    let gen := { gen with id := p.seq + 1 }
    { p with
      seq := p.seq + 1
      calls := next (match origin with | .executable => .fill gen | _ => .store gen origin) }
  | .fill gen =>
    let missing (kind : Kind) : Bool :=
      (gen.snapshots kind).version = [] ∧ (gen.snapshots kind).state = .unset
    let snapshots := p.active.elim gen.snapshots
      fun prior kind => (if missing kind then prior else gen).snapshots kind
    { p with calls := next (.store { gen with snapshots } .executable) }
  | .store gen origin =>
    { p with
      active := some gen
      latest := match origin with | .mark _ => p.latest | _ => gen.snapshots
      calls := next .done }
  | .done => p

/-- The step does not put a lower number in place, nor, for a mark, other snapshots than the latest.
-/
def Orderly (p : Publisher α) (i : ℕ) : Prop :=
  (∀ old new, p.active = some old → (step p i).active = some new → old.id ≤ new.id) ∧
    ∀ gen cur, p.calls i = .store gen (.mark cur) → gen.snapshots = p.latest

/-- Nothing comes between: a call stores while its number is the last that was drawn, and a mark
while the generation is active that it loaded. The counter does not wrap. -/
def Undisturbed (p : Publisher α) (i : ℕ) : Prop :=
  match p.calls i with
  | .draw _ _ => p.seq ≤ p.seq + 1
  | .store gen origin => gen.id = p.seq ∧ ∀ cur, origin = .mark cur → cur = p.active
  | _ => True

/-- A mark goes on with the snapshots that it loaded. -/
def Stage.Faithful : Stage α → Prop
  | .draw gen (.mark cur) | .store gen (.mark cur) => gen.snapshots = (cur.getD {}).snapshots
  | _ => True

structure Sound (p : Publisher α) : Prop where
  drawn : ∀ g, p.active = some g → g.id ≤ p.seq
  latest : (p.active.getD {}).snapshots = p.latest
  faithful : ∀ i, (p.calls i).Faithful

lemma sound_new (calls : ℕ → Call α) : Sound (.new calls) := by
  refine ⟨by simp [Publisher.new], rfl, fun i => ?_⟩
  dsimp only [Publisher.new]
  cases calls i with
  | publishMetadata => trivial
  | publishExecutable gen complete => cases complete <;> trivial
  | markUnusable state => cases state <;> trivial

section

variable {p : Publisher α} {i : ℕ} (h : Sound p) (hi : Undisturbed p i)

include h hi

lemma Sound.orderly : Orderly p i := by
  unfold Undisturbed at hi
  constructor
  · intro old new hold hnew
    unfold step at hnew
    split at hnew
    case h_4 gen origin hstage =>
      rw [hstage] at hi
      cases hnew
      exact hi.1 ▸ h.drawn old hold
    all_goals
      cases hold.symm.trans hnew
      exact Int64.le_refl _
  · intro gen cur hstage
    have hsame := h.faithful i
    rw [hstage] at hi hsame
    rw [hsame, hi.2 cur rfl, h.latest]

lemma Sound.step : Sound (step p i) := by
  have hmark := (h.orderly hi).2
  have hown := h.faithful i
  have hkept (stage : Stage α) (hs : stage.Faithful) :
      ∀ j, (Function.update p.calls i stage j).Faithful :=
    (Function.forall_update_iff _ fun _ => Stage.Faithful).mpr ⟨hs, fun j _ => h.faithful j⟩
  unfold Undisturbed at hi
  unfold SnapshotGen.step
  cases hstage : p.calls i <;> rw [hstage] at hi hown
  case load => exact ⟨h.drawn, h.latest, hkept _ rfl⟩
  case draw gen origin =>
    refine ⟨fun g hg => Int64.le_trans (h.drawn g hg) hi, h.latest, hkept _ ?_⟩
    cases origin with
    | mark => exact hown
    | _ => trivial
  case fill => exact ⟨h.drawn, h.latest, hkept _ trivial⟩
  case store gen origin =>
    refine ⟨?_, ?_, hkept _ trivial⟩
    · rintro _ ⟨⟩
      exact hi.1 ▸ Int64.le_refl _
    · cases origin with
      | mark cur => exact hmark gen cur hstage
      | _ => rfl
  case done => exact h

end

/-- In an interleaving in which nothing comes between, the numbers that `Current` shows never
decrease, and a mark leaves the snapshots of the latest publication. -/
theorem publications_orderly (calls : ℕ → Call α) (schedule : List ℕ)
    (h : Meets step Undisturbed (.new calls) schedule) :
    Meets step Orderly (.new calls) schedule := by
  have hsound := sound_new calls
  generalize Publisher.new calls = p at *
  induction schedule generalizing p with
  | nil => trivial
  | cons i schedule ih => exact ⟨hsound.orderly h.1, ih _ h.2 (hsound.step h.1)⟩

def racing : ℕ → Call Unit
  | 0 => .publishMetadata { snapshots := fun _ => { version := [1] } } 1
  | 1 => .publishMetadata { snapshots := fun _ => { version := [2] } } 1
  | _ => .markUnusable .stale [] 1

theorem publications_orderly_mark : Meets step Orderly (.new racing) [0, 0, 1, 1, 2, 2, 2] ∧
    (run step (.new racing) [0, 0, 1, 1, 2, 2, 2]).active.map (fun g => (g.id, g.state, (g.snapshots .usage).version)) =
      some (3, .stale, [2]) := by
  refine ⟨publications_orderly racing _ ⟨(by decide : (0 : Int64) ≤ 0 + 1), ⟨rfl, nofun⟩,
    (by decide : (0 + 1 : Int64) ≤ 0 + 1 + 1), ⟨rfl, nofun⟩, trivial,
    (by decide : (0 + 1 + 1 : Int64) ≤ 0 + 1 + 1 + 1), ⟨rfl, ?_⟩, trivial⟩, by decide +kernel⟩
  rintro _ ⟨⟩
  rfl

/-- Publications store in the other order; a mark stores what it loaded before a publication. -/
theorem publications_race :
    let shown (schedule : List ℕ) :=
      (run step (.new racing) schedule).active.map fun g => (g.id, (g.snapshots .usage).version)
    (shown [0, 1, 1] = some (2, [2]) ∧ shown [0, 1, 1, 0] = some (1, [1])) ∧
      shown [0, 0, 2, 1, 1] = some (2, [2]) ∧ shown [0, 0, 2, 1, 1, 2, 2] = some (3, [1]) := by
  decide +kernel

end InteractiveProxy.SnapshotGen
