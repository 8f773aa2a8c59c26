import InteractiveProxy.GoText
import InteractiveProxy.GuardedRun
import InteractiveProxy.KeyedTable

/-! The coordinator of A-legs and their B-legs. An A-leg keeps the launches that are open and the
attempts that are registered, and its cancellation takes both away from it. What a call does after
it has left the A-leg's lock is kept as work that is still to be done, so that other calls come in
between. -/
namespace InteractiveProxy.LegLifecycle

open GoText GuardedRun KeyedTable

inductive CancelKind
  | unset
  | explicit
  | clientGone
  | contextDone
  | raceLoser
  | other (raw : GoStr)
  deriving DecidableEq

structure CancelCause where
  kind : CancelKind := .unset
  detail : GoStr := []
  deriving DecidableEq

def CancelCause.orContextDone (cause : CancelCause) : CancelCause :=
  if cause.kind = .unset then { cause with kind := .contextDone } else cause

structure LaunchCommitResult where
  canceled : Bool := false
  cause : CancelCause := {}
  deriving DecidableEq

inductive AttemptError
  | own (code : ℕ)
  | deadlineExceeded
  deriving DecidableEq

inductive Error
  | aLegCanceled
  | contextErr
  deriving DecidableEq

structure ALeg where
  canceled : Bool := false
  cause : CancelCause := {}
  launches : Table GoStr ℕ := ∅
  blegs : Table GoStr ℕ := ∅

namespace ALeg

def beginBLegLaunch (a : ALeg) (bLegID : GoStr) (entry : ℕ) : Except Error (ALeg × Option ℕ) :=
  if a.canceled then .error .aLegCanceled
  else .ok ({ a with launches := a.launches.insert bLegID entry }, a.launches.lookup bLegID)

def unlist (a : ALeg) (bLegID : GoStr) (entry : ℕ) : ALeg :=
  if a.launches.lookup bLegID = some entry then { a with launches := a.launches.erase bLegID }
  else a

def commit (a : ALeg) (bLegID : GoStr) (entry : ℕ) (handle : Option ℕ) :
    ALeg × LaunchCommitResult :=
  if a.canceled then (a.unlist bLegID entry, { canceled := true, cause := a.cause })
  else
    match handle with
    | none => (a.unlist bLegID entry, {})
    | some h => ({ a.unlist bLegID entry with blegs := a.blegs.insert bLegID h }, {})

def registerBLeg (a : ALeg) (ctxDone : Bool) (id : GoStr) (attempt : ℕ) :
    Except (CancelCause × Error) ALeg :=
  if a.canceled then .error (a.cause, .aLegCanceled)
  else if ctxDone then .error ({ kind := .contextDone }, .contextErr)
  else .ok { a with blegs := a.blegs.insert id attempt }

/-- The A-leg, the launches to cancel and the attempts to tear down; nothing if it is canceled
already. -/
def cancel (a : ALeg) (cause : CancelCause) : Option (ALeg × List ℕ × List ℕ) :=
  if a.canceled then none
  else
    some ({ canceled := true, cause := cause.orContextDone },
      a.launches.entries.map Sigma.snd, a.blegs.entries.map Sigma.snd)

def releaseBLeg (a : ALeg) (id : GoStr) : ALeg × Option ℕ :=
  ({ a with blegs := a.blegs.erase id, launches := a.launches.erase id }, a.launches.lookup id)

end ALeg

/-- `cancelAndClose`: the attempt's `Cancel` runs on its own; `Close` is called when it has returned
or its time is up. -/
structure Teardown where
  attempt : ℕ
  cause : CancelCause
  called : Bool := false
  returned : Option (List AttemptError) := none
  expired : Bool := false
  closed : Option (List AttemptError) := none

inductive TeardownEvent
  | callCancel
  | cancelReturns (errs : List AttemptError)
  | expire
  | close (errs : List AttemptError)

def TeardownEvent.callsCancel : TeardownEvent → Bool
  | .callCancel => true
  | _ => false

def TeardownEvent.callsClose : TeardownEvent → Bool
  | .close _ => true
  | _ => false

namespace Teardown

def advance (t : Teardown) : TeardownEvent → Option Teardown
  | .callCancel => if t.called then none else some { t with called := true }
  | .cancelReturns errs =>
    if t.called ∧ t.returned.isNone then some { t with returned := some errs } else none
  | .expire => if t.expired ∨ t.closed.isSome then none else some { t with expired := true }
  | .close errs =>
    if (t.expired ∨ t.returned.isSome) ∧ t.closed.isNone then some { t with closed := some errs }
    else none

def finished (t : Teardown) : Bool := t.returned.isSome && t.closed.isSome

end Teardown

structure LaunchPermit where
  bLegID : GoStr
  settled : Bool := false

inductive Settling
  | commit (k : ℕ) (bLegID : GoStr) (handle : Option ℕ)
  | abort (k : ℕ) (bLegID : GoStr)

namespace Settling

def permit : Settling → ℕ
  | .commit k .. => k
  | .abort k _ => k

def attempts : Settling → List ℕ
  | .commit _ _ handle => handle.toList
  | .abort .. => []

end Settling

structure Taken where
  cause : CancelCause
  launches : List ℕ

/-- An A-leg with its permits. `doomed` are the launches whose contexts a call has still to cancel,
`gone` those whose contexts are canceled. Attempts are numbered in the order in which calls hand
them over; `released` and `kept` are no part of the program: the attempts that were taken back, and
those that stay with the caller of `Commit`. -/
structure System where
  aleg : ALeg := {}
  permits : List LaunchPermit := []
  calls : List Settling := []
  doomed : List ℕ := []
  gone : List ℕ := []
  attempts : ℕ := 0
  teardowns : List Teardown := []
  cancelCalls : List ℕ := []
  closeCalls : List ℕ := []
  released : List ℕ := []
  kept : List ℕ := []
  taken : Option Taken := none

inductive Op
  | beginBLegLaunch (bLegID : GoStr)
  | commit (k : ℕ) (handle : Bool)
  | abort (k : ℕ)
  | settle (j : ℕ)
  | registerBLeg (id : GoStr) (ctxDone attempt : Bool)
  | releaseBLeg (id : GoStr)
  | cancel (cause : CancelCause)
  | cancelContext (j : ℕ)
  | teardown (j : ℕ) (event : TeardownEvent)

/-- What a call returns; `waits` if that is not yet known. A registration that fails has the errors
of its teardown joined to its own. -/
inductive Reply
  | waits
  | returns
  | launched (k : ℕ)
  | fails (err : Error)
  | committed (result : LaunchCommitResult)
  deriving DecidableEq

namespace System

/-- The launches that are begun and whose permits are not settled, or whose settling call is not yet
in the lock. -/
def openLaunches (s : System) : List ℕ :=
  (List.range s.permits.length).filter fun k =>
    (s.permits[k]?.any fun p => !p.settled) || k ∈ s.calls.map Settling.permit

def offer (s : System) (given : Bool) : Option ℕ := if given then some s.attempts else none

def tearDown (s : System) (cause : CancelCause) (attempts : List ℕ) : List Teardown :=
  s.teardowns ++ attempts.map fun attempt => { attempt, cause := cause.orContextDone }

def advance (s : System) (j : ℕ) (event : TeardownEvent) (t : Teardown) : System :=
  match t.advance event with
  | none => s
  | some t' =>
    { s with
      teardowns := s.teardowns.set j t'
      cancelCalls := (if event.callsCancel then [t.attempt] else []) ++ s.cancelCalls
      closeCalls := (if event.callsClose then [t.attempt] else []) ++ s.closeCalls }

end System

def perform (s : System) : Op → System × Reply
  | .beginBLegLaunch bLegID =>
    match s.aleg.beginBLegLaunch bLegID s.permits.length with
    | .error err => (s, .fails err)
    | .ok (aleg, old) =>
      ({ s with aleg, permits := s.permits ++ [{ bLegID }], gone := old.toList ++ s.gone }, .launched s.permits.length)
  | .commit k handle =>
    match s.permits[k]? with
    | none => (s, .committed {})
    | some p =>
      if p.settled then
        ({ s with attempts := s.attempts + handle.toNat, kept := (s.offer handle).toList ++ s.kept }, .committed {})
      else
        ({ s with
          permits := s.permits.set k { p with settled := true }
          attempts := s.attempts + handle.toNat
          calls := s.calls ++ [.commit k p.bLegID (s.offer handle)] }, .waits)
  | .abort k =>
    match s.permits[k]? with
    | none => (s, .returns)
    | some p =>
      if p.settled then (s, .returns)
      else
        ({ s with
          permits := s.permits.set k { p with settled := true }, calls := s.calls ++ [.abort k p.bLegID] },
          .waits)
  | .settle j =>
    match s.calls[j]? with
    | none => (s, .returns)
    | some (.commit k bLegID handle) =>
      let (aleg, result) := s.aleg.commit bLegID k handle
      if result.canceled then
        ({ s with
          aleg
          calls := s.calls.eraseIdx j
          doomed := k :: s.doomed
          kept := handle.toList ++ s.kept }, .committed result)
      else ({ s with aleg, calls := s.calls.eraseIdx j }, .committed result)
    | some (.abort k bLegID) =>
      ({ s with aleg := s.aleg.unlist bLegID k, calls := s.calls.eraseIdx j, doomed := k :: s.doomed }, .returns)
  | .registerBLeg id ctxDone attempt =>
    if attempt then
      match s.aleg.registerBLeg ctxDone id s.attempts with
      | .ok aleg => ({ s with aleg, attempts := s.attempts + 1 }, .returns)
      | .error (cause, err) =>
        ({ s with attempts := s.attempts + 1, teardowns := s.tearDown cause [s.attempts] }, .fails err)
    else (s, if ctxDone then .fails .contextErr else .returns)
  | .releaseBLeg id =>
    let (aleg, launch) := s.aleg.releaseBLeg id
    ({ s with
      aleg
      gone := launch.toList ++ s.gone
      released := (s.aleg.blegs.lookup id).toList ++ s.released }, .returns)
  | .cancel cause =>
    match s.aleg.cancel cause with
    | none => (s, .returns)
    | some (aleg, launches, attempts) =>
      ({ s with
        aleg
        doomed := launches ++ s.doomed
        teardowns := s.tearDown aleg.cause attempts
        taken := some ⟨aleg.cause, s.openLaunches⟩ }, .waits)
  | .cancelContext j =>
    match s.doomed[j]? with
    | none => (s, .returns)
    | some k => ({ s with doomed := s.doomed.eraseIdx j, gone := k :: s.gone }, .returns)
  | .teardown j event =>
    match s.teardowns[j]? with
    | none => (s, .returns)
    | some t => (s.advance j event t, .returns)

def step (s : System) (op : Op) : System := (perform s op).1

def Unregistered (s : System) : Op → Prop
  | .settle j => ∀ k bLegID h, s.calls[j]? = some (.commit k bLegID (some h)) →
    s.aleg.blegs.lookup bLegID = none
  | .registerBLeg id ctxDone attempt => ctxDone = false → attempt = true →
    s.aleg.blegs.lookup id = none
  | _ => True

/-- The A-legs by their ids, all that were ever made, and the calls of `CancelALeg` that have found
theirs. -/
structure Coordinator where
  alegs : Table GoStr ℕ := ∅
  legs : List System := []
  cancels : List (ℕ × CancelCause) := []

namespace Coordinator

inductive Op
  | startALeg (id : GoStr)
  | cancelALeg (id : GoStr) (cause : CancelCause)
  | cancelFound (j : ℕ)
  | endALeg (id : GoStr)
  | onLeg (r : ℕ) (op : LegLifecycle.Op)

variable (c : Coordinator)

def aLegOf (id : GoStr) : Coordinator × ℕ :=
  match c.alegs.lookup id with
  | some r => (c, r)
  | none => ({ c with alegs := c.alegs.insert id c.legs.length, legs := c.legs ++ [{}] }, c.legs.length)

def startALeg (id : GoStr) : Coordinator × ℕ := c.aLegOf id

def cancelALeg (id : GoStr) (cause : CancelCause) : Coordinator :=
  let (c, r) := c.aLegOf id
  { c with cancels := c.cancels ++ [(r, cause)] }

def onLeg (r : ℕ) (op : LegLifecycle.Op) : Coordinator :=
  { c with legs := c.legs.modify r fun leg => LegLifecycle.step leg op }

def step : Op → Coordinator
  | .startALeg id => (c.startALeg id).1
  | .cancelALeg id cause => c.cancelALeg id cause
  | .cancelFound j =>
    match c.cancels[j]? with
    | none => c
    | some (r, cause) => { c.onLeg r (.cancel cause) with cancels := c.cancels.eraseIdx j }
  | .endALeg id => { c with alegs := c.alegs.erase id }
  | .onLeg r op => c.onLeg r op

def Unregistered (c : Coordinator) : Op → Prop
  | .onLeg r op => ∀ leg, c.legs[r]? = some leg → LegLifecycle.Unregistered leg op
  | _ => True

end Coordinator

end InteractiveProxy.LegLifecycle
