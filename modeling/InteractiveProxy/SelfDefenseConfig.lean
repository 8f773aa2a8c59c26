import InteractiveProxy.IngressDefense

/-! The compiler of the configuration of the defense: what it accepts is within bounds. -/
namespace InteractiveProxy.SelfDefense

open GoText GuardedRun NetAddress SignedWord IngressDefense

def second : Duration := 1000000000
def minute : Duration := 60000000000
def hour : Duration := 3600000000000

def defaultSelfDefenseAuthFailures : Int64 := 5
def defaultSelfDefenseWindow : Duration := minute
def defaultSelfDefenseInitialQuarantine : Duration := minute
def defaultSelfDefenseMaxQuarantine : Duration := 2 * hour
def defaultSelfDefenseStateTTL : Duration := 24 * hour
def defaultSelfDefenseMaxEntries : Int64 := 100000

def minSelfDefenseAuthFailures : Int64 := 2
def maxSelfDefenseAuthFailures : Int64 := 100
def minSelfDefenseWindow : Duration := second
def maxSelfDefenseWindow : Duration := hour
def minSelfDefenseInitial : Duration := second
def maxSelfDefenseInitial : Duration := hour
def maxSelfDefenseQuarantine : Duration := 24 * hour
def minSelfDefenseStateTTL : Duration := minute
def maxSelfDefenseStateTTL : Duration := 7 * 24 * hour
def minSelfDefenseMaxEntries : Int64 := 1024
def maxSelfDefenseMaxEntries : Int64 := 1000000

structure SelfDefenseAdaptiveConfig where
  authFailures : Option Int64 := none
  window : GoStr := []
  initialQuarantine : GoStr := []
  maxQuarantine : GoStr := []
  stateTTL : GoStr := []
  maxEntries : Option Int64 := none
  exemptCIDRs : List GoStr := []

structure SelfDefenseConfig where
  enabled : Option Bool := none
  impossiblePaths : Option Bool := none
  adaptive : SelfDefenseAdaptiveConfig := {}

structure CompiledSelfDefense where
  enabled : Bool
  impossiblePaths : Bool
  authFailures : Int64
  failureWindow : Duration
  initialQuarantine : Duration
  maxQuarantine : Duration
  stateTTL : Duration
  maxEntries : Int64
  exemptCIDRs : List Prefix

structure Parsers where
  parseDuration : GoStr → Option Duration
  parsePrefix : GoStr → Option Prefix
  parseAddr : GoStr → Option Addr

inductive Problem
  | intRange (lo hi got : Int64)
  | durationRange (lo hi got : Duration)
  | above (hi got : Duration)
  | belowInitial (initial got : Duration)
  | invalidDuration (raw : GoStr)
  | notPositive
  | emptyValue
  | invalidCIDR (value : GoStr)
  | invalidMapped (value : GoStr)
  | invalidAddress (value : GoStr)
  | policy (e : PolicyError)
  | limits (e : LimitsError)

structure ConfigError where
  field : GoStr
  problem : Problem

def parsePositiveDurationOrDefault (lib : Parsers) (raw : GoStr) (default : Duration)
    (field : GoStr) : Except ConfigError Duration :=
  let raw := trimSpace raw
  if raw = [] then .ok default
  else
    match lib.parseDuration raw with
    | none => .error ⟨field, .invalidDuration raw⟩
    | some d => if d ≤ 0 then .error ⟨field, .notPositive⟩ else .ok d

def compilePrefix (lib : Parsers) (field : GoStr) (raw : GoStr) : Except ConfigError Prefix :=
  let value := trimSpace raw
  if value = [] then .error ⟨field, .emptyValue⟩
  else if value.contains 0x2F then
    match lib.parsePrefix value with
    | none => .error ⟨field, .invalidCIDR value⟩
    | some p =>
      let bits := if p.ip.is4In6 then p.length - 96 else p.length
      if p.ip.is4In6 = true ∧ bits < 0 then .error ⟨field, .invalidMapped value⟩
      else .ok (prefixFrom p.ip.unmap bits).masked
  else
    match lib.parseAddr value with
    | none => .error ⟨field, .invalidAddress value⟩
    | some addr => .ok (prefixFrom addr.unmap (if addr.unmap.is4 then 32 else 128))

def compilePrefixes (lib : Parsers) (field : GoStr) (raw : List GoStr) :
    Except ConfigError (List Prefix) :=
  raw.zipIdx.mapM
    fun (value, i) => compilePrefix lib (field ++ lit "[" ++ formatNat i ++ lit "]") value

def adaptiveField (name : String) : GoStr := lit "access.self_defense.adaptive." ++ lit name

def checkDuration (field : GoStr) (lo hi d : Duration) : Except ConfigError Unit :=
  reject (d < lo ∨ hi < d) ⟨field, .durationRange lo hi d⟩

def checkInt (field : GoStr) (lo hi n : Int64) : Except ConfigError Unit :=
  reject (n < lo ∨ hi < n) ⟨field, .intRange lo hi n⟩

namespace CompiledSelfDefense

def policy (c : CompiledSelfDefense) : Policy :=
  ⟨c.enabled, c.authFailures, c.failureWindow, c.initialQuarantine, c.maxQuarantine, c.exemptCIDRs⟩

def stateLimits (c : CompiledSelfDefense) : StateLimits := ⟨c.maxEntries, c.stateTTL⟩

end CompiledSelfDefense

def compileSelfDefense (lib : Parsers) (config : SelfDefenseConfig) :
    Except ConfigError CompiledSelfDefense := do
  let a := config.adaptive
  let authFailures := a.authFailures.getD defaultSelfDefenseAuthFailures
  checkInt (adaptiveField "auth_failures") minSelfDefenseAuthFailures maxSelfDefenseAuthFailures authFailures
  let failureWindow ←
    parsePositiveDurationOrDefault lib a.window defaultSelfDefenseWindow (adaptiveField "window")
  checkDuration (adaptiveField "window") minSelfDefenseWindow maxSelfDefenseWindow failureWindow
  let initialQuarantine ← parsePositiveDurationOrDefault lib a.initialQuarantine
    defaultSelfDefenseInitialQuarantine (adaptiveField "initial_quarantine")
  checkDuration (adaptiveField "initial_quarantine")
    minSelfDefenseInitial maxSelfDefenseInitial initialQuarantine
  let maxQuarantine ← parsePositiveDurationOrDefault lib a.maxQuarantine
    defaultSelfDefenseMaxQuarantine (adaptiveField "max_quarantine")
  reject (maxSelfDefenseQuarantine < maxQuarantine)
    ⟨adaptiveField "max_quarantine", .above maxSelfDefenseQuarantine maxQuarantine⟩
  reject (maxQuarantine < initialQuarantine)
    ⟨adaptiveField "max_quarantine", .belowInitial initialQuarantine maxQuarantine⟩
  let stateTTL ←
    parsePositiveDurationOrDefault lib a.stateTTL defaultSelfDefenseStateTTL
    (adaptiveField "state_ttl")
  checkDuration (adaptiveField "state_ttl") minSelfDefenseStateTTL maxSelfDefenseStateTTL stateTTL
  let maxEntries := a.maxEntries.getD defaultSelfDefenseMaxEntries
  checkInt (adaptiveField "max_entries") minSelfDefenseMaxEntries maxSelfDefenseMaxEntries maxEntries
  let exemptCIDRs ← compilePrefixes lib (adaptiveField "exempt_cidrs") a.exemptCIDRs
  let compiled : CompiledSelfDefense :=
    ⟨config.enabled.getD true, config.impossiblePaths.getD true, authFailures, failureWindow,
      initialQuarantine, maxQuarantine, stateTTL, maxEntries, exemptCIDRs⟩
  compiled.policy.validate.mapError fun e => ⟨lit "access.self_defense", .policy e⟩
  compiled.stateLimits.validate.mapError fun e => ⟨lit "access.self_defense", .limits e⟩
  return compiled

structure InBounds (c : CompiledSelfDefense) : Prop where
  initial_pos : 0 < c.initialQuarantine.toInt
  initial_le_max : c.initialQuarantine.toInt ≤ c.maxQuarantine.toInt
  ttl_pos : 0 < c.stateTTL.toInt
  limits : c.stateLimits.validate = .ok ()

lemma compileSelfDefense_ok {lib : Parsers} {config : SelfDefenseConfig} {c : CompiledSelfDefense}
    (h : compileSelfDefense lib config = .ok c) : InBounds c := by
  simp only [compileSelfDefense, bind_eq_ok] at h
  obtain ⟨_, -, failureWindow, -, _, -, initial, -, _, hinitial, maximum, -, _, -, _, hmax, ttl, -,
    _, httl, _, -, exempt, -, _, -, _, hlimits, h⟩ := h
  cases h
  rw [checkDuration, reject_eq_ok, Int64.lt_iff_toInt_lt] at hinitial httl
  rw [reject_eq_ok, Int64.lt_iff_toInt_lt] at hmax
  have hsecond : minSelfDefenseInitial.toInt = 1000000000 := rfl
  have hminute : minSelfDefenseStateTTL.toInt = 60000000000 := rfl
  exact ⟨by dsimp only; omega, by dsimp only; omega, by dsimp only; omega, mapError_eq_ok.mp hlimits⟩

end InteractiveProxy.SelfDefense
