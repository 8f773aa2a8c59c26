import InteractiveProxy.GuardedRun
import InteractiveProxy.ToolCallTail

/-! The engine that repairs tool calls: a name is looked up in the catalogue, arguments are
completed and fitted to the schema of the tool. What it answers has passed every check that a second
run makes. -/
namespace InteractiveProxy.ToolCallRepair

open GoText GuardedRun List

structure ToolDef where
  name : GoStr
  parameters : GoStr
  deriving DecidableEq

inductive Reason
  | validPassThrough
  | syntaxRepaired
  | toolNameNormalized
  | ambiguousToolName
  | unrepairable
  | argsTooLarge
  | other (code : GoStr)
  deriving DecidableEq

/-- What the engine calls: `json.Valid` and `utf8.Valid`, the shape guard, the compiler and the
validator of schemas `σ`, and the repairs that a schema suggests. The engine relies on none of their
answers beyond the tests it makes, so that they are arbitrary here. -/
structure Library (σ : Type) extends TailLibrary where
  jsonValid : GoStr → Bool
  utf8Valid : GoStr → Bool
  preflightArgsJSON : GoStr → ℤ → Except Reason Unit
  compile : GoStr → Except Reason σ
  schemaValidate : σ → GoStr → Bool
  deterministicRootPendingValue : σ → GoStr → Except Reason (GoStr × Reason)
  repairPreflightedArgsJSON : σ → GoStr → ℤ → Except Reason (GoStr × Option Reason)

structure Input where
  toolName : GoStr
  argsJSON : GoStr
  /-- A definition that the caller has looked up already; without one its name is empty. -/
  tool : ToolDef := ⟨[], []⟩
  catalog : List ToolDef
  maxArgsBytes : ℤ

inductive OutcomeKind
  | pass
  | rewrite
  | unrepairable
  deriving DecidableEq

structure Outcome where
  kind : OutcomeKind
  toolName : GoStr
  argsJSON : GoStr
  reasonCode : Reason
  deriving DecidableEq

def defaultMaxArgsBytes : ℤ := 64 * 1024

def Input.maxBytes (input : Input) : ℤ :=
  if input.maxArgsBytes ≤ 0 then defaultMaxArgsBytes else input.maxArgsBytes

def normalizeToolName (name : GoStr) : GoStr :=
  (name.filter (· ∉ [0x20, 0x09, 0x0A, 0x0D, 0x0C, 0x0B, 0x5F, 0x2D])).map lowerByte

/-- Of definitions with one name the last is indexed. -/
def exact (catalog : List ToolDef) (name : GoStr) : Option ToolDef :=
  catalog.reverse.find? (·.name = name)

def normalized (catalog : List ToolDef) (name : GoStr) : List ToolDef :=
  if normalizeToolName name = [] then []
  else catalog.filter fun t => normalizeToolName t.name = normalizeToolName name

def uniqueNormalized (catalog : List ToolDef) (name : GoStr) : Option ToolDef :=
  match normalized catalog name with
  | [t] => some t
  | _ => none

/-- The definition, the name to report and whether it is another name. -/
def resolveRepairTool (input : Input) : Except Reason (ToolDef × GoStr × Bool) :=
  if input.tool.name ≠ [] ∧ input.tool.name = input.toolName then
    .ok (input.tool, input.toolName, false)
  else
    match exact input.catalog input.toolName with
    | some t => .ok (t, input.toolName, false)
    | none =>
      match uniqueNormalized input.catalog input.toolName with
      | some t => .ok (t, t.name, true)
      | none =>
        .error (if (normalized input.catalog input.toolName).length > 1 then .ambiguousToolName else .unrepairable)

section Engine

variable {σ : Type} (lib : Library σ)

/-- The delimiters still open, innermost first, and whether the text ends in a string or behind its
backslash. -/
structure SuffixScan where
  stack : List UInt8 := []
  inString : Bool := false
  escape : Bool := false

def SuffixScan.read (s : SuffixScan) (c : UInt8) : Option SuffixScan :=
  if s.inString then
    if s.escape then some { s with escape := false }
    else if c = 0x5C then some { s with escape := true }
    else some { s with inString := c ≠ 0x22 }
  else if c = 0x22 then some { s with inString := true }
  else if c = 0x7B ∨ c = 0x5B then if s.stack.length ≥ 256 then none
  else some { s with stack := c :: s.stack }
  else if c = 0x7D then if s.stack.head? = some 0x7B then some { s with stack := s.stack.tail }
    else none
  else if c = 0x5D then if s.stack.head? = some 0x5B then some { s with stack := s.stack.tail }
    else none
  else some s

def completeJSONSuffix (input : GoStr) : Option GoStr :=
  if input = [] then none
  else if lib.jsonValid input then if lib.utf8Valid input then some input else none
  else do
    let s ← input.foldlM SuffixScan.read {}
    let out := input ++ (if s.inString then [0x22]
      else []) ++ s.stack.map fun c => if c = 0x7B then 0x7D else 0x5D
    if s.escape || !lib.jsonValid out || !lib.utf8Valid out then none else some out

def assembleCandidate (maxBytes : ℤ) (front value closers : GoStr) : Option GoStr :=
  let out := front ++ value ++ closers
  if out.length > maxBytes || !lib.jsonValid out || !lib.utf8Valid out then none else some out

def buildTrailingCommaCandidate (input : GoStr) (offset : ℕ) (closers : GoStr) (maxBytes : ℤ) :
    Option GoStr :=
  if input[offset]? ≠ some 0x2C then none
  else assembleCandidate lib maxBytes (input.take offset) (input.drop (offset + 1)) closers

def isEmptySchema (schema : GoStr) : Bool :=
  trimSpace schema = [] || trimSpace schema = lit "null"

/-- Valid JSON for the arguments, with the reason if they had to be changed. -/
def repairSyntax (tool : ToolDef) (args : GoStr) (maxBytes : ℤ) :
    Except Reason (GoStr × Option Reason) :=
  if lib.jsonValid args then .ok (args, none)
  else
    match (completeJSONSuffix lib args).filter (·.length ≤ maxBytes) with
    | some repaired => .ok (repaired, some .syntaxRepaired)
    | none =>
      match analyzeJSONTail lib.toTailLibrary lib.utf8Valid args with
      | none => .error .unrepairable
      | some (.trailingComma offset closers) =>
        match buildTrailingCommaCandidate lib args offset closers maxBytes with
        | some candidate => .ok (candidate, some .syntaxRepaired)
        | none => .error .unrepairable
      | some (.pendingRootValue property closers) => do
        reject (isEmptySchema tool.parameters) .unrepairable
        let compiled ← lib.compile tool.parameters
        let (value, reason) ← lib.deterministicRootPendingValue compiled property
        match assembleCandidate lib maxBytes args value closers with
        | some candidate => .ok (candidate, some reason)
        | none => .error .unrepairable

def validateWithMaxArgs (compiled : σ) (args : GoStr) (maxBytes : ℤ) : Bool :=
  (lib.preflightArgsJSON args maxBytes).isOk && lib.jsonValid args &&
    lib.schemaValidate compiled args

def syntaxOnlyOutcome (toolName args : GoStr) (nameChanged : Bool) : Option Reason → Outcome
  | some _ => ⟨.rewrite, toolName, args, .syntaxRepaired⟩
  | none => if nameChanged then ⟨.rewrite, toolName, args, .toolNameNormalized⟩
    else ⟨.pass, toolName, [], .validPassThrough⟩

def attempt (input : Input) : Except Reason Outcome := do
  reject (input.argsJSON.length > input.maxBytes) .argsTooLarge
  let (tool, toolName, nameChanged) ← resolveRepairTool input
  let (args, tailReason) ← repairSyntax lib tool input.argsJSON input.maxBytes
  lib.preflightArgsJSON args input.maxBytes
  if isEmptySchema tool.parameters then .ok (syntaxOnlyOutcome toolName args nameChanged tailReason)
  else
    let compiled ← lib.compile tool.parameters
    if validateWithMaxArgs lib compiled args input.maxBytes then
      match tailReason with
      | some reason => .ok ⟨.rewrite, toolName, args, reason⟩
      | none => .ok (syntaxOnlyOutcome toolName args nameChanged none)
    else
      let (repaired, schemaReason) ← lib.repairPreflightedArgsJSON compiled args input.maxBytes
      let candidate := if schemaReason.isSome then repaired else args
      reject (schemaReason = none ∧ tailReason = none ∧ nameChanged = false) .unrepairable
      reject (candidate.length > input.maxBytes) .argsTooLarge
      lib.preflightArgsJSON candidate input.maxBytes
      reject (validateWithMaxArgs lib compiled candidate input.maxBytes = false) .unrepairable
      .ok ⟨.rewrite, toolName, candidate, tailReason.getD (schemaReason.getD .toolNameNormalized)⟩

/-- `Repair`, where no context can be canceled. -/
def repair (input : Input) : Outcome :=
  match attempt lib input with
  | .ok out => out
  | .error reason => ⟨.unrepairable, input.toolName, input.argsJSON, reason⟩

end Engine

lemma exact_of_uniqueNormalized {catalog : List ToolDef} {name : GoStr} {t : ToolDef}
    (h : uniqueNormalized catalog name = some t) : exact catalog t.name = some t := by
  have hone : normalized catalog name = [t] := by
    unfold uniqueNormalized at h
    split at h <;> simp_all
  unfold normalized at hone
  split_ifs at hone
  have hmem (u : ToolDef) : u ∈ catalog ∧ normalizeToolName u.name = normalizeToolName name ↔
      u = t := by
    rw [← @mem_singleton _ u t, ← hone]
    simp
  obtain ⟨ht, hnorm⟩ := (hmem t).mpr rfl
  obtain ⟨u, hu⟩ : ∃ u, exact catalog t.name = some u := by
    rw [← Option.isSome_iff_exists, exact, find?_isSome]
    exact ⟨t, mem_reverse.mpr ht, by simp⟩
  have hname : u.name = t.name := by simpa using find?_some hu
  rw [hu, (hmem u).mp ⟨mem_reverse.mp (mem_of_find?_eq_some hu), by rw [hname, hnorm]⟩]

/-- The definition that the caller gives, if any, is that of the catalogue. -/
def Input.Looked (input : Input) : Prop :=
  input.tool.name = [] ∨ exact input.catalog input.tool.name = some input.tool

variable {toolName : GoStr}

lemma resolve_again {input : Input} (hlooked : input.Looked) {tool : ToolDef} {changed : Bool}
    (h : resolveRepairTool input = .ok (tool, toolName, changed)) (args : GoStr) :
    resolveRepairTool { input with toolName, argsJSON := args } = .ok (tool, toolName, false) := by
  by_cases hgiven : input.tool.name ≠ [] ∧ input.tool.name = input.toolName
  · rw [resolveRepairTool, if_pos hgiven] at h
    cases h
    exact if_pos hgiven
  rw [resolveRepairTool, if_neg hgiven] at h
  have hfound : exact input.catalog toolName = some tool := by
    cases hexact : exact input.catalog input.toolName with
    | some t =>
      rw [hexact] at h
      cases h
      exact hexact
    | none =>
      cases hunique : uniqueNormalized input.catalog input.toolName with
      | some t =>
        simp only [hexact, hunique] at h
        cases h
        exact exact_of_uniqueNormalized hunique
      | none => simp [hexact, hunique] at h
  simp only [resolveRepairTool, hfound]
  split_ifs with hsame
  · have hgiven := hlooked.resolve_left hsame.1
    rw [hsame.2, hfound] at hgiven
    rw [Option.some.inj hgiven]
  · rfl

variable {σ : Type} {lib : Library σ} {tool : ToolDef} {args out : GoStr} {maxBytes : ℤ}
  {input : Input} {outcome : Outcome}

lemma valid_of_completeJSONSuffix (h : completeJSONSuffix lib args = some out) :
    lib.jsonValid out := by
  unfold completeJSONSuffix at h
  split_ifs at h with hempty hvalid
  · cases h
    exact hvalid
  · obtain ⟨s, -, h⟩ := Option.bind_eq_some_iff.mp h
    obtain ⟨hgood, h⟩ := Option.ite_none_left_eq_some.mp h
    simp_all

lemma assembleCandidate_eq_some {front value closers : GoStr}
    (h : assembleCandidate lib maxBytes front value closers = some out) :
    lib.jsonValid out ∧ out.length ≤ maxBytes := by
  obtain ⟨hgood, h⟩ := Option.ite_none_left_eq_some.mp h
  cases h
  simp_all

lemma repairSyntax_ok {reason : Option Reason}
    (h : repairSyntax lib tool args maxBytes = .ok (out, reason)) (hlen : args.length ≤ maxBytes) :
    lib.jsonValid out ∧ out.length ≤ maxBytes := by
  unfold repairSyntax at h
  split_ifs at h with hvalid
  · cases h
    exact ⟨hvalid, hlen⟩
  split at h
  · next hsuffix =>
    cases h
    obtain ⟨hsuffix, hfits⟩ := Option.filter_eq_some_iff.mp hsuffix
    exact ⟨valid_of_completeJSONSuffix hsuffix, by simpa using hfits⟩
  split at h
  · cases h
  · split at h
    · next hcandidate =>
      cases h
      unfold buildTrailingCommaCandidate at hcandidate
      split_ifs at hcandidate
      exact assembleCandidate_eq_some hcandidate
    · cases h
  · obtain ⟨-, h⟩ := seq_eq_ok.mp h
    obtain ⟨compiled, -, h⟩ := bind_eq_ok.mp h
    obtain ⟨⟨value, why⟩, -, h⟩ := bind_eq_ok.mp h
    dsimp only at h
    split at h
    · next hcandidate =>
      cases h
      exact assembleCandidate_eq_some hcandidate
    · cases h

/-- The arguments are JSON that the schema of the tool accepts, if it has one. -/
def Accepts (lib : Library σ) (tool : ToolDef) (args : GoStr) (maxBytes : ℤ) : Prop :=
  lib.jsonValid args = true ∧ (isEmptySchema tool.parameters ∨
    ∃ compiled, lib.compile tool.parameters = .ok compiled ∧
    validateWithMaxArgs lib compiled args maxBytes)

/-- Everything the engine asks of arguments that it passes. -/
structure Checked (lib : Library σ) (tool : ToolDef) (args : GoStr) (maxBytes : ℤ) : Prop where
  accepts : Accepts lib tool args maxBytes
  fits : args.length ≤ maxBytes
  shape : lib.preflightArgsJSON args maxBytes = .ok ()

lemma attempt_pass (hresolve : resolveRepairTool input = .ok (tool, toolName, false))
    (h : Checked lib tool input.argsJSON input.maxBytes) :
    attempt lib input = .ok ⟨.pass, toolName, [], .validPassThrough⟩ := by
  obtain ⟨⟨hvalid, haccepts⟩, hfits, hshape⟩ := h
  have hsyntax : repairSyntax lib tool input.argsJSON input.maxBytes = .ok (input.argsJSON, none) :=
    if_pos hvalid
  refine seq_eq_ok.mpr ⟨reject_eq_ok.mpr (Int.not_lt.mpr hfits), bind_eq_ok.mpr ⟨_, hresolve, ?_⟩⟩
  refine bind_eq_ok.mpr ⟨_, hsyntax, seq_eq_ok.mpr ⟨hshape, ?_⟩⟩
  split_ifs with hempty
  · rfl
  · obtain ⟨compiled, hcompile, hvalidate⟩ := haccepts.resolve_left hempty
    refine bind_eq_ok.mpr ⟨compiled, hcompile, ?_⟩
    rw [if_pos hvalidate]
    rfl

/-- An outcome of the engine is a pass, or a rewrite that would pass. -/
lemma attempt_ok (h : attempt lib input = .ok outcome) :
    outcome.kind = .pass ∨ outcome.kind = .rewrite ∧ ∃ tool changed,
      resolveRepairTool input = .ok (tool, outcome.toolName, changed) ∧
      Checked lib tool outcome.argsJSON input.maxBytes := by
  obtain ⟨hfits, h⟩ := seq_eq_ok.mp h
  rw [reject_eq_ok, Int.not_lt] at hfits
  obtain ⟨⟨tool, toolName, changed⟩, hresolve, h⟩ := bind_eq_ok.mp h
  obtain ⟨⟨args, tailReason⟩, hsyntax, h⟩ := bind_eq_ok.mp h
  obtain ⟨hshape, h⟩ := seq_eq_ok.mp h
  obtain ⟨hvalid, hlen⟩ := repairSyntax_ok hsyntax hfits
  -- without a repair by the schema the arguments have been checked before the outcome is made
  have hplain (haccepts : Accepts lib tool args input.maxBytes) (reason : Option Reason) :
      (syntaxOnlyOutcome toolName args changed reason).kind = .pass ∨
        (syntaxOnlyOutcome toolName args changed reason).kind = .rewrite ∧
            ∃ tool changed', resolveRepairTool input =
            .ok (tool, (syntaxOnlyOutcome toolName args changed reason).toolName, changed') ∧
          Checked lib tool (syntaxOnlyOutcome toolName args changed reason).argsJSON input.maxBytes := by
    unfold syntaxOnlyOutcome
    split
    · exact .inr ⟨rfl, tool, changed, hresolve, haccepts, hlen, hshape⟩
    · split_ifs
      · exact .inr ⟨rfl, tool, changed, hresolve, haccepts, hlen, hshape⟩
      · exact .inl rfl
  split_ifs at h with hempty
  · cases h
    exact hplain ⟨hvalid, .inl hempty⟩ tailReason
  obtain ⟨compiled, hcompile, h⟩ := bind_eq_ok.mp h
  split_ifs at h with hvalidate
  · have haccepts : Accepts lib tool args input.maxBytes :=
      ⟨hvalid, .inr ⟨compiled, hcompile, hvalidate⟩⟩
    split at h
    · cases h
      exact .inr ⟨rfl, tool, changed, hresolve, haccepts, hlen, hshape⟩
    · cases h
      exact hplain haccepts none
  · obtain ⟨⟨repaired, schemaReason⟩, -, h⟩ := bind_eq_ok.mp h
    simp only [seq_eq_ok, reject_eq_ok, Int.not_lt, Bool.not_eq_false] at h
    obtain ⟨-, hlen, hshape, hvalidate, h⟩ := h
    cases h
    have hjson : lib.jsonValid (if schemaReason.isSome then repaired else args) := by
      simp only [validateWithMaxArgs, Bool.and_eq_true] at hvalidate
      exact hvalidate.1.2
    exact .inr ⟨rfl, tool, changed, hresolve, ⟨hjson, .inr ⟨compiled, hcompile, hvalidate⟩⟩, hlen, hshape⟩

lemma checked_of_attempt (h : attempt lib input = .ok outcome)
    (haccepts : Accepts lib tool input.argsJSON input.maxBytes) :
    Checked lib tool input.argsJSON input.maxBytes := by
  obtain ⟨hfits, h⟩ := seq_eq_ok.mp h
  rw [reject_eq_ok, Int.not_lt] at hfits
  obtain ⟨_, -, h⟩ := bind_eq_ok.mp h
  obtain ⟨_, hsyntax, h⟩ := bind_eq_ok.mp h
  rw [repairSyntax, if_pos haccepts.1] at hsyntax
  cases hsyntax
  exact ⟨haccepts, hfits, (seq_eq_ok.mp h).1⟩

/-- A rewrite is JSON within the bound that the schema of its tool accepts, and a second run passes
it; what is accepted already is not rewritten, and what is not repaired comes back as it was. -/
theorem repair_sound_idempotent (lib : Library σ) (input : Input) (hlooked : input.Looked) :
    ((repair lib input).kind = .rewrite →
      (∃ tool changed, resolveRepairTool input = .ok (tool, (repair lib input).toolName, changed) ∧
        Accepts lib tool (repair lib input).argsJSON input.maxBytes) ∧
      (repair lib input).argsJSON.length ≤ input.maxBytes ∧
      (repair lib { input with
        toolName := (repair lib input).toolName, argsJSON := (repair lib input).argsJSON }).kind =
        .pass) ∧
    (∀ tool, resolveRepairTool input = .ok (tool, input.toolName, false) →
      Accepts lib tool input.argsJSON input.maxBytes → (repair lib input).kind ≠ .rewrite) ∧
    ((repair lib input).kind = .unrepairable →
      (repair lib input).toolName = input.toolName ∧
      (repair lib input).argsJSON = input.argsJSON) := by
  cases h : attempt lib input with
  | error reason =>
    rw [show repair lib input = ⟨.unrepairable, input.toolName, input.argsJSON, reason⟩ by rw [repair, h]]
    exact ⟨nofun, fun _ _ _ => nofun, fun _ => ⟨rfl, rfl⟩⟩
  | ok outcome =>
    rw [show repair lib input = outcome by rw [repair, h]]
    refine ⟨fun hkind => ?_, fun tool hresolve haccepts => ?_, fun hkind => ?_⟩
    · obtain hpass | ⟨-, tool, changed, hresolve, hchecked⟩ := attempt_ok h
      · simp [hpass] at hkind
      · refine ⟨⟨tool, changed, hresolve, hchecked.accepts⟩, hchecked.fits, ?_⟩
        rw [repair, attempt_pass (resolve_again hlooked hresolve outcome.argsJSON) hchecked]
    · cases (attempt_pass hresolve (checked_of_attempt h haccepts)).symm.trans h
      nofun
    · obtain hpass | ⟨hrewrite, -⟩ := attempt_ok h
      · simp [hpass] at hkind
      · simp [hrewrite] at hkind

def plainLibrary : Library Unit where
  jsonValid s := s = lit "\x7b\x7d"
  utf8Valid _ := true
  preflightArgsJSON _ _ := .ok ()
  compile _ := .ok ()
  schemaValidate _ _ := true
  unquote _ := none
  scalar _ := false
  deterministicRootPendingValue _ _ := .error .unrepairable
  repairPreflightedArgsJSON _ _ _ := .error .unrepairable

/-- A call with another spelling of the name and a brace too few. -/
def brokenCall : Input :=
  ⟨lit "Read-File", lit "\x7b", ⟨[], []⟩, [⟨lit "read_file", lit "\x7b\x7d"⟩], 0⟩

theorem repair_sound_idempotent_broken : (repair plainLibrary brokenCall).kind = .rewrite ∧
    (repair plainLibrary
    { brokenCall with toolName := lit "read_file", argsJSON := lit "\x7b\x7d" }).kind = .pass := by
  refine ⟨?rewrites, ((repair_sound_idempotent plainLibrary brokenCall (.inl rfl)).1 ?rewrites).2.2⟩
  decide +kernel

end InteractiveProxy.ToolCallRepair
