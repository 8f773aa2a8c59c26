import InteractiveProxy.GoText

/-! The scan of arguments that are not JSON, for an end that can be repaired: a comma with nothing
behind it, or a property of the root without its value. -/
namespace InteractiveProxy.ToolCallRepair

open GoText List

inductive TailAnalysis
  | trailingComma (commaOffset : ℕ) (closers : GoStr)
  | pendingRootValue (propertyName closers : GoStr)

inductive TailState
  | objectKeyOrEnd
  | objectKeyAfterComma
  | objectColon
  | objectValue
  | objectCommaOrEnd
  | arrayValueOrEnd
  | arrayValueAfterComma
  | arrayCommaOrEnd

structure TailFrame where
  kind : UInt8
  state : TailState
  /-- The last property of the object, once there is one. -/
  key : Option GoStr := none

def newTailFrame (kind : UInt8) : TailFrame :=
  { kind, state := if kind = 0x7B then .objectKeyOrEnd else .arrayValueOrEnd }

def tailClosers (stack : List TailFrame) : GoStr :=
  stack.map fun f => if f.kind = 0x7B then 0x7D else 0x5D

def isJSONWhitespace (c : UInt8) : Bool := c ∈ lit " \t\r\n"

def isPrimitiveDelimiter (c : UInt8) : Bool := isJSONWhitespace c || c ∈ lit ",]\x7d"

def isHex (c : UInt8) : Bool :=
  (0x30 ≤ c && c ≤ 0x39) || (0x61 ≤ c && c ≤ 0x66) || (0x41 ≤ c && c ≤ 0x46)

/-- The loop of `skipJSONString`: what is left behind the closing quote. -/
def skipString : GoStr → Option GoStr
  | 0x5C :: 0x75 :: a :: b :: c :: d :: rest =>
    if [a, b, c, d].all isHex then skipString rest else none
  | 0x5C :: e :: rest => if e ∈ lit "\"\\/bfnrt" then skipString rest else none
  | c :: rest =>
    if c < 0x20 ∨ c = 0x5C then none else if c = 0x22 then some rest else skipString rest
  | [] => none

/-- What the scan asks of `encoding/json`: the text of a quoted string, and whether a token is valid
and decodes to something other than an object or a list. -/
structure TailLibrary where
  unquote : GoStr → Option GoStr
  scalar : GoStr → Bool

/-- The open containers, the innermost first, and how much input was left at the last comma if only
blanks followed it. -/
structure TailScan where
  stack : List TailFrame := []
  rootDone : Bool := false
  terminalComma : Option ℕ := none

section Scan

variable (lib : TailLibrary) (c : UInt8) (rest : GoStr)

def consumePrimitive : Option GoStr :=
  let token := (c :: rest).takeWhile fun c => !isPrimitiveDelimiter c
  if token = [] then none
  else if token ∈ [lit "true", lit "false", lit "null"] ∨ lib.scalar token then
    some ((c :: rest).drop token.length)
  else none

def consumeValue : Option GoStr :=
  if c = 0x7B ∨ c = 0x5B then some rest else if c = 0x22 then skipString rest
  else consumePrimitive lib c rest

variable (top : TailFrame) (below : List TailFrame)

def consumeObjectKey : Option (TailScan × GoStr) :=
  if c ≠ 0x22 then none
  else do
    let next ← skipString rest
    let key ← lib.unquote (c :: rest.take (rest.length - next.length))
    some ({ stack := { top with key := some key, state := .objectColon } :: below }, next)

def consumeChildValue (completed : TailState) : Option (TailScan × GoStr) := do
  let next ← consumeValue lib c rest
  if c = 0x7B ∨ c = 0x5B then
    if below.length + 1 ≥ 256 then none
    else some ({ stack := newTailFrame c :: top :: below }, next)
  else some ({ stack := { top with state := completed } :: below }, next)

/-- A container ends: the root is done, or the frame around it has its value. -/
def completeTailChild : List TailFrame → Option TailScan
  | [] => some { rootDone := true }
  | top :: below =>
    match top.state with
    | .objectValue => some { stack := { top with state := .objectCommaOrEnd } :: below }
    | .arrayValueOrEnd | .arrayValueAfterComma => some { stack := { top with state := .arrayCommaOrEnd } :: below }
    | _ => none

def consumeCommaOrEnd (closer : UInt8) (afterComma : TailState) : Option TailScan :=
  if c = 0x2C then
    some { stack := { top with state := afterComma } :: below, terminalComma := some (rest.length + 1) }
  else if c = closer then completeTailChild below
  else none

/-- A turn of the loop of `analyzeJSONTail`: the state behind it, and the input that is left. -/
def TailScan.turn (s : TailScan) : Option (TailScan × GoStr) :=
  if isJSONWhitespace c then some (s, rest)
  else
    match s.stack with
    | [] =>
      if s.rootDone then none
      else (consumeValue lib c rest).map fun next =>
        (if c = 0x7B ∨ c = 0x5B then { stack := [newTailFrame c] } else { rootDone := true }, next)
    | top :: below =>
      match top.state with
      | .objectKeyOrEnd =>
        if c = 0x7D then (completeTailChild below).map (·, rest)
        else consumeObjectKey lib c rest top below
      | .objectKeyAfterComma => consumeObjectKey lib c rest top below
      | .objectColon =>
        if c = 0x3A then some ({ stack := { top with state := .objectValue } :: below }, rest)
        else none
      | .objectValue => consumeChildValue lib c rest top below .objectCommaOrEnd
      | .objectCommaOrEnd => (consumeCommaOrEnd c rest top below 0x7D .objectKeyAfterComma).map (·, rest)
      | .arrayValueOrEnd =>
        if c = 0x5D then (completeTailChild below).map (·, rest)
        else consumeChildValue lib c rest top below .arrayCommaOrEnd
      | .arrayValueAfterComma => consumeChildValue lib c rest top below .arrayCommaOrEnd
      | .arrayCommaOrEnd => (consumeCommaOrEnd c rest top below 0x5D .arrayValueAfterComma).map (·, rest)

end Scan

variable {lib : TailLibrary} {c : UInt8} {input rest next : GoStr} {s s' : TailScan}

lemma skipString_length (h : skipString input = some rest) : rest.length ≤ input.length := by
  fun_induction skipString input <;> grind

lemma consumeValue_length (h : consumeValue lib c rest = some next) :
    next.length ≤ rest.length := by
  unfold consumeValue consumePrimitive at h
  dsimp only at h
  split_ifs at h with hopen hquote hempty
  · cases h
    exact le_rfl
  · exact skipString_length h
  · cases h
    have hpos := length_pos_iff.mpr hempty
    rw [length_drop, length_cons]
    omega

lemma consumeObjectKey_length {top : TailFrame} {below : List TailFrame}
    (h : consumeObjectKey lib c rest top below = some (s', next)) : next.length ≤ rest.length := by
  unfold consumeObjectKey at h
  split_ifs at h
  obtain ⟨_, hstring, h⟩ := Option.bind_eq_some_iff.mp h
  obtain ⟨_, -, h⟩ := Option.bind_eq_some_iff.mp h
  cases h
  exact skipString_length hstring

lemma consumeChildValue_length {top : TailFrame} {below : List TailFrame} {completed : TailState}
    (h : consumeChildValue lib c rest top below completed = some (s', next)) :
    next.length ≤ rest.length := by
  obtain ⟨_, hvalue, h⟩ := Option.bind_eq_some_iff.mp h
  split_ifs at h
  all_goals
    cases h
    exact consumeValue_length hvalue

/-- A turn consumes at least the byte it is at. -/
lemma turn_length (h : s.turn lib c rest = some (s', next)) : next.length ≤ rest.length := by
  unfold TailScan.turn at h
  split at h
  · cases h
    exact le_rfl
  split at h
  · split_ifs at h
    all_goals
      obtain ⟨_, hvalue, h⟩ := Option.map_eq_some_iff.mp h
      cases h
      exact consumeValue_length hvalue
  · split at h <;>
      grind [Option.map_eq_some_iff, → consumeObjectKey_length, → consumeChildValue_length]

def TailScan.scan (lib : TailLibrary) (s : TailScan) : GoStr → Option TailScan
  | [] => some s
  | c :: rest =>
    match hturn : s.turn lib c rest with
    | none => none
    | some (s', next) =>
      have := turn_length hturn
      s'.scan lib next
termination_by input => input.length
decreasing_by exact Nat.lt_succ_of_le this

def analyzeJSONTail (lib : TailLibrary) (utf8Valid : GoStr → Bool) (input : GoStr) :
    Option TailAnalysis := do
  if input = [] || !utf8Valid input then none
  let s ← TailScan.scan lib {} input
  match s.stack, s.terminalComma with
  | ⟨_, .objectKeyAfterComma, _⟩ :: _, some left | ⟨_, .arrayValueAfterComma, _⟩ :: _, some left =>
    some (.trailingComma (input.length - left) (tailClosers s.stack))
  | [⟨0x7B, .objectValue, some key⟩], _ => some (.pendingRootValue key (tailClosers s.stack))
  | _, _ => none

end InteractiveProxy.ToolCallRepair
