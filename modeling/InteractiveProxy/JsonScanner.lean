import InteractiveProxy.Utf8Runes

/-! The incremental JSON scanner of the shape guard (`jsonshape`): `Feed` as a loop over the bytes
that are left, `Finish`, and the helpers that they call. A method that returns early with an error
is `.error` with the error and the state that it leaves. Offsets are counted as `s.bytes -
remaining`, which `off` carries along. -/
namespace InteractiveProxy.JsonShape

open GoText

structure Limits where
  maxBytes : ℤ
  maxDepth : ℤ
  maxTokens : ℤ
  maxArrayElems : ℤ
  maxObjectKeys : ℤ
  maxStringBytes : ℤ
  maxKeyBytes : ℤ
  maxNumberBytes : ℤ
  rejectDuplicateNames : Bool

structure Result where
  bytes : ℕ
  tokens : ℕ
  maxDepth : ℕ
  deriving DecidableEq

def requestEnvelopeLimits : Limits where
  maxBytes := 8388608
  maxDepth := 128
  maxTokens := 1000000
  maxArrayElems := 100000
  maxObjectKeys := 100000
  maxStringBytes := min 8388608 8388608
  maxKeyBytes := 16384
  maxNumberBytes := 1048576
  rejectDuplicateNames := false

def normalizeWithDefaults (limits defaults : Limits) : Limits where
  maxBytes := if limits.maxBytes ≤ 0 then defaults.maxBytes else limits.maxBytes
  maxDepth := if limits.maxDepth ≤ 0 then defaults.maxDepth else limits.maxDepth
  maxTokens := if limits.maxTokens ≤ 0 then defaults.maxTokens else limits.maxTokens
  maxArrayElems := if limits.maxArrayElems ≤ 0 then defaults.maxArrayElems else limits.maxArrayElems
  maxObjectKeys := if limits.maxObjectKeys ≤ 0 then defaults.maxObjectKeys else limits.maxObjectKeys
  maxStringBytes := if limits.maxStringBytes ≤ 0 then defaults.maxStringBytes
    else limits.maxStringBytes
  maxKeyBytes := if limits.maxKeyBytes ≤ 0 then defaults.maxKeyBytes else limits.maxKeyBytes
  maxNumberBytes := if limits.maxNumberBytes ≤ 0 then defaults.maxNumberBytes
    else limits.maxNumberBytes
  rejectDuplicateNames := limits.rejectDuplicateNames

def normalizeLimits (limits : Limits) : Limits := normalizeWithDefaults limits requestEnvelopeLimits

inductive Kind
  | tooLarge
  | malformed
  | tooDeep
  | tooManyTokens
  | tooManyItems
  | stringTooLong
  | keyTooLong
  | numberTooLong
  | duplicateName
  | invalidUTF8
  deriving DecidableEq

inductive MalformedReason
  | unset
  | empty
  | badSyntax
  | multipleValues
  | unexpectedClosing
  | incomplete
  | trailingData
  deriving DecidableEq

structure GuardError where
  kind : Kind
  reason : MalformedReason := .unset
  limit : ℤ := 0
  value : ℤ := 0
  msg : GoStr := []
  deriving DecidableEq

inductive ScanError
  | guard (e : GuardError)
  | external (text : GoStr)
  deriving DecidableEq

/-- Errors up to what `Classify` tells apart. -/
inductive ErrorClass
  | guard (kind : Kind)
  | external (text : GoStr)
  deriving DecidableEq

def ScanError.errorClass : ScanError → ErrorClass
  | guard e => .guard e.kind
  | external text => .external text

def malformed : ScanError := .guard ⟨.malformed, .badSyntax, 0, 0, lit "malformed JSON"⟩
def multipleValues : ScanError :=
    .guard ⟨.malformed, .multipleValues, 0, 0, lit "multiple JSON values"⟩
def trailingData : ScanError :=
    .guard ⟨.malformed, .trailingData, 0, 0, lit "trailing data after JSON value"⟩
def incomplete : ScanError := .guard ⟨.malformed, .incomplete, 0, 0, lit "incomplete JSON body"⟩
def emptyBody : ScanError := .guard ⟨.malformed, .empty, 0, 0, lit "empty JSON body"⟩
def invalidUTF8 : ScanError := .guard ⟨.invalidUTF8, .unset, 0, 0, lit "invalid UTF-8"⟩
def duplicateName : ScanError :=
  .guard ⟨.duplicateName, .unset, 0, 0, lit "duplicate object member name"⟩

def unexpectedClosing : ScanError :=
  .guard ⟨.malformed, .unexpectedClosing, 0, 0, lit "unexpected closing delimiter"⟩

def exceeds (kind : Kind) (limit value : ℤ) : ScanError := .guard ⟨kind, .unset, limit, value, []⟩

inductive EventType
  | objectStart
  | objectEnd
  | arrayStart
  | arrayEnd
  | key
  | string
  | number
  | true
  | false
  | null

/-- A token event; the span of the source is `offset` and `length`. -/
structure Event where
  type : EventType
  offset : ℕ
  length : ℕ
  depth : ℕ
  key : GoStr
  path : List GoStr
  topLevel : Bool

structure StringContext where
  key : GoStr
  path : List GoStr
  topLevel : Bool

inductive Sink
  | absent
  | writer
  | closer
  deriving DecidableEq

/-- The callbacks of a scanner. Handlers and resolvers may keep a state of their own, so their
answers depend on the events that came before; a writer's answers depend on what it was given so
far. -/
structure Observer where
  handler : Option (List Event → Event → Option GoStr) := none
  tracked : Bool := false
  resolver : Option (List Event → StringContext → Except GoStr Sink) := none
  write : StringContext → GoStr → GoStr → Option GoStr := fun _ _ _ => none
  close : StringContext → GoStr → Option GoStr := fun _ _ => none

def Observer.silent : Observer := {}

structure Observer.Accepting (o : Observer) : Prop where
  resolves : ∀ resolve ∈ o.resolver, ∀ events ctx, ∃ sink, resolve events ctx = .ok sink
  writes : ∀ ctx sofar p, o.write ctx sofar p = none

lemma Observer.silent_accepting : Observer.silent.Accepting where
  resolves := by simp [Observer.silent]
  writes := by simp [Observer.silent]

inductive ScanState
  | expectValue
  | expectObjectKeyOrEnd
  | expectObjectKey
  | expectColon
  | expectObjectValue
  | expectObjectCommaOrEnd
  | expectArrayValueOrEnd
  | expectArrayValue
  | expectArrayCommaOrEnd
  | inString
  | inNumber
  | inLiteral
  | rootDone
  deriving DecidableEq

inductive NumState
  | minus
  | zero
  | int
  | dot
  | frac
  | exp
  | expSign
  | expDigits
  deriving DecidableEq

structure Frame where
  object : Bool
  count : ℕ := 0
  seen : List GoStr := []
  startOffset : ℕ
  currentKey : GoStr := []

/-- The scanner between two bytes, without its byte count and the bytes of an unfinished rune. The
innermost frame comes first, and so does the writer of the latest string in `written`. -/
structure Core where
  state : ScanState := .expectValue
  frames : List Frame := []
  rootValues : ℕ := 0
  tokens : ℕ := 0
  maxDepth : ℕ := 0
  tokStart : ℕ := 0
  tokDepth : ℕ := 0
  strDecoded : ℕ := 0
  strIsKey : Bool := false
  keyBuf : GoStr := []
  inEscape : Bool := false
  escape : GoStr := []
  active : Option StringContext := none
  closes : Bool := false
  num : NumState := .minus
  numLen : ℕ := 0
  literal : GoStr := []
  literalIdx : ℕ := 0
  literalType : EventType := .null
  events : List Event := []
  written : List (StringContext × GoStr) := []

open Utf8Runes

/-- The result of a helper: it goes on, or `Feed` returns with the error. -/
abbrev Step := Except (ScanError × Core) Core

variable (c : Core)

def Core.currentPath : List GoStr := (c.frames.reverse.map Frame.currentKey).filter (· ≠ [])

def Core.valueContext : StringContext :=
  match c.frames with
  | [] => ⟨[], [], false⟩
  | top :: rest => ⟨if top.object then top.currentKey else [], c.currentPath, rest.isEmpty && top.object⟩

variable (o : Observer)

def emitEvent (type : EventType) (offset length : ℕ) (ctx : StringContext) (c : Core) : Step :=
  if o.handler.isNone && !o.tracked then .ok c
  else
    let e : Event :=
      { type := type, offset := offset, length := length, depth := c.tokDepth, key := ctx.key,
        path := ctx.path, topLevel := ctx.topLevel }
    let after := { c with events := c.events ++ [e] }
    match o.handler.bind fun onEvent => onEvent c.events e with
    | some text => .error (.external text, after)
    | none => .ok after

variable (limits : Limits)

def checkTokenLimit (c : Core) : Step :=
  let after := { c with tokens := c.tokens + 1 }
  if limits.maxTokens < after.tokens then
    .error (exceeds .tooManyTokens limits.maxTokens after.tokens, after)
  else .ok after

def checkDepth (depth : ℕ) (c : Core) : Step :=
  if limits.maxDepth < depth then .error (exceeds .tooDeep limits.maxDepth depth, c) else .ok c

def Core.valueFinished : Core :=
  match c.frames with
  | [] => { c with state := .rootDone }
  | top :: rest =>
    if top.object then
      { c with frames := { top with currentKey := [] } :: rest, state := .expectObjectCommaOrEnd }
    else { c with state := .expectArrayCommaOrEnd }

def Core.sofar : GoStr :=
  match c.written with
  | [] => []
  | (_, w) :: _ => w

def Core.record (p : GoStr) : Core :=
  match c.written with
  | [] => c
  | (ctx, w) :: rest => { c with written := (ctx, w ++ p) :: rest }

/-- `writeActiveStr` and `writeActiveRune`. -/
def writeActive (p : GoStr) (c : Core) : Step :=
  match c.active with
  | none => .ok c
  | some ctx =>
    match o.write ctx c.sofar p with
    | some text => .error (.external text, c)
    | none => .ok (c.record p)

def addDecoded (p : GoStr) (c : Core) : Step :=
  let counted := { c with strDecoded := c.strDecoded + p.length }
  if c.strIsKey then .ok { counted with keyBuf := c.keyBuf ++ p } else writeActive o p counted

def checkStringLimit (c : Core) : Step :=
  if c.strIsKey then
    if limits.maxKeyBytes < c.keyBuf.length then
      .error (exceeds .keyTooLong limits.maxKeyBytes c.keyBuf.length, c)
    else .ok c
  else if limits.maxStringBytes < c.strDecoded then
    .error (exceeds .stringTooLong limits.maxStringBytes c.strDecoded, c)
  else .ok c

def addRun (p : GoStr) (c : Core) : Step := addDecoded o p c >>= checkStringLimit limits

/-- `startString`. An error of the resolver is stored but the caller is not told. -/
def startString (isKey : Bool) (off : ℕ) (c : Core) : Core × Option ScanError :=
  let started :=
    { c with
      tokStart := off
      tokDepth := if isKey then c.frames.length else c.frames.length + 1
      strIsKey := isKey
      strDecoded := 0
      inEscape := false
      escape := []
      keyBuf := []
      state := .inString }
  match o.resolver.filter fun _ => !isKey with
  | none => (started, none)
  | some resolve =>
    let ctx := c.valueContext
    match resolve c.events ctx with
    | .error text => (started, some (.external text))
    | .ok .absent => ({ started with active := none, closes := false }, none)
    | .ok sink =>
      ({ started with active := some ctx, closes := sink == .closer, written := (ctx, []) :: c.written }, none)

def endKey (length : ℕ) (c : Core) : Step :=
  if limits.maxKeyBytes < c.keyBuf.length then
    .error (exceeds .keyTooLong limits.maxKeyBytes c.keyBuf.length, c)
  else
    match c.frames with
    | [] => .ok c
    | frame :: rest =>
      if limits.rejectDuplicateNames && frame.seen.contains c.keyBuf then .error (duplicateName, c)
      else
        let seen := if limits.rejectDuplicateNames then c.keyBuf :: frame.seen else frame.seen
        let counted := { frame with seen := seen, count := frame.count + 1 }
        let c := { c with frames := counted :: rest }
        if limits.maxObjectKeys < counted.count then
          .error (exceeds .tooManyItems limits.maxObjectKeys counted.count, c)
        else
          let ctx : StringContext :=
            ⟨c.keyBuf, c.currentPath ++ [c.keyBuf], rest.isEmpty && frame.object⟩
          emitEvent o .key c.tokStart length ctx c >>= fun c =>
            .ok { c with frames := { counted with currentKey := c.keyBuf } :: rest, state := .expectColon }

def closeActive (c : Core) : Step :=
  match c.active.filter fun _ => c.closes with
  | none => .ok { c with active := none, closes := false }
  | some ctx =>
    match o.close ctx c.sofar with
    | some text => .error (.external text, c)
    | none => .ok { c with active := none, closes := false }

/-- The closing quote; `off` is the offset behind it. -/
def endString (off : ℕ) (c : Core) : Step :=
  checkTokenLimit limits c >>= fun c =>
    let length := off - c.tokStart
    if c.strIsKey then endKey o limits length c
    else
      closeActive o c >>= checkStringLimit limits >>= fun c =>
        emitEvent o .string c.tokStart length c.valueContext c >>= fun c => .ok c.valueFinished

def simpleEscape (b : UInt8) : Option UInt8 :=
  if b = 0x22 ∨ b = 0x5C ∨ b = 0x2F then some b
  else if b = 0x62 then some 0x08
  else if b = 0x66 then some 0x0C
  else if b = 0x6E then some 0x0A
  else if b = 0x72 then some 0x0D
  else if b = 0x74 then some 0x09
  else none

def hexDigit (b : UInt8) : Option ℕ :=
  if 0x30 ≤ b ∧ b ≤ 0x39 then some (b.toNat - 0x30)
  else if 0x61 ≤ b ∧ b ≤ 0x66 then some (b.toNat - 0x61 + 10)
  else if 0x41 ≤ b ∧ b ≤ 0x46 then some (b.toNat - 0x41 + 10)
  else none

/-- `parseHex4`: the number of a string of hexadecimal digits. -/
def parseHex (digits : GoStr) : Option ℕ :=
  digits.foldlM (fun r b => (hexDigit b).map fun d => r * 16 + d) 0

def isHighSurrogate (r : ℕ) : Bool := 0xD800 ≤ r && r ≤ 0xDBFF
def isLowSurrogate (r : ℕ) : Bool := 0xDC00 ≤ r && r ≤ 0xDFFF

/-- `utf16.DecodeRune` of a surrogate pair. -/
def combineSurrogates (high low : ℕ) : ℕ := (high - 0xD800) * 1024 + (low - 0xDC00) + 0x10000

def runeError : ℕ := 0xFFFD

def Core.endEscape : Core := { c with inEscape := false, escape := [] }

/-- An escaped code unit that no earlier one is waiting for: a high surrogate waits for its partner.
-/
def resolveUnit (r : ℕ) (c : Core) : Step :=
  if isHighSurrogate r then .ok c
  else if isLowSurrogate r then addDecoded o (encodeRune runeError) c >>= fun c => .ok c.endEscape
  else addDecoded o (encodeRune r) c >>= fun c => .ok c.endEscape

def simpleEscapeStep (b : UInt8) (c : Core) : Step :=
  match simpleEscape b with
  | none => .error (malformed, c)
  | some x => addDecoded o [x] c >>= fun c => .ok c.endEscape

/-- One byte of an escape, already appended to `c.escape`. The flag says that the byte ended a
waiting surrogate and is read again as an ordinary byte of the string. -/
def escapeStep (b : UInt8) (c : Core) : Except (ScanError × Core) (Core × Bool) :=
  let keep (s : Step) : Except (ScanError × Core) (Core × Bool) := s.map fun c => (c, false)
  match c.escape.length with
  | 1 => if b = 0x75 then .ok (c, false) else keep (simpleEscapeStep o b c)
  | 5 =>
    match parseHex ((c.escape.drop 1).take 4) with
    | none => .error (malformed, c)
    | some r => keep (resolveUnit o r c)
  | 6 =>
    if b = 0x5C then .ok (c, false)
    else (addDecoded o (encodeRune runeError) c).map fun c => (c.endEscape, true)
  | 7 =>
    if b = 0x75 then .ok (c, false)
    else
      keep (addDecoded o (encodeRune runeError) c >>= fun c =>
        simpleEscapeStep o b { c with escape := [b], inEscape := true })
  | 11 =>
    match parseHex ((c.escape.drop 1).take 4), parseHex ((c.escape.drop 7).take 4) with
    | some high, some r =>
      if isLowSurrogate r then
        keep (addDecoded o (encodeRune (combineSurrogates high r)) c >>= fun c => .ok c.endEscape)
      else
        keep (addDecoded o (encodeRune runeError) c >>= fun c =>
          resolveUnit o r { c with escape := 0x75 :: (c.escape.drop 7).take 4 })
    | _, _ => .error (malformed, c)
  | _ => .ok (c, false)

inductive NumMove
  | next (st : NumState)
  | bad
  | stop
  deriving DecidableEq

def isDigit (b : UInt8) : Bool := 0x30 ≤ b && b ≤ 0x39

def numMove (st : NumState) (b : UInt8) : NumMove :=
  match st with
  | .minus => if b = 0x30 then .next .zero else if isDigit b then .next .int else .stop
  | .zero =>
    if b = 0x2E then .next .dot
    else if b = 0x65 ∨ b = 0x45 then .next .exp else if isDigit b then .bad else .stop
  | .int =>
    if isDigit b then .next .int
    else if b = 0x2E then .next .dot else if b = 0x65 ∨ b = 0x45 then .next .exp else .stop
  | .dot => if isDigit b then .next .frac else .stop
  | .frac => if isDigit b then .next .frac else if b = 0x65 ∨ b = 0x45 then .next .exp else .stop
  | .exp => if b = 0x2B ∨ b = 0x2D then .next .expSign else if isDigit b then .next .expDigits
    else .stop
  | .expSign => if isDigit b then .next .expDigits else .stop
  | .expDigits => if isDigit b then .next .expDigits else .stop

def NumState.complete : NumState → Bool
  | .minus | .dot | .exp | .expSign => false
  | .zero | .int | .frac | .expDigits => true

def isWhitespace (b : UInt8) : Bool := b == 0x20 || b == 0x09 || b == 0x0D || b == 0x0A

def isDelimiterOrWhitespace (b : UInt8) : Bool :=
  isWhitespace b || b == 0x2C || b == 0x5D || b == 0x7D

def hasLiteralPrefix (data : GoStr) : Bool :=
  [lit "true", lit "false", lit "null"].any fun name =>
    name.isPrefixOf data &&
      match data.drop name.length with
      | [] => true
      | b :: _ => isDelimiterOrWhitespace b

def endScalar (type : EventType) (length : ℕ) (c : Core) : Step :=
  checkTokenLimit limits c >>= fun c =>
    emitEvent o type c.tokStart length c.valueContext c >>= fun c => .ok c.valueFinished

/-- The closing delimiter of the innermost container; `off` is the offset behind it. -/
def closeContainer (type : EventType) (off : ℕ) (c : Core) : Step :=
  checkTokenLimit limits c >>= fun c =>
    match c.frames with
    | [] => .ok c
    | frame :: rest =>
      let c := { c with frames := rest }
      emitEvent o type frame.startOffset (off - frame.startOffset) c.valueContext c >>=
        fun c => .ok c.valueFinished

def openContainer (object : Bool) (c : Core) : Step :=
  checkDepth limits (c.frames.length + 1) c >>= checkTokenLimit limits >>= fun c =>
    emitEvent o (if object then .objectStart else .arrayStart) c.tokStart 1 c.valueContext c >>=
        fun c => let frames := { object := object, startOffset := c.tokStart } :: c.frames
      .ok { c with
        frames := frames
        maxDepth := max c.maxDepth frames.length
        state := if object then .expectObjectKeyOrEnd else .expectArrayValueOrEnd }

def Core.startLiteral (name : GoStr) (type : EventType) : Core :=
  { c with literal := name, literalIdx := 1, literalType := type, state := .inLiteral }

def Core.startNumber (st : NumState) : Core := { c with numLen := 1, num := st, state := .inNumber }

/-- `startValue` on the first byte of a value. -/
def startValue (b : UInt8) (off : ℕ) (c : Core) :
    Except (ScanError × Core) (Core × Option ScanError) :=
  let c := { c with tokStart := off, tokDepth := c.frames.length + 1 }
  let keep (s : Step) : Except (ScanError × Core) (Core × Option ScanError) :=
    s.map fun c => (c, none)
  if b = 0x7B then keep (openContainer o limits true c)
  else if b = 0x5B then keep (openContainer o limits false c)
  else if b = 0x22 then .ok (startString o false off c)
  else if b = 0x2D then .ok (c.startNumber .minus, none)
  else if b = 0x30 then .ok (c.startNumber .zero, none)
  else if isDigit b then .ok (c.startNumber .int, none)
  else if b = 0x74 then .ok (c.startLiteral (lit "true") .true, none)
  else if b = 0x66 then .ok (c.startLiteral (lit "false") .false, none)
  else if b = 0x6E then .ok (c.startLiteral (lit "null") .null, none)
  else .error (malformed, c)

def countValue (c : Core) : Step :=
  match c.state with
  | .expectValue =>
    let after := { c with rootValues := c.rootValues + 1 }
    if 1 < after.rootValues then .error (multipleValues, after) else .ok after
  | .expectArrayValueOrEnd | .expectArrayValue =>
    match c.frames with
    | [] => .ok c
    | frame :: rest =>
      let counted := { frame with count := frame.count + 1 }
      let after := { c with frames := counted :: rest }
      if limits.maxArrayElems < counted.count then
        .error (exceeds .tooManyItems limits.maxArrayElems counted.count, after)
      else .ok after
  | _ => .ok c

/-- What a turn of the loop does: go on `size` bytes further, with an error that was stored but not
returned; stop at an unfinished rune; return with an error. -/
inductive Turn
  | next (c : Core) (size : ℕ) (stored : Option ScanError)
  | suspend (c : Core)
  | halt (e : ScanError) (c : Core)

def Turn.of (size : ℕ) : Step → Turn
  | .ok c => .next c size none
  | .error (e, c) => .halt e c

def closingFits (b : UInt8) (c : Core) : Bool :=
  match c.frames with
  | [] => b ≠ 0x7D && b ≠ 0x5D
  | top :: _ => if b = 0x7D then top.object else if b = 0x5D then !top.object else true

section Turns

variable (off : ℕ) (c : Core) (b : UInt8) (tail : GoStr)

def valueTurn : Turn :=
  if c.state = .expectArrayValueOrEnd ∧ b = 0x5D then
    Turn.of 1 (closeContainer o limits .arrayEnd (off + 1) c)
  else
    match countValue limits c >>= startValue o limits b off with
    | .ok (c, stored) => .next c 1 stored
    | .error (e, c) => .halt e c

def tokenTurn : Turn :=
  match c.state with
  | .expectValue | .expectObjectValue | .expectArrayValueOrEnd | .expectArrayValue =>
    valueTurn o limits off c b
  | .expectObjectKeyOrEnd =>
    if b = 0x7D then Turn.of 1 (closeContainer o limits .objectEnd (off + 1) c)
    else if b = 0x22 then .next (startString o true off c).1 1 none
    else .halt malformed c
  | .expectObjectKey =>
    if b = 0x22 then .next (startString o true off c).1 1 none else .halt malformed c
  | .expectColon => if b = 0x3A then .next { c with state := .expectObjectValue } 1 none
    else .halt malformed c
  | .expectObjectCommaOrEnd =>
    if b = 0x2C then .next { c with state := .expectObjectKey } 1 none
    else if b = 0x7D then Turn.of 1 (closeContainer o limits .objectEnd (off + 1) c)
    else .halt malformed c
  | .expectArrayCommaOrEnd =>
    if b = 0x2C then .next { c with state := .expectArrayValue } 1 none
    else if b = 0x5D then Turn.of 1 (closeContainer o limits .arrayEnd (off + 1) c)
    else .halt malformed c
  | .rootDone =>
    if b = 0x7B ∨ b = 0x5B ∨ b = 0x22 ∨ b = 0x2D ∨ isDigit b then .halt multipleValues c
    else if (b = 0x74 ∨ b = 0x66 ∨ b = 0x6E) ∧ hasLiteralPrefix (b :: tail) then
      .halt multipleValues c
    else .halt trailingData c
  | .inString | .inNumber | .inLiteral => .halt malformed c

def betweenTurn : Turn :=
  if 0x80 ≤ b then
    match scanRune (b :: tail) with
    | .short => .suspend c
    | .bad => .halt invalidUTF8 c
    | .good _ => .halt malformed c
  else if isWhitespace b then .next c 1 none
  else if !closingFits b c then .halt unexpectedClosing c
  else tokenTurn o limits off c b tail

def isPlainAscii (b : UInt8) : Bool := 0x20 ≤ b && b < 0x80 && b ≠ 0x5C && b ≠ 0x22

def stringTurn : Turn :=
  if b = 0x5C then .next { c with inEscape := true, escape := [] } 1 none
  else if b = 0x22 then Turn.of 1 (endString o limits (off + 1) c)
  else if b < 0x20 then .halt malformed c
  else if b < 0x80 then
    let run := (b :: tail).takeWhile isPlainAscii
    Turn.of run.length (addRun o limits run c)
  else
    match scanRune (b :: tail) with
    | .short => .suspend c
    | .bad => .halt invalidUTF8 c
    | .good size => Turn.of size (addRun o limits ((b :: tail).take size) c)

def escapeTurn : Turn :=
  match escapeStep o b { c with escape := c.escape ++ [b] } with
  | .error (e, c) => .halt e c
  | .ok (c, again) =>
    match checkStringLimit limits c with
    | .error (e, c) => .halt e c
    | .ok c => if again then stringTurn o limits off c b tail else .next c 1 none

def numberTurn : Turn :=
  match numMove c.num b with
  | .next st =>
    let after := { c with num := st, numLen := c.numLen + 1 }
    if limits.maxNumberBytes < after.numLen then
      .halt (exceeds .numberTooLong limits.maxNumberBytes after.numLen) after
    else .next after 1 none
  | .bad => .halt malformed c
  | .stop =>
    if !c.num.complete || !isDelimiterOrWhitespace b then .halt malformed c
    else
      match endScalar o limits .number c.numLen c with
      | .error (e, c) => .halt e c
      | .ok c => betweenTurn o limits off c b tail

def literalTurn : Turn :=
  if c.literalIdx < c.literal.length then
    if some b = c.literal[c.literalIdx]? then .next { c with literalIdx := c.literalIdx + 1 } 1 none
    else .halt malformed c
  else if !isDelimiterOrWhitespace b then .halt malformed c
  else
    match endScalar o limits c.literalType c.literal.length c with
    | .error (e, c) => .halt e c
    | .ok c => betweenTurn o limits off c b tail

/-- One turn of the loop of `Feed`. A byte that is read again is read in the same turn: the state it
is read in is never one that would give it back. -/
def turn : Turn :=
  match c.state with
  | .inString => if c.inEscape then escapeTurn o limits off c b tail
    else stringTurn o limits off c b tail
  | .inNumber => numberTurn o limits off c b tail
  | .inLiteral => literalTurn o limits off c b tail
  | _ => betweenTurn o limits off c b tail

end Turns

/-- The loop of `Feed` at its end: the state, the bytes of an unfinished rune, and the error. -/
structure Scanned where
  core : Core
  pending : GoStr
  err : Option ScanError

/-- The loop of `Feed`; every turn takes at least one byte, so the number of bytes is enough fuel.
-/
def loop (o : Observer) (limits : Limits) : ℕ → ℕ → Option ScanError → Core → GoStr → Scanned
  | _, _, err, c, [] => ⟨c, [], err⟩
  | 0, _, err, c, _ => ⟨c, [], err⟩
  | fuel + 1, off, err, c, b :: tail =>
    match turn o limits off c b tail with
    | .next c size stored => loop o limits fuel (off + size)
      (stored <|> err) c ((b :: tail).drop size)
    | .suspend c => ⟨c, b :: tail, err⟩
    | .halt e c => ⟨c, [], some e⟩

structure Scanner where
  observer : Observer
  limits : Limits
  core : Core := {}
  bytes : ℕ := 0
  pending : GoStr := []
  err : Option ScanError := none

def newScanner (o : Observer) : Scanner := { observer := o, limits := normalizeLimits limits }

@[simp] def Scanner.feed (s : Scanner) (chunk : GoStr) : Scanner :=
  if s.err.isSome then s
  else
    let bytes := s.bytes + chunk.length
    if s.limits.maxBytes < bytes then
      { s with bytes := bytes, err := some (exceeds .tooLarge s.limits.maxBytes bytes) }
    else
      let data := s.pending ++ chunk
      let r := loop s.observer s.limits data.length (bytes - data.length) none s.core data
      { s with bytes := bytes, core := r.core, pending := r.pending, err := r.err }

def endPending (c : Core) : Step :=
  match c.state with
  | .inNumber => if !c.num.complete then .error (incomplete, c)
    else endScalar o limits .number c.numLen c
  | .inLiteral =>
    if c.literalIdx < c.literal.length then .error (incomplete, c)
    else endScalar o limits c.literalType c.literal.length c
  | _ => .ok c

/-- `Finish`: close the last writer, end a pending value, and check that the document is complete.
-/
def Scanner.finish (s : Scanner) : Scanner × Except ScanError Result :=
  let s := { s with core := { s.core with active := none, closes := false } }
  match s.err with
  | some e => (s, .error e)
  | none =>
    if s.pending ≠ [] then ({ s with err := some invalidUTF8 }, .error invalidUTF8)
    else
      match endPending s.observer s.limits s.core with
      | .error (e, c) => ({ s with core := c, err := some e }, .error e)
      | .ok c =>
        let s := { s with core := c }
        if c.state = .inString then ({ s with err := some incomplete }, .error incomplete)
        else if c.rootValues = 0 then ({ s with err := some emptyBody }, .error emptyBody)
        else if c.frames ≠ [] ∨ c.state ≠ .rootDone then
          ({ s with err := some incomplete }, .error incomplete)
        else (s, .ok ⟨s.bytes, c.tokens, c.maxDepth⟩)

end InteractiveProxy.JsonShape
