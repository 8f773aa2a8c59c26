import InteractiveProxy.JsonScannerStrings

/-! Positions in a JSON text and the steps of a scanner without observers between them; `Sim` ties
the two. Each lemma says for one kind of byte at one kind of position that the scanner takes the
step exactly if the limits allow it: it serves both directions of the language theorem. -/
namespace InteractiveProxy.JsonShape

open GoText JsonGrammar

variable (limits : Limits)

def NamesFit (names : List GoStr) : Prop :=
  (names.length : ℤ) ≤ limits.maxObjectKeys ∧ (limits.rejectDuplicateNames → names.Nodup)

mutual

def ValueFits (limits : Limits) : Value → Prop
  | .literal _ => True
  | .number n => ((utf8 n.chars).length : ℤ) ≤ limits.maxNumberBytes
  | .string items => ((decodedBytes items).length : ℤ) ≤ limits.maxStringBytes
  | .emptyArray _ => True
  | .array es => (es.length : ℤ) ≤ limits.maxArrayElems ∧ ElementsFit limits es
  | .emptyObject _ => True
  | .object ms => NamesFit limits ms.names ∧ MembersFit limits ms

def ElementFits (limits : Limits) : Element → Prop
  | .mk _ value _ => ValueFits limits value

def ElementsFit (limits : Limits) : Elements → Prop
  | .one e => ElementFits limits e
  | .snoc es e => ElementsFit limits es ∧ ElementFits limits e

def MembersFit (limits : Limits) : Members → Prop
  | .one name e => ((decodedBytes name.items).length : ℤ) ≤ limits.maxKeyBytes ∧
    ElementFits limits e
  | .snoc ms name e =>
    MembersFit limits ms ∧ ((decodedBytes name.items).length : ℤ) ≤ limits.maxKeyBytes ∧
      ElementFits limits e

end

variable (done : Option Elements) (e : Element)

@[simp] def arrayChars : List Char := done.elim [] fun es => es.chars ++ [',']
@[simp] def arrayTokens : ℕ := done.elim 0 Elements.tokens
@[simp] def arrayDepth : ℕ := done.elim 0 Elements.depth
def arrayLength : ℕ := done.elim 0 Elements.length
def ArrayFits (limits : Limits) : Prop := ∀ es ∈ done, ElementsFit limits es

def addElement : Elements := done.elim (.one e) fun es => .snoc es e

@[simp] lemma addElement_measures : (addElement done e).chars = arrayChars done ++ e.chars ∧
    (addElement done e).tokens = arrayTokens done + e.tokens ∧
    (addElement done e).depth = max (arrayDepth done) e.depth := by
  cases done <;> simp [addElement, Elements.chars]

lemma addElement_length : (addElement done e).length = arrayLength done + 1 := by
  cases done <;> simp [addElement, arrayLength, Elements.length]

lemma addElement_fits {limits : Limits} :
    ElementsFit limits (addElement done e) ↔ ArrayFits done limits ∧ ElementFits limits e := by
  cases done <;> simp [addElement, ArrayFits, ElementsFit]

section
variable (done : Option Members) (name : Name) (e : Element)

@[simp] def objectChars : List Char := done.elim [] fun ms => ms.chars ++ [',']
@[simp] def objectTokens : ℕ := done.elim 0 Members.tokens
@[simp] def objectDepth : ℕ := done.elim 0 Members.depth
@[simp] def objectNames : List GoStr := done.elim [] Members.names
def ObjectFits (limits : Limits) : Prop := ∀ ms ∈ done, MembersFit limits ms

def addMember : Members := done.elim (.one name e) fun ms => .snoc ms name e

@[simp] lemma addMember_measures :
    (addMember done name e).chars = objectChars done ++ name.chars ++ ':' :: e.chars ∧
    (addMember done name e).tokens = objectTokens done + (e.tokens + 1) ∧
    (addMember done name e).depth = max (objectDepth done) e.depth := by
  cases done <;> simp [addMember, Members.chars]

lemma addMember_names :
    (addMember done name e).names = decodedBytes name.items :: objectNames done := by
  cases done <;> simp [addMember, Members.names]

lemma addMember_fits {limits : Limits} : MembersFit limits (addMember done name e) ↔
      ObjectFits done limits ∧ ((decodedBytes name.items).length : ℤ) ≤ limits.maxKeyBytes ∧
      ElementFits limits e := by
  cases done <;> simp [addMember, ObjectFits, MembersFit]

end

inductive Slot
  | array (done : Option Elements)
  | member (done : Option Members) (name : Name)

/-- An open container with the blanks in front of it. -/
structure Level where
  pre : List Blank
  slot : Slot

@[simp] def Level.chars (l : Level) : List Char :=
  blankChars l.pre ++
    match l.slot with
    | .array done => '[' :: arrayChars done
    | .member done name => '\x7b' :: (objectChars done ++ name.chars ++ [':'])

/-- Where the scanner stands: in front of a value, in a scalar, behind a value, or at a member name
of an object that is itself the value. -/
inductive Cursor
  | value (pre : List Blank)
  | text (pre : List Blank) (items : List StrChar) (raw : GoStr)
  | number (pre : List Blank) (t : List Char)
  | literal (pre : List Blank) (l : Literal) (n : ℕ)
  | after (pre : List Blank) (v : Value) (post : List Blank)
  | name (pre : List Blank) (done : Option Members) (ws : List Blank)
  | key (pre : List Blank) (done : Option Members) (ws : List Blank) (items : List StrChar)
    (raw : GoStr)
  | colon (pre : List Blank) (done : Option Members) (name : Name)

@[simp] def Cursor.bytes : Cursor → GoStr
  | value pre => utf8 (blankChars pre)
  | text pre items raw => utf8 (blankChars pre ++ '"' :: itemChars items) ++ raw
  | number pre t => utf8 (blankChars pre ++ t)
  | literal pre l n => utf8 (blankChars pre) ++ (utf8 l.chars).take n
  | after pre v post => utf8 (Element.mk pre v post).chars
  | name pre done ws => utf8 (blankChars pre ++ '\x7b' :: (objectChars done ++ blankChars ws))
  | key pre done ws items raw =>
    utf8 (blankChars pre ++ '\x7b' :: (objectChars done ++ blankChars ws ++ '"' :: itemChars items)) ++ raw
  | colon pre done n => utf8 (blankChars pre ++ '\x7b' :: (objectChars done ++ n.chars))

@[simp] def levelBytes : List Level → GoStr
  | [] => []
  | l :: ls => levelBytes ls ++ utf8 l.chars

variable (levels : List Level)

@[simp] def positionBytes (cur : Cursor) : GoStr := levelBytes levels ++ cur.bytes

@[simp] def Slot.tokens : Slot → ℕ
  | array done => arrayTokens done + 1
  | member done _ => objectTokens done + 2

@[simp] def Slot.depth : Slot → ℕ
  | array done => arrayDepth done
  | member done _ => objectDepth done

def seenNames (names : List GoStr) : List GoStr :=
  if limits.rejectDuplicateNames then names else []

/-- The frame of a container; an array counts an element once it has started. -/
def Slot.frame (started : Bool) : Slot → Bool × ℕ × List GoStr
  | array done => (false, arrayLength done + started.toNat, [])
  | member done name =>
    let names := decodedBytes name.items :: objectNames done
    (true, names.length, seenNames limits names)

def Slot.Fits (started : Bool) : Slot → Prop
  | array done => ArrayFits done limits ∧
    ((arrayLength done + started.toNat : ℕ) : ℤ) ≤ limits.maxArrayElems
  | member done name =>
    ObjectFits done limits ∧ ((decodedBytes name.items).length : ℤ) ≤ limits.maxKeyBytes ∧
      NamesFit limits (decodedBytes name.items :: objectNames done)

@[simp] def levelTokens : List Level → ℕ
  | [] => 0
  | l :: ls => levelTokens ls + l.slot.tokens

@[simp] def levelDepth : List Level → ℕ
  | [] => 0
  | l :: ls => max (levelDepth ls) (ls.length + 1 + l.slot.depth)

lemma length_le_levelDepth : levels.length ≤ levelDepth levels := by
  cases levels with
  | nil => exact le_rfl
  | cons l ls =>
    simp

@[simp] def levelFrames (started : Bool) : List Level → List (Bool × ℕ × List GoStr)
  | [] => []
  | l :: ls => l.slot.frame limits started :: ls.map fun l => l.slot.frame limits true

def LevelsFit (started : Bool) : List Level → Prop
  | [] => True
  | l :: ls => l.slot.Fits limits started ∧ ∀ l ∈ ls, l.slot.Fits limits true

def Cursor.started : Cursor → Bool
  | value _ => false
  | _ => true

@[simp] def Cursor.tokens : Cursor → ℕ
  | value _ | text _ _ _ | number _ _ | literal _ _ _ => 0
  | after _ v _ => v.tokens
  | name _ done _ | key _ done _ _ _ => objectTokens done + 1
  | colon _ done _ => objectTokens done + 2

@[simp] def Cursor.depth : Cursor → ℕ
  | value _ | text _ _ _ | number _ _ | literal _ _ _ => 0
  | after _ v _ => v.depth
  | name _ done _ | key _ done _ _ _ | colon _ done _ => objectDepth done + 1

def Cursor.frames : Cursor → List (Bool × ℕ × List GoStr)
  | name _ done _ | key _ done _ _ _ => [(true, (objectNames done).length, seenNames limits (objectNames done))]
  | colon _ done n => [(Slot.member done n).frame limits true]
  | _ => []

def Cursor.Fits (limits : Limits) : Cursor → Prop
  | value _ | text _ _ _ | literal _ _ _ => True
  | number _ t => ((utf8 t).length : ℤ) ≤ limits.maxNumberBytes
  | after _ v _ => ValueFits limits v
  | name _ done _ | key _ done _ _ _ => ObjectFits done limits ∧ NamesFit limits (objectNames done)
  | colon _ done n => (Slot.member done n).Fits limits true

def rootCount : List Level → Bool → ℕ
  | [], started => started.toNat
  | _ :: _, _ => 1

def booksAt (cur : Cursor) : Books where
  frames := cur.frames limits ++ levelFrames limits cur.started levels
  tokens := levelTokens levels + cur.tokens
  maxDepth := max (levelDepth levels) (levels.length + cur.depth)
  rootValues := rootCount levels cur.started

structure Within (cur : Cursor) : Prop where
  tokens : ((levelTokens levels + cur.tokens : ℕ) : ℤ) ≤ limits.maxTokens
  depth : ((max (levelDepth levels) (levels.length + cur.depth) : ℕ) : ℤ) ≤ limits.maxDepth
  levels : LevelsFit limits cur.started levels
  cursor : cur.Fits limits

def valueState : List Level → ScanState
  | [] => .expectValue
  | ⟨_, .array none⟩ :: _ => .expectArrayValueOrEnd
  | ⟨_, .array (some _)⟩ :: _ => .expectArrayValue
  | ⟨_, .member _ _⟩ :: _ => .expectObjectValue

def afterState : List Level → ScanState
  | [] => .rootDone
  | ⟨_, .array _⟩ :: _ => .expectArrayCommaOrEnd
  | ⟨_, .member _ _⟩ :: _ => .expectObjectCommaOrEnd

def Cursor.Holds (c : Core) : Cursor → Prop
  | value _ => c.state = valueState levels
  | text _ items raw => StrSim limits false items raw c
  | number _ t =>
    c.state = .inNumber ∧ NumPrefix c.num t ∧ numRun (utf8 t) = some c.num ∧
      c.numLen = (utf8 t).length
  | literal _ l n => c.state = .inLiteral ∧ c.literal = utf8 l.chars ∧ c.literalIdx = n ∧
    n ≤ (utf8 l.chars).length
  | after _ _ _ => c.state = afterState levels
  | name _ done _ => c.state = if done.isSome then .expectObjectKey else .expectObjectKeyOrEnd
  | key _ _ _ items raw => StrSim limits true items raw c
  | colon _ _ _ => c.state = .expectColon

structure Sim (cur : Cursor) (c : Core) : Prop where
  books : c.books = booksAt limits levels cur
  holds : cur.Holds limits levels c
  within : Within limits levels cur

open List Books JsonShape.Frame

variable {limits : Limits} {levels : List Level} {c : Core} {b : UInt8}

structure Limits.Positive (limits : Limits) : Prop where
  bytes : 0 < limits.maxBytes
  depth : 0 < limits.maxDepth
  tokens : 0 < limits.maxTokens
  elems : 0 < limits.maxArrayElems
  keys : 0 < limits.maxObjectKeys
  strings : 0 < limits.maxStringBytes
  names : 0 < limits.maxKeyBytes
  numbers : 0 < limits.maxNumberBytes

/-- The byte takes the scanner to the position if that keeps the limits, and is refused otherwise.
-/
structure Steps (limits : Limits) (levels : List Level) (cur : Cursor) (c : Core) (b : UInt8) :
    Prop where
  moves : Within limits levels cur → ∀ off, ∃ c',
    (∀ tail, turn .silent limits off c b tail = .next c' 1 none) ∧ Sim limits levels cur c'
  refuses : ¬Within limits levels cur → Refuses limits c b

@[simp] def Core.Between (c : Core) : Prop :=
  c.state ≠ .inString ∧ c.state ≠ .inNumber ∧ c.state ≠ .inLiteral

lemma turn_between (hc : c.Between) (off : ℕ) (b : UInt8) (tail : GoStr) :
    turn .silent limits off c b tail = betweenTurn .silent limits off c b tail := by
  unfold turn
  split
  · exact absurd ‹_› hc.1
  · exact absurd ‹_› hc.2.1
  · exact absurd ‹_› hc.2.2
  · rfl

structure TokenByte (c : Core) (b : UInt8) : Prop where
  ascii : ¬0x80 ≤ b
  solid : isWhitespace b = false
  fits : closingFits b c

lemma turn_token (hc : c.Between) (hb : TokenByte c b) (off : ℕ) (tail : GoStr) :
    turn .silent limits off c b tail = tokenTurn .silent limits off c b tail := by
  rw [turn_between hc, betweenTurn, if_neg hb.ascii, hb.solid, hb.fits]
  rfl

lemma closingFits_other (hobject : b ≠ 0x7D) (harray : b ≠ 0x5D) (c : Core) : closingFits b c := by
  unfold closingFits
  split <;> simp [hobject, harray]

variable {fs : List (Bool × ℕ × List GoStr)} {f : Bool × ℕ × List GoStr}

lemma closingFits_top (hframes : c.frames.map shape = f :: fs)
    (hb : b = if f.1 then 0x7D else 0x5D) : closingFits b c := by
  cases hc : c.frames with
  | nil => simp [hc] at hframes
  | cons top rest =>
    rw [hc, map_cons, cons.injEq] at hframes
    have hobject : top.object = f.1 := by
      rw [← hframes.1]
      rfl
    simp only [closingFits, hc, hb, hobject]
    cases f.1 <;> rfl

lemma valueFinished_books (c : Core) : c.valueFinished.books = c.books := by
  unfold Core.valueFinished
  split
  · rfl
  rename_i top rest hframes
  split_ifs
  · simp only [Core.books, hframes]
    rfl
  · rfl

lemma valueFinished_top (c : Core) : c.valueFinished.state = match c.frames with
      | [] => .rootDone
      | top :: _ => if top.object then .expectObjectCommaOrEnd else .expectArrayCommaOrEnd := by
  unfold Core.valueFinished
  cases c.frames with
  | nil => rfl
  | cons top rest => by_cases hobject : top.object = true <;> simp [hobject]

lemma valueFinished_state (hframes : c.frames.map shape = levelFrames limits true levels) :
    c.valueFinished.state = afterState levels := by
  rw [valueFinished_top]
  cases levels with
  | nil =>
    have hnil : c.frames = [] := by simpa using hframes
    rw [hnil]
    rfl
  | cons l ls =>
    cases hc : c.frames with
    | nil => simp [hc] at hframes
    | cons top rest =>
      simp only [hc, map_cons, levelFrames, cons.injEq] at hframes
      have hobject : top.object = (l.slot.frame limits true).1 := by
        rw [← hframes.1]
        rfl
      obtain ⟨pre, slot⟩ := l
      cases slot with
      | array done => simp [hobject, Slot.frame, afterState]
      | member done name => simp [hobject, Slot.frame, afterState]

lemma between_afterState (h : c.state = afterState levels) : c.Between := by
  unfold afterState at h
  split at h <;> simp [h]

lemma between_valueState (h : c.state = valueState levels) : c.Between := by
  unfold valueState at h
  split at h <;> simp [h]

variable {pre : List Blank} {v : Value} {c' : Core} {l : Level}

lemma valueFinished_sim (hframes : c.books.frames = levelFrames limits true levels)
    (htokens : c.books.tokens = levelTokens levels + v.tokens)
    (hdepth : c.books.maxDepth = max (levelDepth levels) (levels.length + v.depth))
    (hroot : c.books.rootValues = 1) (hwithin : Within limits levels (.after pre v [])) :
    Sim limits levels (.after pre v []) c.valueFinished where
  books := by
    rw [valueFinished_books]
    have hcount : rootCount levels true = 1 := by cases levels <;> rfl
    simp only [Core.books] at hframes htokens hdepth hroot
    simp [Core.books, booksAt, Cursor.frames, Cursor.started, hframes, htokens, hdepth, hroot, hcount]
  holds := valueFinished_state hframes
  within := hwithin

lemma checkTokenLimit_ok :
    checkTokenLimit limits c = .ok c' ↔
      ((c.tokens + 1 : ℕ) : ℤ) ≤ limits.maxTokens ∧ c' = { c with tokens := c.tokens + 1 } := by
  unfold checkTokenLimit
  dsimp only
  split_ifs with hlong
  · simp
    omega
  · simp only [Except.ok.injEq]
    exact ⟨fun h => ⟨not_lt.mp hlong, h.symm⟩, fun h => h.2.symm⟩

lemma closeContainer_silent {f : Frame} {rest : List Frame} (hframes : c.frames = f :: rest)
    (type : EventType) (off : ℕ) : closeContainer .silent limits type off c =
      (checkTokenLimit limits c).map fun c => { c with frames := rest }.valueFinished := by
  unfold closeContainer
  cases hcheck : checkTokenLimit limits c with
  | error e => rfl
  | ok c1 =>
    obtain ⟨-, rfl⟩ := checkTokenLimit_ok.mp hcheck
    rw [hframes]
    rfl

lemma levelFrames_true (limits : Limits) (levels : List Level) :
    levelFrames limits true levels = levels.map fun l => l.slot.frame limits true := by
  cases levels <;> rfl

lemma LevelsFit.tail {started : Bool} {ls : List Level} (h : LevelsFit limits started (l :: ls)) :
    LevelsFit limits true ls := by
  cases ls with
  | nil => trivial
  | cons l' ls => exact ⟨h.2 l' (by simp), fun x hx => h.2 x (by simp [hx])⟩

lemma tokenByte_closing (hframes : c.frames.map shape = f :: fs)
    (hb : b = if f.1 then 0x7D else 0x5D) : TokenByte c b := by
  refine ⟨?_, ?_, closingFits_top hframes hb⟩
  · rw [hb]
    cases f.1 <;> decide
  · rw [hb]
    cases f.1 <;> decide

variable {cur : Cursor}

lemma Sim.frames (h : Sim limits levels cur c) :
    c.frames.map shape = cur.frames limits ++ levelFrames limits cur.started levels :=
  congrArg Books.frames h.books

variable {levels₀ : List Level} {cur₀ : Cursor} {lpre post : List Blank}

lemma steps_close (h : Sim limits levels0 cur0 c)
    (f : Bool × ℕ × List GoStr) (type : EventType) (hbyte : b = if f.1 then 0x7D else 0x5D)
    (hstate : c.Between)
    (hturn : ∀ off tail, tokenTurn .silent limits off c b tail =
      Turn.of 1 (closeContainer .silent limits type (off + 1) c))
    (hframes : cur0.frames limits ++ levelFrames limits cur0.started levels0 = f :: levelFrames limits true levels)
    (htokens : levelTokens levels + v.tokens = levelTokens levels0 + cur0.tokens + 1)
    (hdepth : max (levelDepth levels) (levels.length + v.depth) =
      max (levelDepth levels0) (levels0.length + cur0.depth))
    (hroot : rootCount levels0 cur0.started = 1) (hlevels : LevelsFit limits true levels)
    (hv : ValueFits limits v) : Steps limits levels (.after pre v []) c b := by
  have hmap : c.frames.map shape = f :: levelFrames limits true levels := h.frames.trans hframes
  obtain ⟨frame, rest, hc, hrest⟩ : ∃ frame rest, c.frames = frame :: rest ∧
      rest.map shape = levelFrames limits true levels := by
    cases hc : c.frames with
    | nil => simp [hc] at hmap
    | cons frame rest =>
      simp only [hc, map_cons, cons.injEq] at hmap
      exact ⟨frame, rest, rfl, hmap.2⟩
  have hn : c.tokens = levelTokens levels0 + cur0.tokens := congrArg tokens h.books
  have hwithin :
      Within limits levels (.after pre v []) ↔ ((c.tokens + 1 : ℕ) : ℤ) ≤ limits.maxTokens := by
    rw [hn, ← htokens]
    refine ⟨Within.tokens, fun hfits => ⟨hfits, ?_, hlevels, hv⟩⟩
    have hold := h.within.depth
    rwa [← hdepth] at hold
  have hturn' : ∀ off tail, turn .silent limits off c b tail =
      Turn.of 1 ((checkTokenLimit limits c).map fun c => { c with frames := rest }.valueFinished) := by
    intro off tail
    rw [turn_token hstate (tokenByte_closing hmap hbyte), hturn, closeContainer_silent hc]
  refine ⟨fun hnew off => ?_, fun hnew off tail c' size stored => ?_⟩
  · have hcheck := checkTokenLimit_ok.mpr ⟨hwithin.mp hnew, rfl⟩
    refine ⟨_, fun tail => ?_, valueFinished_sim
      (c := { c with tokens := c.tokens + 1, frames := rest }) hrest ?_ ?_ ?_ hnew⟩
    · rw [hturn', hcheck]
      rfl
    · rw [htokens, ← hn]
      rfl
    · rw [hdepth]
      exact congrArg maxDepth h.books
    · rw [← hroot]
      exact congrArg rootValues h.books
  · rw [hturn']
    cases hcheck : checkTokenLimit limits c with
    | error e => simp [Except.map, Turn.of]
    | ok c1 => exact absurd (hwithin.mpr (checkTokenLimit_ok.mp hcheck).1) hnew

lemma Sim.close_empty_array (h : Sim limits (⟨lpre, .array none⟩ :: levels) (.value pre) c) :
    Steps limits levels (.after lpre (.emptyArray pre) []) c 0x5D := by
  have hstate : c.state = .expectArrayValueOrEnd := h.holds
  refine steps_close h (false, 0, []) .arrayEnd rfl (between_valueState h.holds)
    (fun off tail => ?_) ?_ ?_ ?_ rfl h.within.levels.tail trivial
  · simp [tokenTurn, valueTurn, hstate]
  · rw [levelFrames_true]
    rfl
  · simp
  · simp

lemma Sim.close_array {done : Option Elements}
    (h : Sim limits (⟨lpre, .array done⟩ :: levels) (.after pre v post) c) :
    Steps limits levels (.after lpre (.array (addElement done (.mk pre v post))) []) c 0x5D := by
  have hstate : c.state = .expectArrayCommaOrEnd := h.holds
  obtain ⟨⟨hdone, hcount⟩, -⟩ := h.within.levels
  refine steps_close h (false, arrayLength done + 1, []) .arrayEnd rfl (between_afterState h.holds)
    (fun off tail => ?_)
    ?_ ?_ ?_ rfl h.within.levels.tail ⟨?_, (addElement_fits _ _).mpr ⟨hdone, h.within.cursor⟩⟩
  · simp [tokenTurn, hstate]
  · rw [levelFrames_true]
    rfl
  · simp
    omega
  · simp
    omega
  · rw [addElement_length]
    exact hcount

variable {done : Option Members} {ws : List Blank}

lemma Sim.close_object {name : Name}
    (h : Sim limits (⟨lpre, .member done name⟩ :: levels) (.after pre v post) c) :
    Steps limits levels (.after lpre (.object (addMember done name (.mk pre v post))) []) c 0x7D := by
  have hstate : c.state = .expectObjectCommaOrEnd := h.holds
  obtain ⟨⟨hdone, hname, hnames⟩, -⟩ := h.within.levels
  refine steps_close h
    ((Slot.member done name).frame limits true) .objectEnd rfl (between_afterState h.holds)
    (fun off tail => ?_) ?_ ?_ ?_ rfl h.within.levels.tail
    ⟨?_, (addMember_fits _ _ _).mpr ⟨hdone, hname, h.within.cursor⟩⟩
  · simp [tokenTurn, hstate]
  · rw [levelFrames_true]
    rfl
  · simp
    omega
  · simp
    omega
  · rw [addMember_names]
    exact hnames

lemma Sim.close_empty_object (h : Sim limits levels (.name pre none ws) c) :
    Steps limits levels (.after pre (.emptyObject ws) []) c 0x7D := by
  have hstate : c.state = .expectObjectKeyOrEnd := h.holds
  have hbetween : c.Between := by simp [hstate]
  refine steps_close h (true, 0, seenNames limits []) .objectEnd rfl hbetween
    (fun off tail => ?_) rfl ?_ ?_ ?_
    h.within.levels trivial
  · simp [tokenTurn, hstate]
  · simp
  · simp
  · cases levels <;> rfl

def Cursor.blank (w : Blank) : Cursor → Option Cursor
  | value pre => some (value (pre ++ [w]))
  | after pre v post => some (after pre v (post ++ [w]))
  | name pre done ws => some (name pre done (ws ++ [w]))
  | colon pre done n => some (colon pre done { n with post := n.post ++ [w] })
  | text _ _ _ | number _ _ | literal _ _ _ | key _ _ _ _ _ => none

lemma blankChars_snoc (ws : List Blank) (w : Blank) :
    blankChars (ws ++ [w]) = blankChars ws ++ [w.char] := by
  simp [blankChars]

variable {cur' : Cursor} {w : Blank}

lemma Cursor.blank_bytes (h : cur.blank w = some cur') :
    cur'.bytes = cur.bytes ++ String.utf8EncodeChar w.char := by
  cases cur <;> cases h <;>
    simp [blankChars_snoc, Name.chars]

section

variable (h : Sim limits levels cur c) (hcur : cur.blank w = some cur')

include h hcur

lemma Sim.blank : Sim limits levels cur' c := by
  obtain ⟨hbooks, hholds, hwithin⟩ := h
  cases cur <;> cases hcur <;> exact ⟨hbooks, hholds, ⟨hwithin.1, hwithin.2, hwithin.3, hwithin.4⟩⟩

/-- Positions between tokens. -/
lemma Sim.between : c.Between := by
  cases cur with
  | value pre => exact between_valueState h.holds
  | after pre v post => exact between_afterState h.holds
  | name pre done ws =>
    have hstate : c.state = if done.isSome then .expectObjectKey else .expectObjectKeyOrEnd :=
      h.holds
    cases hdone : done.isSome <;> simp [hstate, hdone]
  | colon pre done n =>
    have hstate : c.state = .expectColon := h.holds
    simp [hstate]
  | text | number | literal | key => cases hcur

end

lemma turn_blank (hc : c.Between) (hb : isWhitespace b) (off : ℕ) (tail : GoStr) :
    turn .silent limits off c b tail = .next c 1 none := by
  have hascii : ¬0x80 ≤ b := ascii_of_delimiter (by simp [isDelimiterOrWhitespace, hb])
  rw [turn_between hc, betweenTurn, if_neg hascii, if_pos hb]

lemma rootCount_started (levels : List Level) : rootCount levels true = 1 := by
  cases levels <;> rfl

lemma booksAt_eq (hframes : cur0.frames limits ++ levelFrames limits cur0.started levels0 =
      cur.frames limits ++ levelFrames limits cur.started levels)
    (htokens : levelTokens levels0 + cur0.tokens = levelTokens levels + cur.tokens)
    (hdepth : max (levelDepth levels0) (levels0.length + cur0.depth) =
      max (levelDepth levels) (levels.length + cur.depth))
    (hroot : rootCount levels0 cur0.started = rootCount levels cur.started) :
    booksAt limits levels0 cur0 = booksAt limits levels cur := by
  simp only [booksAt, hframes, htokens, hdepth, hroot]

lemma Within.of_books (h : Within limits levels0 cur0)
    (hbooks : booksAt limits levels0 cur0 = booksAt limits levels cur)
    (hlevels : LevelsFit limits cur.started levels)
    (hcursor : cur.Fits limits) : Within limits levels cur where
  tokens := by
    have htokens : levelTokens levels0 + cur0.tokens = levelTokens levels + cur.tokens :=
      congrArg Books.tokens hbooks
    exact htokens ▸ h.tokens
  depth := by
    have hdepth : max (levelDepth levels0) (levels0.length + cur0.depth) =
        max (levelDepth levels) (levels.length + cur.depth) := congrArg maxDepth hbooks
    exact hdepth ▸ h.depth
  levels := hlevels
  cursor := hcursor

lemma steps_free (h : Sim limits levels0 cur0 c) (hstate : c.Between) (hbyte : TokenByte c b)
    (next : ℕ → Core)
    (hturn : ∀ off tail, tokenTurn .silent limits off c b tail = .next (next off) 1 none)
    (hnext : ∀ off, (next off).books = c.books)
    (hbooks : booksAt limits levels0 cur0 = booksAt limits levels cur)
    (hholds : ∀ off, cur.Holds limits levels (next off))
    (hlevels : LevelsFit limits cur.started levels)
    (hcursor : cur.Fits limits) : Steps limits levels cur c b := by
  have hwithin := h.within.of_books hbooks hlevels hcursor
  refine ⟨fun _ off => ⟨next off, fun tail => ?_, (hnext off).trans (h.books.trans hbooks), hholds off, hwithin⟩,
    fun hnot => absurd hwithin hnot⟩
  rw [turn_token hstate hbyte, hturn]

lemma tokenByte_other (c : Core) (hascii : ¬0x80 ≤ b := by decide)
    (hsolid : isWhitespace b = false := by decide)
    (hobject : b ≠ 0x7D := by decide) (harray : b ≠ 0x5D := by decide) : TokenByte c b :=
  ⟨hascii, hsolid, closingFits_other hobject harray c⟩

lemma Sim.comma_array {done : Option Elements}
    (h : Sim limits (⟨lpre, .array done⟩ :: levels) (.after pre v post) c) :
    Steps limits (⟨lpre, .array (some (addElement done (.mk pre v post)))⟩ :: levels)
    (.value []) c 0x2C := by
  have hstate : c.state = .expectArrayCommaOrEnd := h.holds
  obtain ⟨⟨hdone, hcount⟩, hlevels⟩ := h.within.levels
  refine steps_free h (between_afterState h.holds) (tokenByte_other c)
    (fun _ => { c with state := .expectArrayValue })
    (fun off tail => ?_) (fun _ => rfl) (booksAt_eq ?_ ?_ ?_ rfl) (fun _ => rfl)
    ⟨⟨?_, ?_⟩, hlevels⟩ trivial
  · simp [tokenTurn, hstate]
  · simp [Cursor.frames, Cursor.started, Slot.frame, arrayLength, addElement_length]
  · simp
    omega
  · simp
  · rintro es ⟨⟩
    exact (addElement_fits _ _).mpr ⟨hdone, h.within.cursor⟩
  · simp only [arrayLength, Option.elim_some, addElement_length]
    exact hcount

lemma Sim.comma_object {name : Name}
    (h : Sim limits (⟨lpre, .member done name⟩ :: levels) (.after pre v post) c) :
    Steps limits levels (.name lpre (some (addMember done name (.mk pre v post))) []) c 0x2C := by
  have hstate : c.state = .expectObjectCommaOrEnd := h.holds
  obtain ⟨⟨hdone, hname, hnames⟩, -⟩ := h.within.levels
  refine steps_free h (between_afterState h.holds) (tokenByte_other c)
    (fun _ => { c with state := .expectObjectKey })
    (fun off tail => ?_) (fun _ => rfl) (booksAt_eq ?_ ?_ ?_ (rootCount_started levels).symm)
    (fun _ => rfl)
    h.within.levels.tail ⟨?_, ?_⟩
  · simp [tokenTurn, hstate]
  · simp only [Cursor.frames, Cursor.started, levelFrames_true, map_cons, Slot.frame, objectNames,
      Option.elim_some, addMember_names, cons_append, nil_append]
  · simp
    omega
  · simp
    omega
  · rintro ms ⟨⟩
    exact (addMember_fits _ _ _).mpr ⟨hdone, hname, h.within.cursor⟩
  · simp only [objectNames, Option.elim_some, addMember_names]
    exact hnames

lemma LevelsFit.all (h : LevelsFit limits true levels) : ∀ l ∈ levels, l.slot.Fits limits true := by
  cases levels with
  | nil => simp
  | cons l ls => exact forall_mem_cons.mpr h

lemma Sim.colon {name : Name} (h : Sim limits levels (.colon pre done name) c) :
    Steps limits (⟨pre, .member done name⟩ :: levels) (.value []) c 0x3A := by
  have hstate : c.state = .expectColon := h.holds
  have hbetween : c.Between := by simp [hstate]
  refine steps_free h hbetween (tokenByte_other c) (fun _ => { c with state := .expectObjectValue })
    (fun off tail => ?_) (fun _ => rfl) (booksAt_eq ?_ ?_ ?_ (rootCount_started levels))
    (fun _ => rfl)
    ⟨h.within.cursor, LevelsFit.all h.within.levels⟩ trivial
  · simp [tokenTurn, hstate]
  · simp only [Cursor.started, levelFrames_true]
    rfl
  · simp
  · simp
    omega

lemma startString_sim (hpos : limits.Positive) (key : Bool) (off : ℕ) (c : Core) :
    StrSim limits key [] [] (startString .silent key off c).1 := by
  refine .of_closed rfl ⟨rfl, ?_, rfl, fun _ => ?_⟩ ?_ ?_
  · cases key <;> rfl
  · cases key <;> rfl
  · have hstrings := hpos.strings
    have hnames := hpos.names
    cases key <;> simp [stringLimit] <;> omega
  · cases key <;> rfl

lemma Sim.open_key (hpos : limits.Positive) (h : Sim limits levels (.name pre done ws) c) :
    Steps limits levels (.key pre done ws [] []) c 0x22 := by
  have hstate : c.state = if done.isSome then .expectObjectKey else .expectObjectKeyOrEnd := h.holds
  have hbetween : c.Between := h.between (w := .space) rfl
  refine steps_free h hbetween (tokenByte_other c) (fun off => (startString .silent true off c).1)
    (fun off tail => ?_)
    (fun _ => rfl) rfl (fun off => startString_sim hpos true off c) h.within.levels h.within.cursor
  cases hdone : done.isSome with
  | true =>
    rw [hdone] at hstate
    simp [tokenTurn, hstate]
  | false =>
    rw [hdone, if_neg Bool.false_ne_true] at hstate
    simp [tokenTurn, hstate]

def startedBooks (limits : Limits) (levels : List Level) : Books :=
  ⟨levelFrames limits true levels, levelTokens levels, levelDepth levels, 1⟩

section

variable (h : Sim limits levels (.value pre) c)
include h

lemma Sim.countValue :
    (LevelsFit limits true levels → ∃ frames, countValue limits c = .ok { c with frames := frames, rootValues := 1 } ∧
        frames.map shape = levelFrames limits true levels) ∧
      (¬LevelsFit limits true levels → ∀ c1, countValue limits c ≠ .ok c1) := by
  have hstate : c.state = valueState levels := h.holds
  have hroot : c.rootValues = rootCount levels false := congrArg rootValues h.books
  have hframes : c.frames.map shape = levelFrames limits false levels := h.frames
  cases levels with
  | nil =>
    have hc : c.frames = [] := by simpa using hframes
    refine ⟨fun _ => ⟨[], ?_, rfl⟩, fun hnot => absurd trivial hnot⟩
    simp only [valueState] at hstate
    simp [countValue, hstate, hroot, rootCount, hc]
  | cons l ls =>
    obtain ⟨lpre, slot⟩ := l
    have hone : c.rootValues = 1 := hroot
    cases hc : c.frames with
    | nil => simp [hc] at hframes
    | cons top rest =>
      simp only [hc, map_cons, levelFrames, cons.injEq] at hframes
      obtain ⟨htop, hrest⟩ := hframes
      cases slot with
      | member done name =>
        have hself : c = { c with frames := top :: rest, rootValues := 1 } := by rw [← hc, ← hone]
        refine ⟨fun _ => ⟨top :: rest, ?_, ?_⟩, fun hnot => absurd ?_ hnot⟩
        · have hvalue : countValue limits c = .ok c := by
            simp only [countValue, hstate, valueState]
          rw [hvalue]
          exact congrArg Except.ok hself
        · rw [map_cons, htop, hrest]
          rfl
        · exact ⟨h.within.levels.1, h.within.levels.2⟩
      | array done =>
        have hcount : top.count = arrayLength done := congrArg (·.2.1) htop
        have hfits : LevelsFit limits true (⟨lpre, .array done⟩ :: ls) ↔
            ((arrayLength done + 1 : ℕ) : ℤ) ≤ limits.maxArrayElems :=
          ⟨fun hl => hl.1.2, fun hl => ⟨⟨h.within.levels.1.1, hl⟩, h.within.levels.2⟩⟩
        have hvalue : countValue limits c =
            if limits.maxArrayElems < ((arrayLength done + 1 : ℕ) : ℤ) then
              .error (exceeds .tooManyItems limits.maxArrayElems ((arrayLength done + 1 : ℕ) : ℤ),
                { c with frames := { top with count := arrayLength done + 1 } :: rest })
            else .ok { c with frames := { top with count := arrayLength done + 1 } :: rest } := by
          cases done <;> simp only [valueState] at hstate <;>
            simp only [countValue, hstate, hc, hcount]
        rw [hfits, hvalue]
        refine ⟨fun hle => ⟨{ top with count := arrayLength done + 1 } :: rest, ?_, ?_⟩, fun hnot c1 => ?_⟩
        · rw [if_neg (not_lt.mpr hle), ← hone]
        · rw [map_cons, hrest]
          have hobject : top.object = false := congrArg Prod.fst htop
          have hseen : top.seen = [] := congrArg (·.2.2) htop
          simp [shape, Slot.frame, hobject, hseen]
        · rw [if_pos (not_le.mp hnot)]
          simp

lemma turn_value (hbyte : TokenByte c b)
    (hb : ¬(c.state = .expectArrayValueOrEnd ∧ b = 0x5D)) (off : ℕ) (tail : GoStr) :
    turn .silent limits off c b tail =
      match countValue limits c >>= startValue .silent limits b off with
      | .ok (c, stored) => .next c 1 stored
      | .error (e, c) => .halt e c := by
  have hstate : c.state = valueState levels := h.holds
  have hvalue : tokenTurn .silent limits off c b tail = valueTurn .silent limits off c b := by
    unfold valueState at hstate
    split at hstate <;> simp only [tokenTurn, hstate]
  rw [turn_token (between_valueState h.holds) hbyte, hvalue]
  exact if_neg hb

lemma steps_start (hbyte : TokenByte c b) (hb : b ≠ 0x5D)
    {levels' : List Level} (hlevels : Within limits levels' cur → LevelsFit limits true levels)
    (hmoves : ∀ off c1, c1.books = startedBooks limits levels →
      Within limits levels' cur →
      ∃ c', startValue .silent limits b off c1 = .ok (c', none) ∧ Sim limits levels' cur c')
    (hrefuses : ∀ off c1, c1.books = startedBooks limits levels →
      LevelsFit limits true levels → ¬Within limits levels' cur →
      ∀ r, startValue .silent limits b off c1 ≠ .ok r) :
    Steps limits levels' cur c b := by
  obtain ⟨hcounts, hfull⟩ := h.countValue
  have hdepth : max (levelDepth levels) (levels.length + 0) = levelDepth levels := by
    have hle := length_le_levelDepth levels
    omega
  have hbooks : ∀ frames : List Frame, frames.map shape = levelFrames limits true levels →
      ({ c with frames := frames, rootValues := 1 } : Core).books = startedBooks limits levels := by
    intro frames hframes
    have htokens : c.tokens = levelTokens levels := congrArg tokens h.books
    have hmax : c.maxDepth = levelDepth levels := (congrArg maxDepth h.books).trans hdepth
    simp only [Core.books, startedBooks, hframes, htokens, hmax]
  refine ⟨fun hwithin off => ?_, fun hnot off tail c' size stored => ?_⟩
  · obtain ⟨frames, hcount, hframes⟩ := hcounts (hlevels hwithin)
    obtain ⟨c', hstart, hsim⟩ := hmoves off _ (hbooks frames hframes) hwithin
    refine ⟨c', fun tail => ?_, hsim⟩
    rw [turn_value h hbyte (fun hand => hb hand.2), hcount]
    change (match startValue .silent limits b off _ with
      | .ok (c, stored) => Turn.next c 1 stored
      | .error (e, c) => Turn.halt e c) = _
    rw [hstart]
  · rw [turn_value h hbyte (fun hand => hb hand.2)]
    by_cases hfits : LevelsFit limits true levels
    · obtain ⟨frames, hcount, hframes⟩ := hcounts hfits
      have hstart := hrefuses off _ (hbooks frames hframes) hfits hnot
      rw [hcount]
      split
      · exact absurd ‹_› (hstart _)
      · simp
    · cases hcount : countValue limits c with
      | ok c1 => exact absurd hcount (hfull hfits c1)
      | error e =>
        change Turn.halt _ _ ≠ _
        simp

end

def Core.opened (c : Core) (object : Bool) : Core :=
  { c with
    tokens := c.tokens + 1
    frames := { object := object, startOffset := c.tokStart } :: c.frames
    maxDepth := max c.maxDepth (c.frames.length + 1)
    state := if object then .expectObjectKeyOrEnd else .expectArrayValueOrEnd }

lemma openContainer_ok {object : Bool} : openContainer .silent limits object c = .ok c' ↔
      ((c.frames.length + 1 : ℕ) : ℤ) ≤ limits.maxDepth ∧
        ((c.tokens + 1 : ℕ) : ℤ) ≤ limits.maxTokens ∧ c' = c.opened object := by
  rw [openContainer, checkDepth]
  by_cases hdeep : limits.maxDepth < ((c.frames.length + 1 : ℕ) : ℤ)
  · rw [if_pos hdeep]
    exact ⟨fun h => (nomatch h), fun h => absurd hdeep (not_lt.mpr h.1)⟩
  rw [if_neg hdeep]
  change (checkTokenLimit limits c >>= _) = _ ↔ _
  cases hcheck : checkTokenLimit limits c with
  | error e =>
    refine ⟨fun h => (nomatch h), fun h => ?_⟩
    rw [checkTokenLimit_ok.mpr ⟨h.2.1, rfl⟩] at hcheck
    cases hcheck
  | ok c1 =>
    obtain ⟨htokens, rfl⟩ := checkTokenLimit_ok.mp hcheck
    constructor
    · intro h
      exact ⟨not_lt.mp hdeep, htokens, (Except.ok.inj h).symm⟩
    · rintro ⟨-, -, rfl⟩
      rfl

lemma frames_length (h : c.books.frames = fs) : c.frames.length = fs.length := by
  rw [← h]
  simp [Core.books]

lemma levelFrames_length (limits : Limits) (started : Bool) (levels : List Level) :
    (levelFrames limits started levels).length = levels.length := by
  cases levels <;> simp

lemma LevelsFit.cons (hl : l.slot.Fits limits false) (h : LevelsFit limits true levels) :
    LevelsFit limits false (l :: levels) := ⟨hl, h.all⟩

lemma steps_open (h : Sim limits levels (.value pre) c) (hbyte : TokenByte c b) (hb : b ≠ 0x5D)
    (object : Bool) {levels' : List Level}
    (hstart : ∀ off c1, startValue .silent limits b off c1 =
      (openContainer .silent limits object { c1 with tokStart := off, tokDepth := c1.frames.length + 1 }).map
        fun c => (c, none))
    (hframes : cur.frames limits ++ levelFrames limits cur.started levels' =
      (object, 0, []) :: levelFrames limits true levels)
    (htokens : levelTokens levels' + cur.tokens = levelTokens levels + 1)
    (hdepth : max (levelDepth levels') (levels'.length + cur.depth) = max (levelDepth levels) (levels.length + 1))
    (hroot : rootCount levels' cur.started = 1)
    (hlevels : LevelsFit limits cur.started levels' ↔ LevelsFit limits true levels)
      (hcursor : cur.Fits limits)
    (hholds : ∀ c' : Core, c'.state = (if object then .expectObjectKeyOrEnd else .expectArrayValueOrEnd) →
      cur.Holds limits levels' c') : Steps limits levels' cur c b := by
  have hwithin : Within limits levels' cur ↔ LevelsFit limits true levels ∧
      ((levels.length + 1 : ℕ) : ℤ) ≤ limits.maxDepth ∧
      ((levelTokens levels + 1 : ℕ) : ℤ) ≤ limits.maxTokens := by
    have hold := h.within.depth
    constructor
    · intro hw
      have hdeep := hw.depth
      exact ⟨hlevels.mp hw.levels, by omega, htokens ▸ hw.tokens⟩
    · rintro ⟨hfit, hdeep, hfew⟩
      refine ⟨htokens ▸ hfew, ?_, hlevels.mpr hfit, hcursor⟩
      omega
  have hcounts : ∀ c1 : Core, c1.books = startedBooks limits levels →
      c1.frames.length = levels.length ∧ c1.tokens = levelTokens levels := fun c1 hbooks =>
    ⟨(frames_length (congrArg frames hbooks)).trans (levelFrames_length _ _ _), congrArg tokens hbooks⟩
  refine steps_start h hbyte hb (fun hw => (hwithin.mp hw).1) (fun off c1 hbooks hw => ?_)
    (fun off c1 hbooks hfits hnot r => ?_)
  · obtain ⟨hlen, hn⟩ := hcounts c1 hbooks
    obtain ⟨-, hdeep, hfew⟩ := hwithin.mp hw
    have hopen : openContainer .silent limits object { c1 with tokStart := off, tokDepth := c1.frames.length + 1 } =
        .ok _ := openContainer_ok.mpr ⟨by rwa [hlen], by rwa [hn], rfl⟩
    refine ⟨_, by rw [hstart, hopen]; rfl, ?_, hholds _ rfl, hw⟩
    have hmap : c1.frames.map shape = levelFrames limits true levels := congrArg frames hbooks
    have hmax : c1.maxDepth = levelDepth levels := congrArg maxDepth hbooks
    have hone : c1.rootValues = 1 := congrArg rootValues hbooks
    simp only [Core.books, Core.opened, booksAt, map_cons, hframes, htokens, hdepth, hroot, hmap, hmax, hone, hn, hlen]
    rfl
  · obtain ⟨hlen, hn⟩ := hcounts c1 hbooks
    rw [hstart]
    cases hopen : openContainer .silent limits object
      { c1 with tokStart := off, tokDepth := c1.frames.length + 1 } with
    | error e => simp [Except.map]
    | ok c2 =>
      obtain ⟨hdeep, hfew, -⟩ := openContainer_ok.mp hopen
      exact absurd (hwithin.mpr ⟨hfits, by rwa [← hlen], by rwa [← hn]⟩) hnot

section

variable (hpos : limits.Positive) (h : Sim limits levels (.value pre) c)

include hpos h

lemma Sim.open_array : Steps limits (⟨pre, .array none⟩ :: levels) (.value []) c 0x5B := by
  refine steps_open h (tokenByte_other c)
    (by decide) false (fun _ _ => rfl) ?_ rfl ?_ rfl ?_ trivial fun c' hstate => hstate
  · rw [levelFrames_true]
    rfl
  · simp
  · have helems := hpos.elems
    refine ⟨LevelsFit.tail, .cons ⟨by simp [ArrayFits], ?_⟩⟩
    simp only [arrayLength, Option.elim_none, Bool.toNat_false]
    omega

lemma Sim.open_object : Steps limits levels (.name pre none []) c 0x7B := by
  refine steps_open h (tokenByte_other c)
    (by decide) true (fun _ _ => rfl) ?_ rfl rfl (rootCount_started levels) Iff.rfl ?_
    fun c' hstate => hstate
  · simp [Cursor.frames, seenNames, Cursor.started]
  have hkeys := hpos.keys
  refine ⟨by simp [ObjectFits], ?_, ?_⟩
  · simp only [objectNames, Option.elim_none, length_nil]
    omega
  · simp

end

end InteractiveProxy.JsonShape
