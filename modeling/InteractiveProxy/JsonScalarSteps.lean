import InteractiveProxy.JsonTransitions

/-! The steps of the scanner through strings, numbers and literals, and the ends of these and of
member names. -/
namespace InteractiveProxy.JsonShape
open GoText JsonGrammar UInt8

variable {limits : Limits} {levels : List Level} {c : Core} {b : UInt8}

structure Cursor.Scalar (cur : Cursor) : Prop where
  frames : ∀ limits, cur.frames limits = []
  started : cur.started
  tokens : cur.tokens = 0
  depth : cur.depth = 0

lemma Cursor.Scalar.text (pre : List Blank) (items : List StrChar) (raw : GoStr) :
    (Cursor.text pre items raw).Scalar :=
  ⟨fun _ => rfl, rfl, rfl, rfl⟩

lemma Cursor.Scalar.number (pre : List Blank) (t : List Char) : (Cursor.number pre t).Scalar :=
  ⟨fun _ => rfl, rfl, rfl, rfl⟩

lemma Cursor.Scalar.literal (pre : List Blank) (l : Literal) (n : ℕ) :
    (Cursor.literal pre l n).Scalar :=
  ⟨fun _ => rfl, rfl, rfl, rfl⟩

variable {cur : Cursor}

lemma Cursor.Scalar.books (h : cur.Scalar) (limits : Limits) (levels : List Level) :
    booksAt limits levels cur = startedBooks limits levels := by
  simp only [booksAt, startedBooks, h.frames, h.started, h.tokens, h.depth, rootCount_started,
    List.nil_append, Nat.add_zero, max_eq_left (length_le_levelDepth levels)]

variable {pre : List Blank}

lemma steps_scalar (h : Sim limits levels (.value pre) c) (hbyte : TokenByte c b) (hb : b ≠ 0x5D)
    (hcur : cur.Scalar) (hcursor : cur.Fits limits) (next : ℕ → Core → Core)
    (hstart : ∀ off c1, startValue .silent limits b off c1 = .ok (next off c1, none))
    (hbooks : ∀ off c1, (next off c1).books = c1.books)
    (hholds : ∀ off c1, cur.Holds limits levels (next off c1)) : Steps limits levels cur c b := by
  have hwithin : Within limits levels cur ↔ LevelsFit limits true levels := by
    refine ⟨fun hw => hcur.started ▸ hw.levels, fun hfit => ⟨?_, ?_, hcur.started.symm ▸ hfit, hcursor⟩⟩
    · rw [hcur.tokens]
      exact h.within.tokens
    · rw [hcur.depth]
      exact h.within.depth
  refine steps_start h hbyte hb hwithin.mp
    (fun off c1 hc1 hw => ⟨next off c1, hstart off c1, ?_, hholds off c1, hw⟩)
    (fun off c1 _ hfit hnot => absurd (hwithin.mpr hfit) hnot)
  rw [hbooks, hc1, hcur.books]

lemma Sim.open_string (hpos : limits.Positive) (h : Sim limits levels (.value pre) c) :
    Steps limits levels (.text pre [] []) c 0x22 := by
  exact steps_scalar h (tokenByte_other c) (by decide) (.text _ _ _) trivial
    (fun off c => (startString .silent false off { c with tokStart := off, tokDepth := c.frames.length + 1 }).1)
    (fun _ _ => rfl) (fun _ _ => rfl) (fun off c => startString_sim hpos false off _)

variable {st : NumState} {t : List Char} {l : Literal} {x : Char}

lemma startValue_number (hb : numStart b = some st) (off : ℕ) (c : Core) :
    startValue .silent limits b off c =
      .ok ({ c with tokStart := off, tokDepth := c.frames.length + 1 }.startNumber st, none) := by
  have hother : b ≠ 0x7B ∧ b ≠ 0x5B ∧ b ≠ 0x22 := by
    refine ⟨?_, ?_, ?_⟩ <;> rintro rfl <;> cases hb
  simp only [startValue, if_neg hother.1, if_neg hother.2.1, if_neg hother.2.2]
  unfold numStart at hb
  split_ifs at hb ⊢ <;> cases hb <;> rfl

/-- The first byte of a number. -/
lemma NumPrefix.start (hb : numStart b = some st) : ∃ x :
    Char, String.utf8EncodeChar x = [b] ∧ NumPrefix st [x] := by
  unfold numStart at hb
  split_ifs at hb with hminus hzero hdigit <;> cases hb
  · exact ⟨'-', by rw [hminus]; decide, .minus⟩
  · exact ⟨'0', by rw [hzero]; decide, .zero false⟩
  · obtain ⟨d, hd⟩ := nonzero_of_isDigit hdigit hzero
    exact ⟨_, hd, .int false d []⟩

lemma Sim.open_number (hpos : limits.Positive) (h : Sim limits levels (.value pre) c)
    (hb : numStart b = some st)
    (hx : String.utf8EncodeChar x = [b]) (hread : NumPrefix st [x]) :
    Steps limits levels (.number pre [x]) c b := by
  have hlen : (utf8 [x]).length = 1 := by simp [hx]
  have hrun : numRun (utf8 [x]) = some st := by simp [hx, numRun, numSteps, hb]
  have hother : ∀ b, (numStart b).isSome → ¬0x80 ≤ b ∧ isWhitespace b = false ∧ b ≠ 0x7D ∧
      b ≠ 0x5D :=
    byte_forall (by decide +kernel)
  obtain ⟨hascii, hsolid, hobject, harray⟩ := hother b (hb ▸ rfl)
  refine steps_scalar h (tokenByte_other c hascii hsolid hobject harray) harray (.number _ _) ?_
    (fun off c => { c with tokStart := off, tokDepth := c.frames.length + 1 }.startNumber st)
    (startValue_number hb) (fun _ _ => rfl) (fun _ _ => ⟨rfl, hread, hrun, hlen.symm⟩)
  have hnumbers := hpos.numbers
  simp only [Cursor.Fits]
  omega

def literalByte : Literal → UInt8
  | .true => 0x74
  | .false => 0x66
  | .null => 0x6E

lemma Sim.open_literal (h : Sim limits levels (.value pre) c) (l : Literal) :
    Steps limits levels (.literal pre l 1) c (literalByte l) := by
  have hbyte : TokenByte c (literalByte l) := by
    cases l <;> exact tokenByte_other c
  refine steps_scalar h hbyte (by cases l <;> decide) (.literal _ _ _) trivial
    (fun off c => { c with tokStart := off, tokDepth := c.frames.length + 1 }.startLiteral (utf8 l.chars)
      (match l with | .true => .true | .false => .false | .null => .null)) (fun off c => ?_)
      (fun _ _ => rfl)
    (fun _ _ => ⟨rfl, rfl, rfl, by cases l <;> decide⟩)
  cases l <;> rfl

lemma Sim.number_next (h : Sim limits levels (.number pre t) c) (hmove : numMove c.num b = .next st)
    (hx : String.utf8EncodeChar x = [b]) (hread : NumPrefix st (t ++ [x])) :
    Steps limits levels (.number pre (t ++ [x])) c b := by
  obtain ⟨hstate, -, hrun, hlen⟩ := h.holds
  have hrun' : numRun (utf8 (t ++ [x])) = some st := by
    rw [utf8_append, numRun_append hrun, utf8_cons, hx]
    simp [numSteps, hmove]
  have hlen' : (utf8 (t ++ [x])).length = c.numLen + 1 := by simp [hx, hlen]
  have hwithin : Within limits levels (.number pre (t ++ [x])) ↔
      ((c.numLen + 1 : ℕ) : ℤ) ≤ limits.maxNumberBytes := by
    rw [← hlen']
    exact ⟨fun hw => hw.cursor, fun hfits => ⟨h.within.tokens, h.within.depth, h.within.levels, hfits⟩⟩
  have hturn : ∀ off tail, turn .silent limits off c b tail =
      if limits.maxNumberBytes < ((c.numLen + 1 : ℕ) : ℤ) then
        .halt (exceeds .numberTooLong limits.maxNumberBytes ((c.numLen + 1 : ℕ) : ℤ))
          { c with num := st, numLen := c.numLen + 1 }
      else .next { c with num := st, numLen := c.numLen + 1 } 1 none := by
    intro off tail
    simp only [turn, hstate, numberTurn, hmove]
  refine ⟨fun hw off => ⟨{ c with num := st, numLen := c.numLen + 1 }, fun tail => ?_, h.books, ?_, hw⟩,
    fun hnot off tail c' size stored => ?_⟩
  · rw [hturn, if_neg (not_lt.mpr (hwithin.mp hw))]
  · exact ⟨hstate, hread, hrun', hlen'.symm⟩
  · rw [hturn, if_pos (not_le.mp fun hle => hnot (hwithin.mpr hle))]
    simp

lemma Sim.literal_next {n : ℕ} (h : Sim limits levels (.literal pre l n) c)
    (hb : (utf8 l.chars)[n]? = some b) : Steps limits levels (.literal pre l (n + 1)) c b := by
  obtain ⟨hstate, hliteral, hidx, -⟩ := h.holds
  have hlt : n < (utf8 l.chars).length := (List.getElem?_eq_some_iff.mp hb).1
  have hw : Within limits levels (.literal pre l (n + 1)) :=
    ⟨h.within.tokens, h.within.depth, h.within.levels, trivial⟩
  refine ⟨fun _ off => ⟨{ c with literalIdx := c.literalIdx + 1 }, fun tail => ?_, h.books, ?_, hw⟩,
    fun hnot => absurd hw hnot⟩
  · simp only [turn, hstate, literalTurn, hliteral, hidx, hlt, hb, if_true]
  · exact ⟨hstate, hliteral, congrArg (· + 1) hidx, hlt⟩

variable {v : Value} {c' : Core}

lemma Sim.scalar_within (h : Sim limits levels cur c) (hcur : cur.Scalar) (pre : List Blank)
    (htokens : v.tokens = 1) (hdepth : v.depth = 0) (hv : ValueFits limits v) :
    Within limits levels (.after pre v []) ↔ ((c.tokens + 1 : ℕ) : ℤ) ≤ limits.maxTokens := by
  have hn : c.tokens = levelTokens levels :=
    congrArg Books.tokens (h.books.trans (hcur.books limits levels))
  rw [hn, ← htokens]
  have hlevels := h.within.levels
  have hdeep := h.within.depth
  rw [hcur.started] at hlevels
  rw [hcur.depth, ← hdepth] at hdeep
  exact ⟨fun hw => hw.tokens, fun hfits => ⟨hfits, hdeep, hlevels, hv⟩⟩

lemma Sim.scalar_after (h : Sim limits levels cur c) (hcur : cur.Scalar) (htokens : v.tokens = 1)
    (hdepth : v.depth = 0)
    (hw : Within limits levels (.after pre v []))
    (hbooks : c'.books = { c.books with tokens := c.tokens + 1 }) :
    Sim limits levels (.after pre v []) c'.valueFinished := by
  have hc : c.books = startedBooks limits levels := h.books.trans (hcur.books limits levels)
  have hn : c.tokens = levelTokens levels := congrArg Books.tokens hc
  rw [hc, hn] at hbooks
  refine valueFinished_sim ?_ ?_ ?_ ?_ hw <;> rw [hbooks]
  · rfl
  · rw [htokens]
  · rw [hdepth]
    exact (max_eq_left (length_le_levelDepth levels)).symm
  · rfl

lemma map_checkTokenLimit {f : Core → Core} : (checkTokenLimit limits c).map f = .ok c' ↔
    ((c.tokens + 1 : ℕ) : ℤ) ≤ limits.maxTokens ∧ f { c with tokens := c.tokens + 1 } = c' := by
  simp only [checkTokenLimit]
  split_ifs with hlong
  · simp only [Except.map, reduceCtorEq, not_le.mpr hlong, false_and]
  · simp only [Except.map, Except.ok.injEq, not_lt.mp hlong, true_and]

lemma endScalar_silent (type : EventType) (length : ℕ) (c : Core) :
    endScalar .silent limits type length c = (checkTokenLimit limits c).map Core.valueFinished := by
  unfold endScalar
  cases checkTokenLimit limits c <;> rfl

/-- The scanner holds back the end of a value, which the end of the input or the next delimiter
settles. -/
structure Settles (limits : Limits) (c c' : Core) : Prop where
  atEnd : endPending .silent limits c = .ok c'
  atByte : ∀ b, isDelimiterOrWhitespace b → ∀ off tail,
    turn .silent limits off c b tail = turn .silent limits off c' b tail

lemma endPending_other (hnumber : c.state ≠ .inNumber) (hliteral : c.state ≠ .inLiteral) :
    endPending .silent limits c = .ok c := by
  unfold endPending
  split
  · exact absurd ‹_› hnumber
  · exact absurd ‹_› hliteral
  · rfl

lemma Settles.refl (hc : c.Between) : Settles limits c c :=
  ⟨endPending_other hc.2.1 hc.2.2, fun _ _ _ _ => rfl⟩

/-- The scanner has read a scalar whose end it holds back. -/
structure Held (limits : Limits) (levels : List Level) (cur : Cursor) (v : Value) (c : Core) :
    Prop where
  sim : Sim limits levels cur c
  scalar : cur.Scalar
  tokens : v.tokens = 1
  depth : v.depth = 0
  fits : ValueFits limits v
  atEnd : endPending .silent limits c = (checkTokenLimit limits c).map Core.valueFinished
  atByte : ∀ b, isDelimiterOrWhitespace b → ∀ off tail, turn .silent limits off c b tail =
    match (checkTokenLimit limits c).map Core.valueFinished with
    | .error (e, c) => .halt e c
    | .ok c => betweenTurn .silent limits off c b tail

lemma Sim.between_after {post : List Blank} (h : Sim limits levels (.after pre v post) c) :
    c.Between :=
  between_afterState h.holds

variable {length : ℕ} {items items0 : List StrChar} {raw : GoStr} {c1 : Core}

lemma Held.settles (h : Held limits levels cur v c) (hw : Within limits levels (.after pre v [])) :
    ∃ c', Settles limits c c' ∧ Sim limits levels (.after pre v []) c' := by
  have hcheck :=
    checkTokenLimit_ok.mpr ⟨(h.sim.scalar_within h.scalar pre h.tokens h.depth h.fits).mp hw, rfl⟩
  have hsim : Sim limits levels (.after pre v []) { c with tokens := c.tokens + 1 }.valueFinished :=
    h.sim.scalar_after h.scalar h.tokens h.depth hw rfl
  refine ⟨_, ⟨by rw [h.atEnd, hcheck]; rfl, fun b hb off tail => ?_⟩, hsim⟩
  rw [h.atByte b hb, hcheck, turn_between hsim.between_after]
  rfl

lemma Held.settles_not (h : Held limits levels cur v c)
    (hnot : ¬Within limits levels (.after pre v [])) :
    (∀ c', endPending .silent limits c ≠ .ok c') ∧
    ∀ b, isDelimiterOrWhitespace b → Refuses limits c b := by
  rw [h.sim.scalar_within h.scalar pre h.tokens h.depth h.fits] at hnot
  cases hcheck : checkTokenLimit limits c with
  | ok c' => exact absurd (checkTokenLimit_ok.mp hcheck).1 hnot
  | error e =>
    refine ⟨fun c' => by simp [h.atEnd, hcheck, Except.map], fun b hb off tail c' size stored => ?_⟩
    rw [h.atByte b hb, hcheck]
    simp [Except.map]

lemma numMove_delimiter (hst : st.complete) (hb : isDelimiterOrWhitespace b) :
    numMove st b = .stop := by
  have hother : ∀ b, isDelimiterOrWhitespace b → isDigit b = false ∧ b ≠ 0x2E ∧ b ≠ 0x65 ∧
      b ≠ 0x45 :=
    byte_forall (by decide +kernel)
  have hb' := hother b
  cases st <;> simp_all [numMove, NumState.complete]

lemma Sim.held_number {n : Number} (h : Sim limits levels (.number pre t) c) (hc : c.num.complete)
    (hn : ValueFits limits (.number n)) : Held limits levels (.number pre t) (.number n) c := by
  have hstate : c.state = .inNumber := h.holds.1
  refine ⟨h, .number _ _, rfl, rfl, hn, by simp [endPending, hstate, hc, endScalar_silent], fun b hb off tail => ?_⟩
  simp only [turn, hstate, numberTurn, numMove_delimiter hc hb, hc, hb, Bool.not_true, Bool.or_self,
    if_neg Bool.false_ne_true, endScalar_silent]
  split <;> simp [*]

lemma Sim.held_literal (h : Sim limits levels (.literal pre l (utf8 l.chars).length) c) :
    Held limits levels (.literal pre l (utf8 l.chars).length) (.literal l) c := by
  obtain ⟨hstate, hliteral, hidx, -⟩ := h.holds
  have hend : ¬c.literalIdx < c.literal.length := by
    rw [hliteral, hidx]
    exact lt_irrefl _
  refine ⟨h, .literal _ _ _, rfl, rfl, trivial,
    by simp [endPending, hstate, hend, endScalar_silent], fun b hb off tail => ?_⟩
  simp only [turn, hstate, literalTurn, if_neg hend, hb, Bool.not_true, if_neg Bool.false_ne_true,
    endScalar_silent]
  split <;> simp [*]

lemma closeActive_silent (c : Core) :
    closeActive .silent c = .ok { c with active := none, closes := false } := by
  unfold closeActive
  split <;> rfl

lemma endString_value (hc : Collects false (decodedBytes items) c)
    (hfits : ((decodedBytes items).length : ℤ) ≤ stringLimit limits false) (off : ℕ) :
    endString .silent limits off c =
      (checkTokenLimit limits c).map
      fun c => { c with active := none, closes := false }.valueFinished := by
  unfold endString
  cases hcheck : checkTokenLimit limits c with
  | error e => rfl
  | ok c1 =>
    obtain ⟨-, rfl⟩ := checkTokenLimit_ok.mp hcheck
    have hc' : Collects false (decodedBytes items)
        { c with tokens := c.tokens + 1, active := none, closes := false } :=
      ⟨hc.state, hc.isKey, hc.count, hc.buf⟩
    change (if c.strIsKey = true then _ else closeActive .silent _ >>= checkStringLimit limits >>= _) = _
    rw [if_neg (by simp [hc.isKey]), closeActive_silent]
    change (checkStringLimit limits { c with tokens := c.tokens + 1, active := none, closes := false } >>= _) = _
    rw [hc'.check.mpr hfits]
    rfl

/-- The string ends at the position if that keeps the limits, and only then. -/
def EndsAt (limits : Limits) (levels : List Level) (cur : Cursor) (off : ℕ) (c : Core) : Prop :=
  (Within limits levels cur → ∃ c', endString .silent limits off c = .ok c') ∧
    ∀ c', endString .silent limits off c = .ok c' → Sim limits levels cur c'

lemma Sim.string_end (h : Sim limits levels (.text pre items0 raw) c)
    (hc : Collects false (decodedBytes items) c1)
    (hbooks : c1.books = c.books)
    (hfits : ((decodedBytes items).length : ℤ) ≤ stringLimit limits false) (off : ℕ) :
    EndsAt limits levels (.after pre (.string items) []) off c1 := by
  have hn : c1.tokens = c.tokens := congrArg Books.tokens hbooks
  have hwithin : Within limits levels (.after pre (.string items) []) ↔
      ((c1.tokens + 1 : ℕ) : ℤ) ≤ limits.maxTokens := by
    rw [hn]
    exact h.scalar_within (.text _ _ _) pre rfl rfl hfits
  unfold EndsAt
  rw [endString_value hc hfits]
  refine ⟨fun hw => ⟨_, map_checkTokenLimit.mpr ⟨hwithin.mp hw, rfl⟩⟩, fun c' hend => ?_⟩
  obtain ⟨htokens, rfl⟩ := map_checkTokenLimit.mp hend
  refine h.scalar_after (.text _ _ _) rfl rfl (hwithin.mpr htokens) ?_
  rw [← hbooks, ← hn]
  rfl

lemma endKey_ok {frame : Frame} {rest : List Frame} (hframes : c.frames = frame :: rest) :
    endKey .silent limits length c = .ok c' ↔
      (c.keyBuf.length : ℤ) ≤ limits.maxKeyBytes ∧
      (limits.rejectDuplicateNames → c.keyBuf ∉ frame.seen) ∧
        ((frame.count + 1 : ℕ) : ℤ) ≤ limits.maxObjectKeys ∧
        c' = { c with
          frames :=
            { frame with
              seen := if limits.rejectDuplicateNames then c.keyBuf :: frame.seen else frame.seen
              count := frame.count + 1
              currentKey := c.keyBuf } :: rest
          state := .expectColon } := by
  unfold endKey
  by_cases hlong : limits.maxKeyBytes < (c.keyBuf.length : ℤ)
  · rw [if_pos hlong]
    exact ⟨fun h => (nomatch h), fun h => absurd hlong (not_lt.mpr h.1)⟩
  rw [if_neg hlong]
  simp only [hframes]
  by_cases hseen : (limits.rejectDuplicateNames && frame.seen.contains c.keyBuf)
  · rw [if_pos hseen]
    refine ⟨fun h => (nomatch h), fun h => ?_⟩
    simp only [Bool.and_eq_true, List.contains_iff_mem] at hseen
    exact absurd hseen.2 (h.2.1 hseen.1)
  rw [if_neg hseen]
  have hnew : limits.rejectDuplicateNames → c.keyBuf ∉ frame.seen := by
    intro hreject hmem
    exact hseen (by simp [hreject, hmem])
  by_cases hmany : limits.maxObjectKeys < ((frame.count + 1 : ℕ) : ℤ)
  · rw [if_pos hmany]
    exact ⟨fun h => (nomatch h), fun h => absurd hmany (not_lt.mpr h.2.2.1)⟩
  rw [if_neg hmany]
  constructor
  · intro h
    exact ⟨not_lt.mp hlong, hnew, not_lt.mp hmany, (Except.ok.inj h).symm⟩
  · rintro ⟨-, -, -, rfl⟩
    rfl

lemma endString_key (hkey : c.strIsKey) {off : ℕ} : endString .silent limits off c = .ok c' ↔
      ((c.tokens + 1 : ℕ) : ℤ) ≤ limits.maxTokens ∧
        endKey .silent limits (off - c.tokStart) { c with tokens := c.tokens + 1 } = .ok c' := by
  unfold endString
  cases hcheck : checkTokenLimit limits c with
  | error e =>
    refine ⟨fun h => (nomatch h), fun h => ?_⟩
    rw [checkTokenLimit_ok.mpr ⟨h.1, rfl⟩] at hcheck
    cases hcheck
  | ok c1 =>
    obtain ⟨htokens, rfl⟩ := checkTokenLimit_ok.mp hcheck
    change (if c.strIsKey = true then endKey .silent limits (off - c.tokStart) _ else _) = _ ↔ _
    rw [if_pos hkey]
    exact ⟨fun h => ⟨htokens, h⟩, fun h => h.2⟩

lemma seenNames_cons (limits : Limits) (name : GoStr) (names : List GoStr) :
    (if limits.rejectDuplicateNames then name :: seenNames limits names else seenNames limits names) =
      seenNames limits (name :: names) := by
  unfold seenNames
  split_ifs <;> rfl

lemma namesFit_cons {name : GoStr} {names : List GoStr} (h : NamesFit limits names) :
    NamesFit limits (name :: names) ↔
      (limits.rejectDuplicateNames → name ∉ seenNames limits names) ∧
        ((names.length + 1 : ℕ) : ℤ) ≤ limits.maxObjectKeys := by
  unfold NamesFit seenNames at *
  rw [and_comm]
  refine and_congr_left fun _ => forall_congr' fun hreject => ?_
  rw [if_pos hreject, List.nodup_cons]
  exact and_iff_left (h.2 hreject)

lemma Sim.key_end {ws : List Blank} {done : Option Members}
    (h : Sim limits levels (.key pre done ws items0 raw) c)
    (hc : Collects true (decodedBytes items) c1) (hbooks : c1.books = c.books)
    (hfits : ((decodedBytes items).length : ℤ) ≤ stringLimit limits true) (off : ℕ) :
    EndsAt limits levels (.colon pre done ⟨ws, items, []⟩) off c1 := by
  obtain ⟨hdone, hnames⟩ := h.within.cursor
  have hmap : c1.frames.map Frame.shape =
      (true, (objectNames done).length, seenNames limits (objectNames done)) :: levelFrames limits true levels :=
    (congrArg Books.frames hbooks).trans h.frames
  obtain ⟨frame, rest, hframes, hframe, hrest⟩ := List.map_eq_cons_iff.mp hmap
  have hcount : frame.count = (objectNames done).length := congrArg (·.2.1) hframe
  have hseen : frame.seen = seenNames limits (objectNames done) := congrArg (·.2.2) hframe
  have hobject : frame.object := congrArg Prod.fst hframe
  have hkey : c1.keyBuf = decodedBytes items := hc.buf rfl
  have hn : c1.tokens = levelTokens levels + (objectTokens done + 1) :=
    congrArg Books.tokens (hbooks.trans h.books)
  have hwithin : Within limits levels (.colon pre done ⟨ws, items, []⟩) ↔
      ((c1.tokens + 1 : ℕ) : ℤ) ≤ limits.maxTokens ∧
        (limits.rejectDuplicateNames = true → c1.keyBuf ∉ frame.seen) ∧
        ((frame.count + 1 : ℕ) : ℤ) ≤ limits.maxObjectKeys := by
    rw [hcount, hseen, hkey, ← namesFit_cons hnames, hn]
    exact ⟨fun hw => ⟨hw.tokens, hw.cursor.2.2⟩,
      fun hnew => ⟨hnew.1, h.within.depth, h.within.levels, hdone, hfits, hnew.2⟩⟩
  refine ⟨fun hw => ?_, fun c' hend => ?_⟩
  · obtain ⟨htokens, hnew, hmany⟩ := hwithin.mp hw
    have hend : endKey .silent limits (off - c1.tokStart)
        { c1 with tokens := c1.tokens + 1 } = .ok _ :=
      (endKey_ok (by exact hframes)).mpr ⟨by rw [hkey]; exact hfits, hnew, hmany, rfl⟩
    exact ⟨_, (endString_key hc.isKey).mpr ⟨htokens, hend⟩⟩
  · obtain ⟨htokens, hend⟩ := (endString_key hc.isKey).mp hend
    obtain ⟨-, hnew, hmany, rfl⟩ := (endKey_ok (by exact hframes)).mp hend
    refine ⟨?_, rfl, hwithin.mpr ⟨htokens, hnew, hmany⟩⟩
    have hmax : c1.maxDepth = max (levelDepth levels) (levels.length + (objectDepth done + 1)) :=
      congrArg Books.maxDepth (hbooks.trans h.books)
    have hone : c1.rootValues = rootCount levels true :=
      congrArg Books.rootValues (hbooks.trans h.books)
    simp only [Core.books, booksAt, Cursor.frames, Cursor.tokens, Cursor.depth, Cursor.started, Slot.frame,
      List.map_cons, Frame.shape, hseen, hcount, hobject, hkey, seenNames_cons, hn, hmax, hone,
      List.length_cons,
      List.singleton_append, Books.mk.injEq, List.cons.injEq, true_and, and_true]
    exact ⟨hrest, by omega⟩

end InteractiveProxy.JsonShape
