import InteractiveProxy.JsonScalarSteps

/-! What the grammar derives within the limits is accepted: the scanner reads every value, by
recursion over its tree. A number or literal ends only with the byte behind it, so a value has been
read when the scanner settles behind it. -/
namespace InteractiveProxy.JsonShape

open GoText Utf8Runes JsonGrammar List Decoding Observer

variable {limits : Limits} {d d' : GoStr} {off : ℕ} {x : Char} {c1 : Core}

/-- The loop reads the bytes and goes on from `c'`. -/
def Reads (limits : Limits) (off : ℕ) (c : Core) (d : GoStr) (c' : Core) : Prop :=
  ∀ rest, scan .silent limits off c (d ++ rest) = scan .silent limits (off + d.length) c' rest

lemma Reads.nil (off : ℕ) (c : Core) : Reads limits off c [] c := fun _ => rfl

lemma Reads.trans {c c' c'' : Core} (h : Reads limits off c d c')
    (h' : Reads limits (off + d.length) c' d' c'') : Reads limits off c (d ++ d') c'' := by
  intro rest
  rw [append_assoc, h, h', length_append, Nat.add_assoc]

lemma Reads.of_next {c c' : Core} {b : UInt8}
    (h : ∀ tail, turn .silent limits off c b tail = .next c' 1 none) :
    Reads limits off c [b] c' := by
  intro rest
  rw [singleton_append, scan_cons silent_accepting, h rest]
  rfl

lemma Moves.reads {c c' : Core} {b : UInt8} (h : Moves limits c b c') (off : ℕ) :
    Reads limits off c [b] c' :=
  .of_next (h off)

lemma Reads.of_turn {c c' : Core} {b : UInt8}
    (hturn : ∀ tail, turn .silent limits off c b tail = turn .silent limits off c1 b tail)
    (h : Reads limits off c1 (b :: d) c') : Reads limits off c (b :: d) c' := by
  intro rest
  rw [← h rest, cons_append, scan_cons silent_accepting, scan_cons silent_accepting, hturn (d ++ rest)]

/-- From every core with `P` the loop reads the bytes and goes on from one with `Q`. -/
def ReadsTo (limits : Limits) (P : Core → Prop) (d : GoStr) (Q : Core → Prop) : Prop :=
  ∀ c off, P c → ∃ c', Reads limits off c d c' ∧ Q c'

lemma ReadsTo.seq {P Q R : Core → Prop} (h : ReadsTo limits P d Q) (h' : ReadsTo limits Q d' R) :
    ReadsTo limits P (d ++ d') R := by
  intro c off hc
  obtain ⟨c1, hreads1, hc1⟩ := h c off hc
  obtain ⟨c2, hreads2, hc2⟩ := h' c1 (off + d.length) hc1
  exact ⟨c2, hreads1.trans hreads2, hc2⟩

lemma utf8_unescaped (hx : Unescaped x) : (∃ b, String.utf8EncodeChar x = [b] ∧ isPlainAscii b) ∨
      ∃ b tail, String.utf8EncodeChar x = b :: tail ∧ ¬b < 0x80 ∧ 0x80 ≤ x.val.toNat := by
  by_cases hlow : x.val.toNat < 128
  · have hall : ∀ n : Fin 128, Unescaped (Char.ofNat n.val) → isPlainAscii (UInt8.ofNat n.val) := by
      decide +kernel
    have hself : Char.ofNat x.val.toNat = x := Char.ofNat_toNat x
    have hbyte := utf8_ascii ⟨x.val.toNat, hlow⟩
    rw [hself] at hbyte
    exact .inl ⟨_, hbyte, hall ⟨x.val.toNat, hlow⟩ (by rwa [hself])⟩
  · have hhigh : 0x80 ≤ x.val.toNat := not_lt.mp hlow
    obtain ⟨b, tail, hbytes, hb⟩ := utf8EncodeChar_lead hhigh
    exact .inr ⟨b, tail, hbytes, not_lt.mpr hb, hhigh⟩

lemma stringTurn_rune {b : UInt8} {tail : GoStr} {size : ℕ} (hb : ¬b < 0x80)
    (hscan : scanRune (b :: tail) = .good size) (off : ℕ) (c : Core) :
    stringTurn .silent limits off c b tail =
      Turn.of size (checkStringLimit limits (c.decoded ((b :: tail).take size))) := by
  have hslash : b ≠ 0x5C := by
    rintro rfl
    exact hb (by decide)
  have hquote : b ≠ 0x22 := by
    rintro rfl
    exact hb (by decide)
  have hcontrol : ¬b < 0x20 := fun hlt => hb (UInt8.lt_trans hlt (by decide))
  simp only [stringTurn, if_neg hslash, if_neg hquote, if_neg hcontrol, if_neg hb, hscan,
    addRun_accepting silent_accepting]

variable {key : Bool}

lemma reads_plain {out : GoStr} {c : Core} (hc : Collects key out c) (hescape : c.inEscape = false)
    (hx : Unescaped x)
    (hfits : ((out ++ String.utf8EncodeChar x).length : ℤ) ≤ stringLimit limits key) (off : ℕ) :
    Reads limits off c (String.utf8EncodeChar x) (c.decoded (String.utf8EncodeChar x)) := by
  have hfits' : (out.length : ℤ) ≤ stringLimit limits key := by
    simp only [length_append] at hfits
    omega
  intro rest
  rcases utf8_unescaped hx with ⟨b, hbyte, hb⟩ | ⟨b, tail, hbytes, hb, hhigh⟩
  · rw [hbyte] at hfits ⊢
    have hc' := hc.decoded [b]
    rw [singleton_append,
      scan_plain silent_accepting hc.state hescape off (b :: rest) (hc.check.mpr hfits'),
      scan_plain silent_accepting hc'.state (by simp [hescape]) (off + [b].length) rest
        (hc'.check.mpr hfits), Core.decoded_append]
    simp [hb, Nat.add_assoc, Nat.add_comm 1]
  · have hc' := hc.decoded (String.utf8EncodeChar x)
    have hscan := scanRune_encode hhigh rest
    rw [hbytes] at hscan hc' hfits ⊢
    rw [cons_append] at hscan ⊢
    rw [scan_cons silent_accepting, turn_inString hc.state hescape, stringTurn_rune hb hscan,
      ← cons_append, take_left, hc'.check.mpr hfits]
    simp [Turn.of]

lemma Decoding.out_le_flush (d : Decoding) : d.out.length ≤ d.flush.length := by
  simp

lemma Decoding.out_le_add (d : Decoding) (x : StrChar) : d.out.length ≤ (d.add x).out.length := by
  have hstart : ∀ out u, out.length ≤ (start out u).out.length := by
    intro out u
    unfold start
    split_ifs <;> simp
  cases x with
  | plain c h => exact d.out_le_flush.trans (by simp)
  | short e => exact d.out_le_flush.trans (by simp)
  | unit u =>
    simp only [add]
    split
    · exact hstart _ u
    · split_ifs
      · simp
      · exact d.out_le_flush.trans (hstart _ u)

lemma Decoding.out_le_foldl (d : Decoding) (xs : List StrChar) :
    d.out.length ≤ (xs.foldl add d).out.length := by
  induction xs generalizing d with
  | nil => exact le_rfl
  | cons x xs ih => exact (d.out_le_add x).trans (ih (d.add x))

lemma decoding_out_le (items xs : List StrChar) :
    (decoding items).out.length ≤ (decodedBytes (items ++ xs)).length := by
  rw [← decoding_flush, decoding_append]
  exact (out_le_foldl _ xs).trans (out_le_flush _)

def Inside (limits : Limits) (key : Bool) (books : Books) (items : List StrChar) (raw : GoStr)
    (c : Core) : Prop :=
  StrSim limits key items raw c ∧ c.books = books

variable {books : Books} {items : List StrChar} {raw : GoStr} {b : UInt8}

lemma reads_extend (hshape : RawEscape (raw ++ [b])) :
    ReadsTo limits (Inside limits key books items raw) [b]
    (Inside limits key books items (raw ++ [b])) := by
  rintro c off ⟨h, hbooks⟩
  obtain ⟨c', hmoves, hsim, hbooks'⟩ := h.extend hshape
  exact ⟨c', hmoves.reads off, hsim, hbooks'.trans hbooks⟩

lemma reads_complete {items' : List StrChar}
    (hfits : ((decoding items').out.length : ℤ) ≤ stringLimit limits key)
    (hcompletes : ∀ c, StrSim limits key items raw c → Completes limits key items' c b) :
    ReadsTo limits (Inside limits key books items raw) [b] (Inside limits key books items' []) := by
  rintro c off ⟨h, hbooks⟩
  have hnext := hcompletes c h
  unfold Completes at hnext
  rw [if_pos hfits] at hnext
  obtain ⟨c', hmoves, hsim, hbooks'⟩ := hnext
  exact ⟨c', hmoves.reads off, hsim, hbooks'.trans hbooks⟩

lemma reads_unescaped {hx : Unescaped x}
    (hfits : ((decoding (items ++ [.plain x hx])).out.length : ℤ) ≤ stringLimit limits key) :
    ReadsTo limits (Inside limits key books items []) (String.utf8EncodeChar x)
      (Inside limits key books (items ++ [.plain x hx]) []) := by
  rintro c off ⟨h, hbooks⟩
  have hd : decoding (items ++ [.plain x hx]) =
      ⟨(decoding items).flush ++ String.utf8EncodeChar x, none⟩ := by
    rw [decoding_snoc]
    rfl
  rw [hd] at hfits
  have hflush : ((decoding items).flush.length : ℤ) ≤ stringLimit limits key := by
    simp only [length_append] at hfits
    omega
  obtain ⟨b, tail, hbytes, hb⟩ : ∃ b tail, String.utf8EncodeChar x = b :: tail ∧ b ≠ 0x5C := by
    rcases utf8_unescaped hx with ⟨b, hbyte, hb⟩ | ⟨b, tail, hbytes, hb, -⟩
    · refine ⟨b, [], hbyte, ?_⟩
      rintro rfl
      exact absurd hb (by decide)
    · refine ⟨b, tail, hbytes, ?_⟩
      rintro rfl
      exact hb (by decide)
  obtain ⟨c1, hc, hescape, hbooks1, hif⟩ := h.settle hb
  rw [if_pos hflush] at hif
  have hreads := reads_plain hc hescape hx hfits off
  refine ⟨_, ?_, .of_closed hd (hc.decoded _) hfits (by simp [hescape]),
    by rw [Core.decoded_books, hbooks1, hbooks]⟩
  rw [hbytes] at hreads ⊢
  exact .of_turn (fun tail => by rw [hif off tail, turn_inString hc.state hescape]) hreads

lemma reads_item (x : StrChar)
    (hfits : ((decoding (items ++ [x])).out.length : ℤ) ≤ stringLimit limits key) :
    ReadsTo limits (Inside limits key books items []) (utf8 x.chars)
    (Inside limits key books (items ++ [x]) []) := by
  cases x with
  | plain x hx =>
    simpa using reads_unescaped hfits
  | short e =>
    obtain ⟨b, y, hletter, hchar, hsimple, hb⟩ := simpleEscape_letter e
    rw [utf8_short hletter]
    exact (reads_extend .slash).seq (reads_complete hfits fun c h => h.short hb hsimple hchar)
  | unit u =>
    obtain ⟨b1, b2, b3, b4, hbytes, -⟩ := parseHex_unit u
    rw [utf8_unit, hbytes]
    have hend : ReadsTo limits (Inside limits key books items [0x5C, 0x75, b1, b2, b3]) [b4] _ :=
      reads_complete hfits fun c
        (h : StrSim limits key items (0x5C :: 0x75 :: ([b1, b2, b3] : GoStr)) c) => h.unit hbytes
    have hdigits : ∀ ds : GoStr, ds.length < 4 → RawEscape (0x5C :: 0x75 :: ds) :=
      fun ds h => .unit ds h
    have hslash : RawEscape ([] ++ [0x5C]) := .slash
    exact (reads_extend hslash).seq ((reads_extend (hdigits [] (by simp))).seq
      ((reads_extend (hdigits [b1] (by simp))).seq ((reads_extend (hdigits [b1, b2] (by simp))).seq
        ((reads_extend (hdigits [b1, b2, b3] (by simp))).seq hend))))

lemma reads_items (xs : List StrChar)
    (hfits : ((decodedBytes (items ++ xs)).length : ℤ) ≤ stringLimit limits key) :
    ReadsTo limits (Inside limits key books items []) (utf8 (itemChars xs))
      (Inside limits key books (items ++ xs) []) := by
  induction xs generalizing items with
  | nil =>
    rw [append_nil]
    exact fun c off h => ⟨c, .nil off c, h⟩
  | cons x xs ih =>
    have hcons : items ++ x :: xs = items ++ [x] ++ xs := by simp
    have hone : ((decoding (items ++ [x])).out.length : ℤ) ≤ stringLimit limits key := by
      refine le_trans ?_ hfits
      rw [hcons]
      exact_mod_cast decoding_out_le (items ++ [x]) xs
    have hchars : itemChars (x :: xs) = x.chars ++ itemChars xs := rfl
    rw [hcons] at hfits ⊢
    rw [hchars, utf8_append]
    exact (reads_item x hone).seq (ih hfits)

lemma StrSim.reads_string {c : Core} (h : StrSim limits key [] [] c) (items : List StrChar)
    (hfits : ((decodedBytes items).length : ℤ) ≤ stringLimit limits key) (off : ℕ) :
    ∃ c1, Collects key (decodedBytes items) c1 ∧ c1.books = c.books ∧
      ∀ c', endString .silent limits (off + (utf8 (itemChars items)).length + 1) c1 = .ok c' →
        Reads limits off c (utf8 (itemChars items ++ ['"'])) c' := by
  obtain ⟨c0, hreads, hsim, hbooks0⟩ := reads_items items (by simpa using hfits) c off ⟨h, rfl⟩
  rw [nil_append] at hsim
  obtain ⟨c1, hc, hescape, hbooks1, hif⟩ := hsim.settle (b := 0x22) (by decide)
  rw [decoding_flush] at hc hif
  rw [if_pos hfits] at hif
  refine ⟨c1, hc, hbooks1.trans hbooks0, fun c' hend => ?_⟩
  rw [utf8_append, utf8_cons, encode_quote, utf8_nil, append_nil]
  refine hreads.trans fun rest => ?_
  rw [singleton_append, scan_cons silent_accepting, hif]
  simp only [stringTurn, hend, Turn.of]
  rfl

variable {levels : List Level} {cur : Cursor} {c c' : Core} {b : UInt8}

lemma Within.mono {levels' : List Level} {cur' : Cursor} (h : Within limits levels' cur')
    (htokens : levelTokens levels + cur.tokens ≤ levelTokens levels' + cur'.tokens)
    (hdepth : max (levelDepth levels) (levels.length + cur.depth) ≤
      max (levelDepth levels') (levels'.length + cur'.depth))
    (hlevels : LevelsFit limits cur.started levels) (hcursor : cur.Fits limits) :
    Within limits levels cur where
  tokens := le_trans (by exact_mod_cast htokens) h.tokens
  depth := le_trans (by exact_mod_cast hdepth) h.depth
  levels := hlevels
  cursor := hcursor

lemma LevelsFit.unstarted (h : LevelsFit limits true levels) : LevelsFit limits false levels := by
  cases levels with
  | nil => trivial
  | cons l ls =>
    obtain ⟨pre, done | ⟨done, name⟩⟩ := l
    · obtain ⟨⟨hdone, hcount⟩, hls⟩ := h
      refine ⟨⟨hdone, ?_⟩, hls⟩
      simp only [Bool.toNat_false] at hcount ⊢
      omega
    · exact h

variable {pre post : List Blank}

/-- In front of a value. -/
lemma Within.before {pre' : List Blank} {v : Value} (h : Within limits levels (.after pre v post)) :
    Within limits levels (.value pre') := by
  refine h.mono ?_ ?_ h.levels.unstarted trivial
  · simp
  · simp
    omega

variable {lpre : List Blank} {v : Value}

lemma Within.open_array (hpos : limits.Positive)
    (h : Within limits levels (.after lpre v [])) (htokens : 1 ≤ v.tokens) (hdepth : 1 ≤ v.depth) :
    Within limits (⟨lpre, .array none⟩ :: levels) (.value []) := by
  have helems := hpos.elems
  refine h.mono ?_ ?_ (LevelsFit.cons ⟨by simp [ArrayFits], ?_⟩ h.levels) trivial
  · simpa using htokens
  · simp
    omega
  · simp only [arrayLength, Option.elim_none, Bool.toNat_false]
    omega

lemma Within.open_object (hpos : limits.Positive)
    (h : Within limits levels (.after pre v [])) (htokens : 1 ≤ v.tokens) (hdepth : 1 ≤ v.depth) :
    Within limits levels (.name pre none []) := by
  have hkeys := hpos.keys
  refine h.mono ?_ ?_ h.levels ⟨by simp [ObjectFits], ?_, ?_⟩
  · simpa using htokens
  · simp
    omega
  · simp only [objectNames, Option.elim_none, length_nil]
    omega
  · simp

lemma Within.element {done : Option Elements}
    (h : Within limits levels (.after lpre (.array (addElement done (.mk pre v post))) [])) :
    Within limits (⟨lpre, .array done⟩ :: levels) (.after pre v post) := by
  obtain ⟨hcount, hfits⟩ := h.cursor
  rw [addElement_length] at hcount
  obtain ⟨hdone, hv⟩ := (addElement_fits _ _).mp hfits
  refine h.mono ?_ ?_ ⟨⟨hdone, hcount⟩, LevelsFit.all h.levels⟩ hv
  · simp
    omega
  · simp
    omega

variable {e : Element} {es : Elements}

lemma Within.init_array (h : Within limits levels (.after lpre (.array (.snoc es e)) [])) :
    Within limits levels (.after lpre (.array es) []) := by
  obtain ⟨hcount, hes, -⟩ := h.cursor
  simp only [Elements.length] at hcount
  refine h.mono ?_ ?_ h.levels ⟨by omega, hes⟩
  · simp
  · simp
    omega

variable {done : Option Members} {ms : Members} {ws : List Blank}

/-- Behind the last member of an object. -/
lemma Within.member {name : Name}
    (h : Within limits levels (.after lpre (.object (addMember done name (.mk pre v post))) [])) :
    Within limits (⟨lpre, .member done name⟩ :: levels) (.after pre v post) := by
  obtain ⟨hnames, hfits⟩ := h.cursor
  rw [addMember_names] at hnames
  obtain ⟨hdone, hname, hv⟩ := (addMember_fits _ _ _).mp hfits
  refine h.mono ?_ ?_ ⟨⟨hdone, hname, hnames⟩, LevelsFit.all h.levels⟩ hv
  · simp
    omega
  · simp
    omega

lemma Within.init_object {name : Name}
    (h : Within limits levels (.after lpre (.object (.snoc ms name e)) [])) :
    Within limits levels (.after lpre (.object ms) []) := by
  obtain ⟨⟨hcount, hnodup⟩, hms, -⟩ := h.cursor
  simp only [Members.names, length_cons] at hcount hnodup
  refine h.mono ?_ ?_ h.levels ⟨⟨by omega, fun hreject => (nodup_cons.mp (hnodup hreject)).2⟩, hms⟩
  · simp
  · simp
    omega

lemma Within.colon {ws' : List Blank} {name : Name}
    (h : Within limits (⟨lpre, .member done name⟩ :: levels) (.value pre)) :
    Within limits levels (.colon lpre done ⟨ws, name.items, ws'⟩) := by
  refine h.mono ?_ ?_ h.levels.tail h.levels.1
  · simp
  · simp
    omega

/-- In front of a member name. -/
lemma Within.name {name : Name} (h : Within limits levels (.colon pre done name)) :
    Within limits levels (.name pre done ws) := by
  obtain ⟨hdone, -, hcount, hnodup⟩ := h.cursor
  rw [length_cons] at hcount
  refine h.mono ?_ le_rfl h.levels ⟨hdone, by omega, fun hreject => (nodup_cons.mp (hnodup hreject)).2⟩
  simp

variable {P Q : Core → Prop} {levels' : List Level} {cur' : Cursor}

lemma reads_step (h : ∀ c, P c → Steps limits levels' cur' c b) (hw : Within limits levels' cur') :
    ReadsTo limits P [b] (Sim limits levels' cur') := by
  intro c off hc
  obtain ⟨c', hmoves, hsim⟩ := (h c hc).moves hw off
  exact ⟨c', .of_next hmoves, hsim⟩

/-- A delimiter is read as if the scanner had settled before. -/
lemma Settles.reads (h : Settles limits c c1) (hb : isDelimiterOrWhitespace b)
    (hreads : Reads limits off c1 (b :: d) c') : Reads limits off c (b :: d) c' :=
  .of_turn (fun tail => h.atByte b hb off tail) hreads

lemma utf8_blanks_cons (w : Blank) (ws : List Blank) :
    utf8 (blankChars (w :: ws)) = String.utf8EncodeChar w.char ++ utf8 (blankChars ws) := rfl

lemma Core.Between.reads_blanks (hc : c.Between) (ws : List Blank) (off : ℕ) :
    Reads limits off c (utf8 (blankChars ws)) c := by
  induction ws generalizing off with
  | nil => exact .nil off c
  | cons w ws ih =>
    obtain ⟨b, hchar, hb⟩ := isWhitespace_blank w
    rw [utf8_blanks_cons, hchar]
    exact (Reads.of_next fun tail => turn_blank hc hb off tail).trans (ih _)

lemma reads_blanks (ws : List Blank) (hbetween : ∀ c, P c → c.Between) (h : ∀ c, P c → Q c) :
    ReadsTo limits P (utf8 (blankChars ws)) Q :=
  fun c off hc => ⟨c, (hbetween c hc).reads_blanks ws off, h c hc⟩

lemma Settles.reads_blanks (h : Settles limits c c1) (hc : c1.Between) (ws : List Blank) (off : ℕ) :
    ∃ c', Reads limits off c (utf8 (blankChars ws)) c' ∧ Settles limits c' c1 := by
  cases ws with
  | nil => exact ⟨c, .nil off c, h⟩
  | cons w ws =>
    obtain ⟨b, hchar, hb⟩ := isWhitespace_blank w
    have hreads : Reads limits off c1 (utf8 (blankChars (w :: ws))) c1 :=
      hc.reads_blanks (w :: ws) off
    rw [utf8_blanks_cons, hchar] at hreads ⊢
    exact ⟨c1, h.reads (by simp [isDelimiterOrWhitespace, hb]) hreads, .refl hc⟩

def behind : Element → Cursor
  | .mk pre v post => .after pre v post

def Ends (limits : Limits) (levels : List Level) (e : Element) (c : Core) : Prop :=
  ∃ c₁, Settles limits c c₁ ∧ Sim limits levels (behind e) c₁

lemma Ends.of_sim (h : Sim limits levels (.after pre v post) c) :
    Ends limits levels (.mk pre v post) c := ⟨c, .refl h.between_after, h⟩

/-- A delimiter behind the element. -/
lemma Ends.reads (hb : isDelimiterOrWhitespace b)
    (hsteps : ∀ c, Sim limits levels (.after pre v post) c → Steps limits levels' cur' c b)
    (hw : Within limits levels' cur') :
    ReadsTo limits (Ends limits levels (.mk pre v post)) [b] (Sim limits levels' cur') := by
  rintro c off ⟨c1, hsettles, hsim⟩
  obtain ⟨c', hreads, hsim'⟩ := reads_step hsteps hw c1 off hsim
  exact ⟨c', hsettles.reads hb hreads, hsim'⟩

lemma ReadsTo.ends (h : ReadsTo limits P d (Sim limits levels (.after pre v post))) :
    ReadsTo limits P d (Ends limits levels (.mk pre v post)) := by
  intro c off hc
  obtain ⟨c', hreads, hsim⟩ := h c off hc
  exact ⟨c', hreads, .of_sim hsim⟩

def ValueReads (limits : Limits) (v : Value) : Prop :=
  ∀ (levels : List Level) (pre : List Blank) (c : Core) (off : ℕ),
    Sim limits levels (.value pre) c → Within limits levels (.after pre v []) →
    ∃ c', Reads limits off c (utf8 v.chars) c' ∧ Ends limits levels (.mk pre v []) c'

def ElementReads (limits : Limits) (e : Element) : Prop :=
  ∀ (levels : List Level) (c : Core)
    (off : ℕ), Sim limits levels (.value []) c → Within limits levels (behind e) →
    ∃ c', Reads limits off c (utf8 e.chars) c' ∧ Ends limits levels e c'

def ElementsRead (limits : Limits) (es : Elements) : Prop :=
  ∀ (levels : List Level) (lpre : List Blank) (c : Core) (off : ℕ),
    Sim limits (⟨lpre, .array none⟩ :: levels)
    (.value []) c → Within limits levels (.after lpre (.array es) []) →
    ∃ done e c', es = addElement done e ∧ Reads limits off c (utf8 es.chars) c' ∧
      Ends limits (⟨lpre, .array done⟩ :: levels) e c'

def MembersRead (limits : Limits) (ms : Members) : Prop :=
  ∀ (levels : List Level) (lpre : List Blank) (c : Core) (off : ℕ),
    Sim limits levels (.name lpre none []) c → Within limits levels (.after lpre (.object ms) []) →
    ∃ done name e c', ms = addMember done name e ∧ Reads limits off c (utf8 ms.chars) c' ∧
      Ends limits (⟨lpre, .member done name⟩ :: levels) e c'

lemma Sim.reads_literal {l : Literal} {n : ℕ} (h : Sim limits levels (.literal pre l n) c)
    (off : ℕ) : ∃ c', Reads limits off c ((utf8 l.chars).drop n) c' ∧
      Sim limits levels (.literal pre l (utf8 l.chars).length) c' := by
  have hle : n ≤ (utf8 l.chars).length := h.holds.2.2.2
  induction hk : (utf8 l.chars).length - n generalizing n c off with
  | zero =>
    obtain rfl : n = (utf8 l.chars).length := by omega
    exact ⟨c, by simpa using Reads.nil off c, h⟩
  | succ k ih =>
    have hlt : n < (utf8 l.chars).length := by omega
    have hb : (utf8 l.chars)[n]? = some (utf8 l.chars)[n] := getElem?_eq_getElem hlt
    have hnext : Within limits levels (.literal pre l (n + 1)) :=
      ⟨h.within.tokens, h.within.depth, h.within.levels, trivial⟩
    obtain ⟨c1, hreads1, hsim1⟩ := reads_step (fun _ h => h.literal_next hb) hnext c off h
    obtain ⟨c2, hreads2, hsim2⟩ := ih hsim1 (off + 1) hlt (by omega)
    refine ⟨c2, ?_, hsim2⟩
    rw [drop_eq_getElem_cons hlt]
    exact hreads1.trans hreads2

lemma Within.scalar (h : Within limits levels (.after pre v post))
    (hcur : cur.Scalar) (hfits : cur.Fits limits) : Within limits levels cur := by
  refine h.mono ?_ ?_ (hcur.started ▸ h.levels) hfits
  · rw [hcur.tokens]
    simp
  · rw [hcur.depth]
    omega

lemma literal_reads (l : Literal) : ValueReads limits (.literal l) := by
  intro levels pre c off h hw
  obtain ⟨c1, hreads1, hsim1⟩ := reads_step (fun _ h => h.open_literal l)
    (hw.scalar (.literal _ _ _) trivial) c off h
  obtain ⟨c2, hreads2, hsim2⟩ := hsim1.reads_literal (off + 1)
  obtain ⟨c3, hsettles, hsim3⟩ := hsim2.held_literal.settles hw
  refine ⟨c2, ?_, c3, hsettles, hsim3⟩
  have hbytes : utf8 l.chars = literalByte l :: (utf8 l.chars).drop 1 := by cases l <;> rfl
  have hreads := hreads1.trans hreads2
  rwa [singleton_append, ← hbytes] at hreads

lemma Sim.reads_digits {t : List Char} (h : Sim limits levels (.number pre t) c) {rest : GoStr}
    {st : NumState} (hsteps : numSteps c.num rest = some st)
    (hfits : (((utf8 t).length + rest.length : ℕ) : ℤ) ≤ limits.maxNumberBytes) (off : ℕ) :
    ∃ c' t', Reads limits off c rest c' ∧ Sim limits levels (.number pre t') c' ∧ c'.num = st := by
  induction rest generalizing c t off with
  | nil => exact ⟨c, t, .nil off c, h, Option.some.inj hsteps⟩
  | cons b rest ih =>
    obtain ⟨-, hread, hrun, -⟩ := h.holds
    simp only [numSteps] at hsteps
    cases hmove : numMove c.num b with
    | bad | stop => simp [hmove] at hsteps
    | next st1 =>
      simp only [hmove] at hsteps
      obtain ⟨x, hx, hread'⟩ := hread.step hmove
      have hlen : (utf8 (t ++ [x])).length = (utf8 t).length + 1 := by simp [hx]
      have hwithin : Within limits levels (.number pre (t ++ [x])) := by
        refine ⟨h.within.tokens, h.within.depth, h.within.levels, ?_⟩
        simp only [Cursor.Fits, length_cons] at hfits ⊢
        omega
      obtain ⟨c1, hreads1, hsim1⟩ :=
        reads_step (fun _ hc => hc ▸ h.number_next hmove hx hread') hwithin c off rfl
      -- the state of the number is the one that its bytes lead to
      have hnum : c1.num = st1 := by
        have hrun1 := hsim1.holds.2.2.1
        rw [utf8_append, numRun_append hrun, utf8_cons, hx] at hrun1
        simpa [numSteps, hmove] using hrun1.symm
      have hfits1 : (((utf8 (t ++ [x])).length + rest.length : ℕ) : ℤ) ≤ limits.maxNumberBytes := by
        rw [length_cons] at hfits
        omega
      obtain ⟨c2, t2, hreads2, hsim2, hst⟩ := ih hsim1 (by rwa [hnum]) hfits1 (off + 1)
      exact ⟨c2, t2, hreads1.trans hreads2, hsim2, hst⟩

lemma number_reads (hpos : limits.Positive) (n : Number) : ValueReads limits (.number n) := by
  intro levels pre c off h hw
  have hfits : ((utf8 n.chars).length : ℤ) ≤ limits.maxNumberBytes := hw.cursor
  obtain ⟨st, hrun, hcomplete⟩ := numRun_number n
  change ∃ c', Reads limits off c (utf8 n.chars) c' ∧ _
  cases hbytes : utf8 n.chars with
  | nil => simp [hbytes, numRun] at hrun
  | cons b rest =>
    rw [hbytes] at hrun hfits
    obtain ⟨st0, hstart, hsteps⟩ := Option.bind_eq_some_iff.mp hrun
    obtain ⟨x, hx, hread⟩ := NumPrefix.start hstart
    have hlen : (utf8 [x]).length = 1 := by simp [hx]
    have hone : ((utf8 [x]).length : ℤ) ≤ limits.maxNumberBytes := by
      simp only [length_cons] at hfits
      omega
    obtain ⟨c1, hreads1, hsim1⟩ := reads_step (fun _ h => h.open_number hpos hstart hx hread)
      (hw.scalar (.number _ _) hone) c off h
    have hnum : c1.num = st0 := by
      have hrun1 := hsim1.holds.2.2.1
      simpa [hx, numRun, numSteps, hstart] using hrun1.symm
    obtain ⟨c2, t, hreads2, hsim2, hst⟩ := hsim1.reads_digits (by rwa [hnum]) (by
      rw [length_cons] at hfits
      omega) (off + 1)
    obtain ⟨c3, hsettles, hsim3⟩ := (hsim2.held_number (by rwa [hst]) hw.cursor).settles hw
    exact ⟨c2, hreads1.trans hreads2, c3, hsettles, hsim3⟩

lemma string_reads (hpos : limits.Positive) (items : List StrChar) :
    ValueReads limits (.string items) := by
  intro levels pre c off h hw
  obtain ⟨c1, hreads1, hsim1⟩ := reads_step (fun _ h => h.open_string hpos)
    (hw.scalar (.text _ _ _) trivial) c off h
  have hstr : StrSim limits false [] [] c1 := hsim1.holds
  obtain ⟨c2, hcollects, hbooks, hend⟩ := hstr.reads_string items hw.cursor (off + 1)
  obtain ⟨hends, hsim⟩ := hsim1.string_end hcollects hbooks hw.cursor _
  obtain ⟨c3, hok⟩ := hends hw
  exact ⟨c3, hreads1.trans (hend c3 hok), .of_sim (hsim c3 hok)⟩

lemma Within.blanks (h : Within limits levels (.value [])) : Within limits levels (.value ws) :=
  ⟨h.tokens, h.depth, h.levels, trivial⟩

lemma name_blanks (ws : List Blank) :
    ReadsTo limits (Sim limits levels (.name lpre done [])) (utf8 (blankChars ws))
      (Sim limits levels (.name lpre done ws)) :=
  reads_blanks ws (fun _ h => h.between (w := .space) rfl) fun _ h =>
    ⟨h.books, h.holds, h.within.tokens, h.within.depth, h.within.levels, h.within.cursor⟩

lemma element_reads (hv : ValueReads limits v) : ElementReads limits (.mk pre v post) := by
  intro levels c off h hw
  have hw' : Within limits levels (.after pre v []) := ⟨hw.tokens, hw.depth, hw.levels, hw.cursor⟩
  have hpre : ReadsTo limits (Sim limits levels (.value [])) (utf8 (blankChars pre))
      (Sim limits levels (.value pre)) :=
    reads_blanks pre (fun _ h => between_valueState h.holds)
      fun _ h => ⟨h.books, h.holds, hw.before⟩
  have hpost : ReadsTo limits (Ends limits levels (.mk pre v [])) (utf8 (blankChars post))
      (Ends limits levels (.mk pre v post)) := by
    rintro c off ⟨c1, hsettles, hsim⟩
    obtain ⟨c', hreads, hsettles'⟩ := hsettles.reads_blanks hsim.between_after post off
    exact ⟨c', hreads, c1, hsettles', hsim.books, hsim.holds, hw⟩
  rw [Element.chars, utf8_append, utf8_append]
  exact (hpre.seq fun c off h => hv levels pre c off h hw').seq hpost c off h

lemma emptyArray_reads (hpos : limits.Positive) (ws : List Blank) :
    ValueReads limits (.emptyArray ws) := by
  intro levels pre c off h hw
  have hopen := hw.open_array hpos (by simp) (by simp)
  have hblanks : ReadsTo limits (Sim limits (⟨pre, .array none⟩ :: levels) (.value []))
      (utf8 (blankChars ws)) (Sim limits (⟨pre, .array none⟩ :: levels) (.value ws)) :=
    reads_blanks ws (fun _ h => between_valueState h.holds)
      fun _ h => ⟨h.books, h.holds, h.within.blanks⟩
  have hbytes : utf8 (Value.emptyArray ws).chars = [0x5B] ++ utf8 (blankChars ws) ++ [0x5D] := by
    simp
  rw [hbytes]
  exact (((reads_step (fun _ h => h.open_array hpos) hopen).seq hblanks).seq
    (reads_step (fun _ h => h.close_empty_array) hw)).ends c off h

lemma emptyObject_reads (hpos : limits.Positive) (ws : List Blank) :
    ValueReads limits (.emptyObject ws) := by
  intro levels pre c off h hw
  have hopen := hw.open_object hpos (by simp) (by simp)
  have hbytes : utf8 (Value.emptyObject ws).chars = [0x7B] ++ utf8 (blankChars ws) ++ [0x7D] := by
    simp
  rw [hbytes]
  exact (((reads_step (fun _ h => h.open_object hpos) hopen).seq (name_blanks ws)).seq
    (reads_step (fun _ h => h.close_empty_object) hw)).ends c off h

lemma one_reads (he : ElementReads limits e) : ElementsRead limits (.one e) := by
  intro levels lpre c off h hw
  obtain ⟨pre, v, post⟩ := e
  have hw' : Within limits (⟨lpre, .array none⟩ :: levels) (.after pre v post) := Within.element hw
  obtain ⟨c1, hreads, hends⟩ := he _ c off h hw'
  exact ⟨none, .mk pre v post, c1, rfl, hreads, hends⟩

lemma snoc_reads (hes : ElementsRead limits es) (he : ElementReads limits e) :
    ElementsRead limits (.snoc es e) := by
  intro levels lpre c off h hw
  obtain ⟨pre, v, post⟩ := e
  have hw' : Within limits (⟨lpre, .array (some es)⟩ :: levels) (.after pre v post) :=
    Within.element hw
  obtain ⟨done, ⟨pre1, v1, post1⟩, c1, rfl, hreads1, hends1⟩ :=
    hes levels lpre c off h hw.init_array
  have hcomma := Ends.reads (by decide) (fun _ h => h.comma_array) hw'.before
  obtain ⟨c2, hreads2, hends2⟩ := hcomma.seq (fun c off h => he _ c off h hw') c1 _ hends1
  refine ⟨some _, .mk pre v post, c2, rfl, ?_, hends2⟩
  rw [Elements.chars, utf8_append]
  exact hreads1.trans hreads2

section

variable (hpos : limits.Positive)
include hpos

lemma array_reads (hes : ElementsRead limits es) : ValueReads limits (.array es) := by
  intro levels pre c off h hw
  have hopen := hw.open_array hpos (by simp) (by simp)
  obtain ⟨c1, hreads1, hsim1⟩ := reads_step (fun _ h => h.open_array hpos) hopen c off h
  obtain ⟨done, ⟨pre1, v1, post1⟩, c2, rfl, hreads2, hends2⟩ := hes levels pre c1 (off + 1) hsim1 hw
  obtain ⟨c3, hreads3, hends3⟩ :=
    (Ends.reads (by decide) (fun _ h => h.close_array) hw).ends c2 _ hends2
  refine ⟨c3, ?_, hends3⟩
  rw [Value.chars, utf8_cons, utf8_append]
  exact hreads1.trans (hreads2.trans hreads3)

lemma Sim.reads_name (name : Name)
    (hw : Within limits (⟨lpre, .member done name⟩ :: levels) (.value [])) :
    ReadsTo limits (Sim limits levels (.name lpre done [])) (utf8 (name.chars ++ [':']))
      (Sim limits (⟨lpre, .member done name⟩ :: levels) (.value [])) := by
  obtain ⟨ws, items, ws'⟩ := name
  have hcolon : Within limits levels (.colon lpre done ⟨ws, items, []⟩) := hw.colon
  have hname : Within limits levels (.name lpre done ws) := hcolon.name
  have hfits : ((decodedBytes items).length : ℤ) ≤ stringLimit limits true := hcolon.cursor.2.1
  have hopen : ReadsTo limits (Sim limits levels (.name lpre done ws)) [0x22]
      (Sim limits levels (.key lpre done ws [] [])) :=
    reads_step (fun _ h => h.open_key hpos) ⟨hname.tokens, hname.depth, hname.levels, hname.cursor⟩
  have hstring : ReadsTo limits (Sim limits levels (.key lpre done ws [] []))
      (utf8 (itemChars items ++ ['"']))
      (Sim limits levels (.colon lpre done ⟨ws, items, []⟩)) := by
    intro c off h
    have hstr : StrSim limits true [] [] c := h.holds
    obtain ⟨c1, hcollects, hbooks, hend⟩ := hstr.reads_string items hfits off
    obtain ⟨hends, hsim⟩ := h.key_end hcollects hbooks hfits _
    obtain ⟨c2, hok⟩ := hends hcolon
    exact ⟨c2, hend c2 hok, hsim c2 hok⟩
  have hblanks : ReadsTo limits (Sim limits levels (.colon lpre done ⟨ws, items, []⟩))
      (utf8 (blankChars ws')) (Sim limits levels (.colon lpre done ⟨ws, items, ws'⟩)) :=
    reads_blanks ws' (fun _ h => h.between (w := .space) rfl) fun _ h =>
      ⟨h.books, h.holds, hcolon.tokens, hcolon.depth, hcolon.levels, hcolon.cursor⟩
  have hbytes : utf8 (Name.chars ⟨ws, items, ws'⟩ ++ [':']) =
      utf8 (blankChars ws) ++ [0x22] ++
      utf8 (itemChars items ++ ['"']) ++ utf8 (blankChars ws') ++ [0x3A] := by
    simp [Name.chars]
  rw [hbytes]
  exact ((((name_blanks ws).seq hopen).seq hstring).seq hblanks).seq (reads_step (fun _ h => h.colon) hw)

lemma reads_member (name : Name) (he : ElementReads limits e)
    (hw : Within limits levels (.after lpre (.object (addMember done name e)) [])) :
    ReadsTo limits (Sim limits levels (.name lpre done [])) (utf8 (name.chars ++ ':' :: e.chars))
      (Ends limits (⟨lpre, .member done name⟩ :: levels) e) := by
  obtain ⟨pre, v, post⟩ := e
  rw [append_cons, utf8_append]
  exact (Sim.reads_name hpos name hw.member.before).seq fun c off h => he _ c off h hw.member

lemma one_member_reads {name : Name} (he : ElementReads limits e) :
    MembersRead limits (.one name e) := by
  intro levels lpre c off h hw
  obtain ⟨c1, hreads, hends⟩ := reads_member hpos name he hw c off h
  exact ⟨none, name, e, c1, rfl, hreads, hends⟩

lemma snoc_member_reads {name : Name} (hms : MembersRead limits ms) (he : ElementReads limits e) :
    MembersRead limits (.snoc ms name e) := by
  intro levels lpre c off h hw
  have hname : Within limits levels (.name lpre (some ms) []) := by
    obtain ⟨pre, v, post⟩ := e
    have hlast : Within limits (⟨lpre, .member (some ms) name⟩ :: levels) (.after pre v post) :=
      Within.member hw
    have hbefore : Within limits (⟨lpre, .member (some ms) name⟩ :: levels) (.value []) :=
      hlast.before
    have hcolon : Within limits levels (.colon lpre (some ms) ⟨[], name.items, []⟩) := hbefore.colon
    exact hcolon.name
  obtain ⟨done, name1, ⟨pre1, v1, post1⟩, c1, rfl, hreads1, hends1⟩ :=
    hms levels lpre c off h hw.init_object
  have hcomma := Ends.reads (by decide) (fun _ h => h.comma_object) hname
  obtain ⟨c2, hreads2, hends2⟩ := hcomma.seq (reads_member hpos name he hw) c1 _ hends1
  refine ⟨some _, name, e, c2, rfl, ?_, hends2⟩
  rw [Members.chars, utf8_append]
  exact hreads1.trans hreads2

lemma object_reads (hms : MembersRead limits ms) : ValueReads limits (.object ms) := by
  intro levels pre c off h hw
  have hopen := hw.open_object hpos (by simp) (by simp)
  obtain ⟨c1, hreads1, hsim1⟩ := reads_step (fun _ h => h.open_object hpos) hopen c off h
  obtain ⟨done, name, ⟨pre1, v1, post1⟩, c2, rfl, hreads2, hends2⟩ :=
    hms levels pre c1 (off + 1) hsim1 hw
  obtain ⟨c3, hreads3, hends3⟩ :=
    (Ends.reads (by decide) (fun _ h => h.close_object) hw).ends c2 _ hends2
  refine ⟨c3, ?_, hends3⟩
  rw [Value.chars, utf8_cons, utf8_append]
  exact hreads1.trans (hreads2.trans hreads3)

end

mutual

lemma value_reads (hpos : limits.Positive) : (v : Value) → ValueReads limits v
  | .literal l => literal_reads l
  | .number n => number_reads hpos n
  | .string items => string_reads hpos items
  | .emptyArray ws => emptyArray_reads hpos ws
  | .array es => array_reads hpos (elements_read hpos es)
  | .emptyObject ws => emptyObject_reads hpos ws
  | .object ms => object_reads hpos (members_read hpos ms)

lemma tree_reads (hpos : limits.Positive) : (e : Element) → ElementReads limits e
  | .mk _ v _ => element_reads (value_reads hpos v)

lemma elements_read (hpos : limits.Positive) : (es : Elements) → ElementsRead limits es
  | .one e => one_reads (tree_reads hpos e)
  | .snoc es e => snoc_reads (elements_read hpos es) (tree_reads hpos e)

lemma members_read (hpos : limits.Positive) : (ms : Members) → MembersRead limits ms
  | .one _ e => one_member_reads hpos (tree_reads hpos e)
  | .snoc ms _ e => snoc_member_reads hpos (members_read hpos ms) (tree_reads hpos e)

end

end InteractiveProxy.JsonShape
