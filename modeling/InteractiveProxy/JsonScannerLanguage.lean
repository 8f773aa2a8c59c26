import InteractiveProxy.JsonScannerCompleteness

/-! The language of the scanner: one `Feed` followed by `Finish` accepts exactly the JSON texts that
keep the limits, and reports the counts of the document. -/
namespace InteractiveProxy.JsonShape

open GoText JsonGrammar Cursor

variable {limits : Limits} {levels : List Level} {cur : Cursor} {c c' : Core} {b : UInt8}
  {t : Element}

/-- The scanner has gone from one position over the bytes `p` to another. -/
def Goes (limits : Limits) (levels : List Level) (cur : Cursor) (p : GoStr) (c' : Core) : Prop :=
  ∃ levels' cur', Sim limits levels' cur' c' ∧
    positionBytes levels' cur' = positionBytes levels cur ++ p

section
variable {off size : ℕ} {tail : GoStr} {stored : Option ScanError}

lemma Steps.goes {levels' : List Level} {cur' : Cursor} (h : Steps limits levels' cur' c b)
    (hbytes : positionBytes levels' cur' = positionBytes levels cur ++ [b])
    (hturn : turn .silent limits off c b tail = .next c' size stored) :
    Goes limits levels cur ((b :: tail).take size) c' := by
  by_cases hw : Within limits levels' cur'
  · obtain ⟨c1, hmoves, hsim⟩ := h.moves hw off
    rw [hmoves tail] at hturn
    cases hturn
    exact ⟨levels', cur', hsim, hbytes⟩
  · exact absurd hturn (h.refuses hw _ _ _ _ _)

lemma turn_between_cases (hc : c.Between)
    (hturn : turn .silent limits off c b tail = .next c' size stored) :
    (isWhitespace b ∧ c' = c ∧ size = 1) ∨
      (TokenByte c b ∧ tokenTurn .silent limits off c b tail = .next c' size stored) := by
  rw [turn_between hc, betweenTurn] at hturn
  by_cases hascii : 0x80 ≤ b
  · rw [if_pos hascii] at hturn
    split at hturn <;> cases hturn
  rw [if_neg hascii] at hturn
  by_cases hblank : isWhitespace b
  · rw [if_pos hblank] at hturn
    cases hturn
    exact .inl ⟨hblank, rfl, rfl⟩
  rw [if_neg hblank] at hturn
  cases hfits : closingFits b c with
  | false =>
    rw [hfits] at hturn
    cases hturn
  | true =>
    rw [hfits] at hturn
    exact .inr ⟨⟨hascii, by simpa using hblank, hfits⟩, hturn⟩

section

variable (h : Sim limits levels cur c) (hcur : ∀ w, (cur.blank w).isSome)

include h hcur

lemma Sim.goes_blank (hb : isWhitespace b) : Goes limits levels cur [b] c := by
  obtain ⟨w, hw⟩ := blank_of_isWhitespace hb
  obtain ⟨cur', hblank⟩ := Option.isSome_iff_exists.mp (hcur w)
  exact ⟨levels, cur', h.blank hblank, by rw [positionBytes, positionBytes, blank_bytes hblank, hw, List.append_assoc]⟩

lemma Sim.goes_between (hturn : turn .silent limits off c b tail = .next c' size stored)
    (htoken : TokenByte c b → tokenTurn .silent limits off c b tail = .next c' size stored →
      Goes limits levels cur ((b :: tail).take size) c') :
    Goes limits levels cur ((b :: tail).take size) c' := by
  obtain ⟨cur', hblank⟩ := Option.isSome_iff_exists.mp (hcur .space)
  rcases turn_between_cases (h.between hblank) hturn with ⟨hb, rfl, rfl⟩ | ⟨hbyte, hnext⟩
  · exact h.goes_blank hcur hb
  · exact htoken hbyte hnext

end

lemma startValue_ok {r : Core × Option ScanError} (h : startValue .silent limits b off c = .ok r) :
    b = 0x7B ∨ b = 0x5B ∨ b = 0x22 ∨ (∃ st, numStart b = some st) ∨ ∃ l, b = literalByte l := by
  by_cases hnum : (numStart b).isSome
  · exact .inr (.inr (.inr (.inl (Option.isSome_iff_exists.mp hnum))))
  have hnone : b ≠ 0x2D ∧ b ≠ 0x30 ∧ isDigit b = false := by
    unfold numStart at hnum
    split_ifs at hnum <;> simp_all
  unfold startValue at h
  simp only [if_neg hnone.1, if_neg hnone.2.1, hnone.2.2, if_neg Bool.false_ne_true] at h
  split_ifs at h with hobject harray hquote htrue hfalse hnull
  · exact .inl hobject
  · exact .inr (.inl harray)
  · exact .inr (.inr (.inl hquote))
  · exact .inr (.inr (.inr (.inr ⟨.true, htrue⟩)))
  · exact .inr (.inr (.inr (.inr ⟨.false, hfalse⟩)))
  · exact .inr (.inr (.inr (.inr ⟨.null, hnull⟩)))

lemma valueState_empty (h : valueState levels = .expectArrayValueOrEnd) :
    ∃ lpre ls, levels = ⟨lpre, .array none⟩ :: ls := by
  unfold valueState at h
  split at h
  · cases h
  · exact ⟨_, _, rfl⟩
  · cases h
  · cases h

variable {pre : List Blank} (hturn : turn .silent limits off c b tail = .next c' size stored)
  {v : Value}
include hturn

lemma Sim.goes_value (hpos : limits.Positive) (h : Sim limits levels (.value pre) c) :
    Goes limits levels (.value pre) ((b :: tail).take size) c' := by
  refine h.goes_between (fun _ => rfl) hturn fun hbyte _ => ?_
  by_cases hclose : c.state = .expectArrayValueOrEnd ∧ b = 0x5D
  · obtain ⟨hstate, rfl⟩ := hclose
    obtain ⟨lpre, ls, rfl⟩ := valueState_empty (h.holds.symm.trans hstate)
    exact h.close_empty_array.goes (by simp) hturn
  · obtain ⟨c1, r, hstart⟩ : ∃ c1 r, startValue .silent limits b off c1 = .ok r := by
      rw [turn_value h hbyte hclose] at hturn
      cases hcount : JsonShape.countValue limits c with
      | error e =>
        rw [hcount] at hturn
        cases hturn
      | ok c1 =>
        cases hstart : startValue .silent limits b off c1 with
        | ok r => exact ⟨c1, r, hstart⟩
        | error e =>
          have hbind : (JsonShape.countValue limits c >>= startValue .silent limits b off) = .error e := by
            rw [hcount]
            exact hstart
          rw [hbind] at hturn
          cases hturn
    rcases startValue_ok hstart with rfl | rfl | rfl | ⟨st, hst⟩ | ⟨l, rfl⟩
    · exact (h.open_object hpos).goes (by simp) hturn
    · exact (h.open_array hpos).goes (by simp) hturn
    · exact (h.open_string hpos).goes (by simp) hturn
    · obtain ⟨x, hx, hread⟩ := NumPrefix.start hst
      refine (h.open_number hpos hst hx hread).goes ?_ hturn
      simp [hx]
    · refine (h.open_literal l).goes ?_ hturn
      cases l <;> simp <;> rfl

lemma Sim.goes_after {post : List Blank} (h : Sim limits levels (.after pre v post) c) :
    Goes limits levels (.after pre v post) ((b :: tail).take size) c' := by
  refine h.goes_between (fun _ => rfl) hturn fun _ hnext => ?_
  have hstate : c.state = afterState levels := h.holds
  unfold tokenTurn at hnext
  cases levels with
  | nil =>
    simp only [hstate, afterState] at hnext
    split_ifs at hnext
  | cons l ls =>
    obtain ⟨lpre, done | ⟨done, name⟩⟩ := l
    · simp only [hstate, afterState] at hnext
      split_ifs at hnext with hcomma hend
      · subst hcomma
        exact h.comma_array.goes (by simp) hturn
      · subst hend
        exact h.close_array.goes (by simp) hturn
    · simp only [hstate, afterState] at hnext
      split_ifs at hnext with hcomma hend
      · subst hcomma
        exact h.comma_object.goes (by simp) hturn
      · subst hend
        exact h.close_object.goes (by simp) hturn

variable {done : Option Members} {items : List StrChar} {ws : List Blank} {raw : GoStr}

lemma Sim.goes_name (hpos : limits.Positive) (h : Sim limits levels (.name pre done ws) c) :
    Goes limits levels (.name pre done ws) ((b :: tail).take size) c' := by
  refine h.goes_between (fun _ => rfl) hturn fun _ hnext => ?_
  have hstate : c.state = if done.isSome then .expectObjectKey else .expectObjectKeyOrEnd := h.holds
  unfold tokenTurn at hnext
  cases done with
  | none =>
    simp only [hstate, Option.isSome_none, if_neg Bool.false_ne_true] at hnext
    split_ifs at hnext with hend hquote
    · subst hend
      exact h.close_empty_object.goes (by simp) hturn
    · subst hquote
      exact (h.open_key hpos).goes (by simp) hturn
  | some ms =>
    simp only [hstate, Option.isSome_some, if_true] at hnext
    split_ifs at hnext with hquote
    subst hquote
    exact (h.open_key hpos).goes (by simp) hturn

lemma Sim.goes_colon {name : Name} (h : Sim limits levels (.colon pre done name) c) :
    Goes limits levels (.colon pre done name) ((b :: tail).take size) c' := by
  refine h.goes_between (fun _ => rfl) hturn fun _ hnext => ?_
  have hstate : c.state = .expectColon := h.holds
  unfold tokenTurn at hnext
  simp only [hstate] at hnext
  split_ifs at hnext with hb
  subst hb
  exact h.colon.goes (by simp) hturn

lemma Sim.goes_text (h : Sim limits levels (.text pre items raw) c) :
    Goes limits levels (.text pre items raw) ((b :: tail).take size) c' := by
  have hstr : StrSim limits false items raw c := h.holds
  rcases hstr.turn_sound hturn
    with ⟨items', raw', hsim, hbooks, hbytes⟩ | ⟨c1, hp, rfl, hc, hbooks, hfits, hend⟩
  · refine ⟨levels, .text pre items' raw',
      ⟨hbooks.trans h.books, hsim, ⟨h.within.1, h.within.2, h.within.3, trivial⟩⟩, ?_⟩
    simp only [positionBytes, bytes, utf8_append, utf8_cons, List.append_assoc] at hbytes ⊢
    rw [hbytes]
  · rw [hp]
    exact ⟨levels, _, (h.string_end hc hbooks hfits (off + 1)).2 c' hend, by simp⟩

lemma Sim.goes_key (h : Sim limits levels (.key pre done ws items raw) c) :
    Goes limits levels (.key pre done ws items raw) ((b :: tail).take size) c' := by
  have hstr : StrSim limits true items raw c := h.holds
  rcases hstr.turn_sound hturn
    with ⟨items', raw', hsim, hbooks, hbytes⟩ | ⟨c1, hp, rfl, hc, hbooks, hfits, hend⟩
  · refine ⟨levels, .key pre done ws items' raw',
      ⟨hbooks.trans h.books, hsim, ⟨h.within.1, h.within.2, h.within.3, h.within.4⟩⟩, ?_⟩
    simp only [positionBytes, bytes, utf8_append, utf8_cons, List.append_assoc] at hbytes ⊢
    rw [hbytes]
  · rw [hp]
    exact ⟨levels, _, (h.key_end hc hbooks hfits (off + 1)).2 c' hend, by simp [Name.chars]⟩

lemma Held.goes (pre : List Blank) (h : Held limits levels cur v c)
    (hbytes : cur.bytes = (after pre v []).bytes)
    (hb : isDelimiterOrWhitespace b) : Goes limits levels cur ((b :: tail).take size) c' := by
  by_cases hw : Within limits levels (.after pre v [])
  · obtain ⟨c1, hsettles, hsim⟩ := h.settles hw
    rw [hsettles.atByte b hb] at hturn
    obtain ⟨levels', cur', hsim', hbytes'⟩ := hsim.goes_after hturn
    exact ⟨levels', cur', hsim', by rw [hbytes', positionBytes, positionBytes, hbytes]⟩
  · exact absurd hturn ((h.settles_not hw).2 b hb _ _ _ _ _)

lemma Sim.goes_number {t : List Char} (h : Sim limits levels (.number pre t) c) :
    Goes limits levels (.number pre t) ((b :: tail).take size) c' := by
  obtain ⟨hstate, hread, -, -⟩ := h.holds
  cases hmove : numMove c.num b with
  | next st =>
    obtain ⟨x, hx, hread'⟩ := hread.step hmove
    exact (h.number_next hmove hx hread').goes (by simp [hx]) hturn
  | bad =>
    simp only [turn, hstate, numberTurn, hmove] at hturn
    cases hturn
  | stop =>
    by_cases hends : c.num.complete ∧ isDelimiterOrWhitespace b
    · obtain ⟨n, rfl⟩ := hread.number hends.1
      exact (h.held_number (n := n) hends.1 h.within.cursor).goes hturn pre (by simp) hends.2
    · have hbad : (!c.num.complete || !isDelimiterOrWhitespace b) := by
        cases hcomplete : c.num.complete <;> cases hb : isDelimiterOrWhitespace b <;> simp_all
      simp only [turn, hstate, numberTurn, hmove, hbad] at hturn
      cases hturn

lemma Sim.goes_literal {l : Literal} {n : ℕ} (h : Sim limits levels (.literal pre l n) c) :
    Goes limits levels (.literal pre l n) ((b :: tail).take size) c' := by
  obtain ⟨hstate, hliteral, hidx, hle⟩ := h.holds
  by_cases hlt : n < (utf8 l.chars).length
  · by_cases hb : (utf8 l.chars)[n]? = some b
    · exact (h.literal_next hb).goes (by simp [List.take_add_one, hb]) hturn
    · simp only [turn, hstate, literalTurn, hliteral, hidx, hlt, if_neg (Ne.symm hb)] at hturn
      cases hturn
  · obtain rfl : n = (utf8 l.chars).length := by omega
    by_cases hb : isDelimiterOrWhitespace b
    · exact h.held_literal.goes hturn pre (by simp) hb
    · simp only [turn, hstate, literalTurn, hliteral, hidx, hb] at hturn
      simp at hturn

/-- Every turn that goes on is a step of the grammar. -/
lemma Sim.goes (hpos : limits.Positive) (h : Sim limits levels cur c) :
    Goes limits levels cur ((b :: tail).take size) c' := by
  cases cur with
  | value pre => exact h.goes_value hturn hpos
  | text pre items raw => exact h.goes_text hturn
  | number pre t => exact h.goes_number hturn
  | literal pre l n => exact h.goes_literal hturn
  | after pre v post => exact h.goes_after hturn
  | name pre done ws => exact h.goes_name hturn hpos
  | key pre done ws items raw => exact h.goes_key hturn
  | colon pre done name => exact h.goes_colon hturn

end

lemma Sim.scan_goes (hpos : limits.Positive) (h : Sim limits levels cur c) (off : ℕ) (data : GoStr)
    (hpending : (scan .silent limits off c data).pending = [])
    (herr : (scan .silent limits off c data).err = none) :
    Goes limits levels cur data (scan .silent limits off c data).core := by
  induction hn : data.length using Nat.strong_induction_on generalizing levels cur c off data with
  | _ n ih =>
    cases data with
    | nil => exact ⟨levels, cur, h, by simp⟩
    | cons b tail =>
      rw [scan_cons Observer.silent_accepting] at hpending herr ⊢
      cases hturn : turn .silent limits off c b tail with
      | suspend c' => simp [hturn] at hpending
      | halt e c' => simp [hturn] at herr
      | next c' size stored =>
        simp only [hturn] at hpending herr ⊢
        obtain ⟨levels1, cur1, hsim, hbytes⟩ := h.goes hturn hpos
        have hsize : 1 ≤ size := (turn_next hturn).1.1
        have hshort : ((b :: tail).drop size).length < n := by
          rw [← hn, List.length_drop, List.length_cons]
          omega
        obtain ⟨levels2, cur2, hsim2, hbytes2⟩ := ih _ hshort hsim (off + size) _ hpending herr rfl
        exact ⟨levels2, cur2, hsim2, by rw [hbytes2, hbytes, List.append_assoc, List.take_append_drop]⟩

lemma Sim.ends_after {pre post : List Blank} {v : Value}
    (h : Sim limits levels (.after pre v post) c) (hdone : c.state = .rootDone) : levels = [] := by
  have hstate : c.state = afterState levels := h.holds
  rw [hdone] at hstate
  unfold afterState at hstate
  split at hstate
  · rfl
  · cases hstate
  · cases hstate

lemma Held.ends {pre : List Blank} {v : Value} (h : Held limits levels cur v c)
    (hbytes : cur.bytes = (after pre v []).bytes) (hend : endPending .silent limits c = .ok c')
    (hdone : c'.state = .rootDone) :
    Sim limits [] (.after pre v []) c' ∧
    positionBytes levels cur = utf8 (Element.mk pre v []).chars := by
  by_cases hw : Within limits levels (.after pre v [])
  · obtain ⟨c1, hsettles, hsim⟩ := h.settles hw
    cases hend.symm.trans hsettles.atEnd
    obtain rfl := hsim.ends_after hdone
    exact ⟨hsim, hbytes⟩
  · exact absurd hend ((h.settles_not hw).1 c')

/-- The scanner can end at a position only behind the one value of the document. -/
lemma Sim.ends (h : Sim limits levels cur c) (hend : endPending .silent limits c = .ok c')
    (hdone : c'.state = .rootDone) :
    ∃ pre v post, Sim limits [] (.after pre v post) c' ∧
      positionBytes levels cur = utf8 (Element.mk pre v post).chars := by
  have hopen :
      ∀ {st : ScanState}, c.state = st → st ≠ .inNumber → st ≠ .inLiteral → st = .rootDone := by
    rintro st rfl hnumber hliteral
    rw [endPending_other hnumber hliteral] at hend
    cases hend
    exact hdone
  cases cur with
  | value pre =>
    have hbetween := between_valueState h.holds
    have hroot := (hopen rfl hbetween.2.1 hbetween.2.2).symm.trans h.holds
    unfold valueState at hroot
    split at hroot <;> cases hroot
  | text pre items raw =>
    have hstr : StrSim limits false items raw c := h.holds
    cases hopen hstr.collects.state (by decide) (by decide)
  | key pre done ws items raw =>
    have hstr : StrSim limits true items raw c := h.holds
    cases hopen hstr.collects.state (by decide) (by decide)
  | number pre t =>
    obtain ⟨hstate, hread, -, -⟩ := h.holds
    by_cases hcomplete : c.num.complete
    · obtain ⟨n, rfl⟩ := hread.number hcomplete
      exact ⟨pre, .number n, [], (h.held_number hcomplete h.within.cursor).ends (by simp) hend hdone⟩
    · simp [endPending, hstate, hcomplete] at hend
  | literal pre l n =>
    obtain ⟨hstate, hliteral, hidx, hle⟩ := h.holds
    rcases hle.lt_or_eq with hlt | rfl
    · simp [endPending, hstate, hliteral, hidx, hlt] at hend
    · exact ⟨pre, .literal l, [], h.held_literal.ends (by simp) hend hdone⟩
  | after pre v post =>
    have hbetween := h.between_after
    rw [endPending_other hbetween.2.1 hbetween.2.2] at hend
    cases hend
    obtain rfl := h.ends_after hdone
    exact ⟨pre, v, post, h, rfl⟩
  | name pre done ws =>
    have hstate : c.state = if done.isSome then .expectObjectKey else .expectObjectKeyOrEnd :=
      h.holds
    cases done with
    | none => cases hopen hstate (by decide) (by decide)
    | some ms =>
      rw [Option.isSome_some] at hstate
      cases hopen hstate (by decide) (by decide)
  | colon pre done name =>
    cases hopen (show c.state = .expectColon from h.holds) (by decide) (by decide)

/-- The bytes are the UTF-8 encoding of the JSON text with the tree `t`, which keeps every limit. -/
structure Allowed (limits : Limits) (b : GoStr) (t : Element) : Prop where
  text : utf8 t.chars = b
  bytes : (b.length : ℤ) ≤ limits.maxBytes
  tokens : (t.tokens : ℤ) ≤ limits.maxTokens
  depth : (t.depth : ℤ) ≤ limits.maxDepth
  fits : ElementFits limits t

/-- `Finish` drops the writer of the last string. -/
def Core.inactive (c : Core) : Core := { c with active := none, closes := false }

lemma valueFinished_inactive (c : Core) : c.inactive.valueFinished = c.valueFinished.inactive := by
  unfold Core.valueFinished Core.inactive
  cases c.frames with
  | nil => rfl
  | cons top rest => by_cases hobject : top.object = true <;> simp [hobject]

lemma endScalar_inactive {type : EventType} {length : ℕ} :
    endScalar .silent limits type length c.inactive = .ok c' ↔
      ∃ c1, endScalar .silent limits type length c = .ok c1 ∧ c' = c1.inactive := by
  rw [endScalar_silent, endScalar_silent, map_checkTokenLimit]
  simp only [map_checkTokenLimit]
  have hsame := valueFinished_inactive { c with tokens := c.tokens + 1 }
  constructor
  · rintro ⟨htokens, rfl⟩
    exact ⟨_, ⟨htokens, rfl⟩, hsame⟩
  · rintro ⟨c1, ⟨htokens, rfl⟩, rfl⟩
    exact ⟨htokens, hsame⟩

lemma endPending_inactive : endPending .silent limits c.inactive = .ok c' ↔
      ∃ c1, endPending .silent limits c = .ok c1 ∧ c' = c1.inactive := by
  have hstate : c.inactive.state = c.state := rfl
  unfold endPending
  rw [hstate]
  split
  · change (if !c.num.complete then _ else endScalar .silent limits .number c.numLen c.inactive) = _ ↔ _
    split_ifs
    · simp
    · exact endScalar_inactive
  · change (if c.literalIdx < c.literal.length then _
      else endScalar .silent limits c.literalType c.literal.length c.inactive) = _ ↔ _
    split_ifs
    · simp
    · exact endScalar_inactive
  · simp [eq_comm]

lemma finish_ok {s : Scanner} {r : Result} :
    s.finish.2 = .ok r ↔ s.err = none ∧ s.pending = [] ∧
    ∃ c, endPending s.observer s.limits s.core.inactive = .ok c ∧
      c.rootValues ≠ 0 ∧ c.frames = [] ∧ c.state = .rootDone ∧
      r = ⟨s.bytes, c.tokens, c.maxDepth⟩ := by
  unfold Scanner.finish
  dsimp only
  cases herr : s.err with
  | some e => simp
  | none =>
    by_cases hpending : s.pending = []
    · rw [if_neg (not_not_intro hpending)]
      have hcore : ({ s.core with active := none, closes := false } : Core) = s.core.inactive := rfl
      rw [hcore]
      rcases hend : endPending s.observer s.limits s.core.inactive with ⟨e, c⟩ | c
      · simp
      have hstring : c.state = .rootDone → c.state ≠ .inString := by
        rintro hdone
        rw [hdone]
        decide
      simp only [hpending, true_and, Except.ok.injEq, exists_eq_left']
      split_ifs with hopen hroot hdone
      · exact ⟨fun h => (nomatch h), fun h => absurd hopen (hstring h.2.2.1)⟩
      · exact ⟨fun h => (nomatch h), fun h => absurd hroot h.1⟩
      · exact ⟨fun h => (nomatch h), fun h => absurd hdone (by simp [h.2.1, h.2.2.1])⟩
      · obtain ⟨hframes, hstate⟩ := not_or.mp hdone
        refine ⟨fun h => ⟨hroot, not_not.mp hframes, not_not.mp hstate, (Except.ok.inj h).symm⟩, fun h => ?_⟩
        rw [h.2.2.2]
    · simp [hpending]

section

variable (hpos : limits.Positive)

include hpos

lemma sim_start : Sim limits [] (.value []) {} where
  books := rfl
  holds := rfl
  within := by
    have htokens := hpos.tokens
    have hdepth := hpos.depth
    refine ⟨?_, ?_, trivial, trivial⟩
    · simp
      omega
    · simp
      omega

lemma normalizeLimits_positive : normalizeLimits limits = limits := by
  simp [normalizeLimits, normalizeWithDefaults, not_le.mpr hpos.bytes, not_le.mpr hpos.depth, not_le.mpr hpos.tokens,
    not_le.mpr hpos.elems, not_le.mpr hpos.keys, not_le.mpr hpos.strings, not_le.mpr hpos.names,
    not_le.mpr hpos.numbers]

lemma scan_of_allowed {b : GoStr} (h : Allowed limits b t) :
    ∃ c c1, scan .silent limits 0 {} b = ⟨c, [], none⟩ ∧ endPending .silent limits c = .ok c1 ∧
      Sim limits [] (behind t) c1 := by
  have hw : Within limits [] (behind t) := by
    obtain ⟨pre, v, post⟩ := t
    have htokens : (v.tokens : ℤ) ≤ limits.maxTokens := h.tokens
    have hdepth : (v.depth : ℤ) ≤ limits.maxDepth := h.depth
    refine ⟨by simpa [behind] using htokens, ?_, trivial, h.fits⟩
    simpa [behind] using hdepth
  obtain ⟨c, hreads, c1, hsettles, hsim⟩ := tree_reads hpos t [] {} 0 (sim_start hpos) hw
  rw [h.text] at hreads
  have hscan := hreads []
  rw [List.append_nil] at hscan
  exact ⟨c, c1, hscan, hsettles.atEnd, hsim⟩

lemma allowed_of_scan {b : GoStr} (hbytes : (b.length : ℤ) ≤ limits.maxBytes)
    (hpending : (scan .silent limits 0 {} b).pending = [])
    (herr : (scan .silent limits 0 {} b).err = none)
    (hend : endPending .silent limits (scan .silent limits 0 {} b).core = .ok c)
    (hdone : c.state = .rootDone) :
    ∃ t : Element, Allowed limits b t ∧ Sim limits [] (behind t) c := by
  obtain ⟨levels, cur, hsim, hread⟩ := (sim_start hpos).scan_goes hpos 0 b hpending herr
  obtain ⟨pre, v, post, hsim', htext⟩ := hsim.ends hend hdone
  refine ⟨.mk pre v post, ⟨?_, hbytes, ?_, ?_, hsim'.within.cursor⟩, hsim'⟩
  · rw [← htext, hread]
    rfl
  · simpa using hsim'.within.tokens
  · simpa using hsim'.within.depth

end

/-- The counts at the end. -/
lemma Sim.counts (h : Sim limits [] (behind t) c) :
    c.rootValues ≠ 0 ∧ c.frames = [] ∧ c.state = .rootDone ∧ c.tokens = t.tokens ∧
    c.maxDepth = t.depth := by
  obtain ⟨pre, v, post⟩ := t
  have hroot : c.rootValues = 1 := congrArg Books.rootValues h.books
  have hframes : c.frames.map Frame.shape = [] := h.frames
  have htokens : c.tokens = 0 + v.tokens := congrArg Books.tokens h.books
  have hdepth : c.maxDepth = max 0 (0 + v.depth) := congrArg Books.maxDepth h.books
  refine ⟨by omega, by simpa using hframes, h.holds, ?_, ?_⟩
  · rw [htokens, Nat.zero_add]
    rfl
  · rw [hdepth, Nat.zero_add]
    rfl

/-- The scanner accepts exactly the JSON texts that keep the limits, and counts what is in them. -/
theorem feed_finish_iff (hpos : limits.Positive) (b : GoStr) (r : Result) :
    ((newScanner limits .silent).feed b).finish.2 = .ok r ↔
      ∃ t : Element, Allowed limits b t ∧ r = ⟨b.length, t.tokens, t.depth⟩ := by
  have hlimits := normalizeLimits_positive hpos
  by_cases hbytes : (b.length : ℤ) ≤ limits.maxBytes
  · rw [newScanner_feed limits .silent b (by rwa [hlimits]), hlimits, finish_ok]
    constructor
    · rintro ⟨herr, hpending, c, hend, -, -, hdone, rfl⟩
      obtain ⟨c₁, hend₁, rfl⟩ := endPending_inactive.mp hend
      obtain ⟨t, hallowed, hsim⟩ := allowed_of_scan hpos hbytes hpending herr hend₁ hdone
      obtain ⟨-, -, -, htokens, hdepth⟩ := hsim.counts
      refine ⟨t, hallowed, ?_⟩
      rw [← htokens, ← hdepth]
      rfl
    · rintro ⟨t, hallowed, rfl⟩
      obtain ⟨c, c₁, hscan, hend, hsim⟩ := scan_of_allowed hpos hallowed
      obtain ⟨hroot, hframes, hdone, htokens, hdepth⟩ := hsim.counts
      simp only [hscan, true_and]
      refine ⟨c₁.inactive, endPending_inactive.mpr ⟨c₁, hend, rfl⟩, hroot, hframes, hdone, ?_⟩
      rw [← htokens, ← hdepth]
      rfl
  · have hfeed : ((newScanner limits .silent).feed b).err.isSome := by
      simp [newScanner, hlimits, not_le.mp hbytes]
    rw [finish_ok]
    constructor
    · rintro ⟨herr, -⟩
      rw [herr] at hfeed
      cases hfeed
    · rintro ⟨t, hallowed, -⟩
      exact absurd hallowed.bytes hbytes

def exactLimits : Limits where
  maxBytes := 22
  maxDepth := 2
  maxTokens := 7
  maxArrayElems := 2
  maxObjectKeys := 1
  maxStringBytes := 2
  maxKeyBytes := 1
  maxNumberBytes := 4
  rejectDuplicateNames := true

theorem feed_finish_iff_document : exactLimits.Positive ∧
      ∃ t : Element, Allowed exactLimits (lit " \x7b\"k\":[\"\\u00e9\",-1e3]\x7d") t ∧
        (⟨22, 7, 2⟩ : Result) = ⟨22, t.tokens, t.depth⟩ := by
  have hpos : exactLimits.Positive := by constructor <;> decide
  exact ⟨hpos, (feed_finish_iff hpos _ _).mp (by decide +kernel)⟩

end InteractiveProxy.JsonShape
