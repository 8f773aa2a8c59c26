import InteractiveProxy.JsonScanner

/-! The turns of the scanner's loop. A turn takes at least one byte, so the loop has enough fuel. It
looks ahead in three places only: at a run of plain string bytes, at a rune, and at the name of a
literal behind the document; `LookAhead` says what more input changes in each. -/
namespace InteractiveProxy.JsonShape

open GoText Utf8Runes List Turn JsonShape.Core

variable {o : Observer} {limits : Limits}

/-- What more input behind `tail` can change about a turn. -/
inductive LookAhead (o : Observer) (limits : Limits) (off : ℕ) (c : Core) (b : UInt8)
    (tail : GoStr) : Prop
  | fixed (h : ∀ q, turn o limits off c b (tail ++ q) = turn o limits off c b tail)
      (hmoves : ∀ c', turn o limits off c b tail ≠ .suspend c')
  | suspended (c' : Core) (h : turn o limits off c b tail = .suspend c')
      (hagain : ∀ q, turn o limits off c b (tail ++ q) = turn o limits off c' b (tail ++ q))
  | halted (e : ScanError) (c' : Core) (h : turn o limits off c b tail = .halt e c')
      (hmore : ∀ q, ∃ e', turn o limits off c b (tail ++ q) = .halt e' c' ∧ e'.errorClass = e.errorClass)
  | run (c' : Core) (hstate : c'.state = .inString) (hescape : c'.inEscape = false)
      (h : turn o limits off c b tail = of (b :: tail).length (addRun o limits (b :: tail) c'))
      (hmore : ∀ q, turn o limits off c b (tail ++ q) =
        of (b :: tail ++ q.takeWhile isPlainAscii).length
          (addRun o limits (b :: tail ++ q.takeWhile isPlainAscii) c'))

lemma Turn.of_ne_suspend (size : ℕ) (s : Step) (c : Core) : of size s ≠ .suspend c := by
  cases s with
  | ok c' => simp [of]
  | error e => simp [of]

lemma takeWhile_plain_append (l q : GoStr) :
    (l ++ q).takeWhile isPlainAscii = l.takeWhile isPlainAscii ∨
      l.takeWhile isPlainAscii = l ∧
      (l ++ q).takeWhile isPlainAscii = l ++ q.takeWhile isPlainAscii := by
  rw [takeWhile_append]
  split_ifs with hall
  · exact .inr ⟨(List.takeWhile_prefix isPlainAscii).eq_of_length hall, rfl⟩
  · exact .inl rfl

lemma drop_takeWhile_plain (l : GoStr) :
    l.drop (l.takeWhile isPlainAscii).length = l.dropWhile isPlainAscii := by
  calc l.drop (l.takeWhile isPlainAscii).length
      = (l.takeWhile isPlainAscii ++ l.dropWhile isPlainAscii).drop (l.takeWhile isPlainAscii).length := by
        rw [takeWhile_append_dropWhile]
    _ = l.dropWhile isPlainAscii := drop_left

lemma betweenTurn_rootDone {b : UInt8} {c : Core} (o : Observer) (limits : Limits)
    (hstate : c.state = .rootDone) (off : ℕ)
    (hascii : ¬0x80 ≤ b) (hspace : ¬isWhitespace b) (hfits : closingFits b c)
    (tail : GoStr) : ∃ e, betweenTurn o limits off c b tail = .halt e c ∧
    e.errorClass = .guard .malformed := by
  simp only [betweenTurn, if_neg hascii, if_neg hspace, hfits, Bool.not_true,
    if_neg Bool.false_ne_true, tokenTurn, hstate]
  split_ifs
  · exact ⟨_, rfl, rfl⟩
  · exact ⟨_, rfl, rfl⟩
  · exact ⟨_, rfl, rfl⟩

variable (off : ℕ) (c : Core) (b : UInt8) (tail : GoStr)

lemma stringTurn_cases :
    ((∀ q, stringTurn o limits off c b (tail ++ q) = stringTurn o limits off c b tail) ∧
        ∀ c', stringTurn o limits off c b tail ≠ .suspend c') ∨
      stringTurn o limits off c b tail = .suspend c ∨
      stringTurn o limits off c b tail = of (b :: tail).length (addRun o limits (b :: tail) c) ∧
        ∀ q, stringTurn o limits off c b (tail ++ q) =
          of (b :: tail ++ q.takeWhile isPlainAscii).length
            (addRun o limits (b :: tail ++ q.takeWhile isPlainAscii) c) := by
  unfold stringTurn
  by_cases h1 : b = 0x5C
  · simp [h1]
  by_cases h2 : b = 0x22
  · simp [h2, of_ne_suspend]
  by_cases h3 : b < 0x20
  · simp [h1, h2, h3]
  by_cases h4 : b < 0x80
  · simp only [if_neg h1, if_neg h2, if_neg h3, if_pos h4]
    by_cases hall : (b :: tail).takeWhile isPlainAscii = b :: tail
    · refine .inr (.inr ⟨by rw [hall], fun q => ?_⟩)
      have happend :
          (b :: (tail ++ q)).takeWhile isPlainAscii = b :: tail ++ q.takeWhile isPlainAscii := by
        rw [← cons_append, takeWhile_append, if_pos (by rw [hall])]
      rw [happend]
    · refine .inl ⟨fun q => ?_, fun c' => of_ne_suspend _ _ c'⟩
      rcases takeWhile_plain_append (b :: tail) q with heq | ⟨hself, -⟩
      · rw [← cons_append, heq]
      · exact absurd hself hall
  · simp only [if_neg h1, if_neg h2, if_neg h3, if_neg h4]
    cases hscan : scanRune (b :: tail) with
    | short => exact .inr (.inl rfl)
    | bad =>
      refine .inl ⟨fun q => ?_, by simp⟩
      rw [← cons_append, scanRune_append (by simp [hscan]), hscan]
    | good size =>
      refine .inl ⟨fun q => ?_, fun c' => of_ne_suspend _ _ c'⟩
      rw [← cons_append, scanRune_append (by simp [hscan]), hscan]
      simp only [take_append_of_le_length (scanRune_size hscan).2]

lemma valueTurn_ne_suspend (c' : Core) : valueTurn o limits off c b ≠ .suspend c' := by
  unfold valueTurn
  split_ifs
  · exact of_ne_suspend _ _ _
  · split <;> simp

lemma tokenTurn_ne_suspend (c' : Core) : tokenTurn o limits off c b tail ≠ .suspend c' := by
  unfold tokenTurn
  split <;> (try split_ifs) <;> simp [valueTurn_ne_suspend, of_ne_suspend]

lemma betweenTurn_cases :
    ((∀ q, betweenTurn o limits off c b (tail ++ q) = betweenTurn o limits off c b tail) ∧
        ∀ c', betweenTurn o limits off c b tail ≠ .suspend c') ∨
      (betweenTurn o limits off c b tail = .suspend c ∧ 0x80 ≤ b) ∨
      ∃ e, betweenTurn o limits off c b tail = .halt e c ∧
        ∀ q, ∃ e', betweenTurn o limits off c b (tail ++ q) = .halt e' c ∧
        e'.errorClass = e.errorClass := by
  by_cases hascii : 0x80 ≤ b
  · simp only [betweenTurn, if_pos hascii]
    cases hscan : scanRune (b :: tail) with
    | short => exact .inr (.inl ⟨rfl, hascii⟩)
    | bad =>
      refine .inl ⟨fun q => ?_, by simp⟩
      rw [← cons_append, scanRune_append (by simp [hscan]), hscan]
    | good size =>
      refine .inl ⟨fun q => ?_, by simp⟩
      rw [← cons_append, scanRune_append (by simp [hscan]), hscan]
  by_cases hspace : isWhitespace b
  · simp [betweenTurn, hascii, hspace]
  by_cases hfits : closingFits b c
  · by_cases hstate : c.state = .rootDone
    · obtain ⟨e, he, hclass⟩ := betweenTurn_rootDone o limits hstate off hascii hspace hfits tail
      refine .inr (.inr ⟨e, he, fun q => ?_⟩)
      obtain ⟨e', he', hclass'⟩ :=
        betweenTurn_rootDone o limits hstate off hascii hspace hfits (tail ++ q)
      exact ⟨e', he', hclass'.trans hclass.symm⟩
    · refine .inl ⟨fun q => ?_, fun c' => ?_⟩
      · simp only [betweenTurn, if_neg hascii, if_neg hspace, hfits, Bool.not_true, if_neg Bool.false_ne_true]
        unfold tokenTurn
        split <;> first | rfl | exact absurd ‹_› hstate
      · simp only [betweenTurn, if_neg hascii, if_neg hspace, hfits]
        exact tokenTurn_ne_suspend off c b tail c'
  · simp [betweenTurn, hascii, hspace, hfits]

variable {b : UInt8}

/-- The state after decoded bytes of a string, where the writers take everything. -/
def Core.decoded (c : Core) (p : GoStr) : Core :=
  let counted := { c with strDecoded := c.strDecoded + p.length }
  if c.strIsKey then { counted with keyBuf := c.keyBuf ++ p }
  else if c.active.isSome then counted.record p
  else counted

lemma addDecoded_accepting (ho : o.Accepting) (p : GoStr) (c : Core) :
    addDecoded o p c = .ok (c.decoded p) := by
  unfold addDecoded decoded writeActive
  by_cases hkey : c.strIsKey
  · simp [hkey]
  · cases hactive : c.active with
    | none => simp [hkey]
    | some ctx => simp [hkey, ho.writes]

variable (c : Core) (p q : GoStr)

@[simp] lemma Core.record_nil : c.record [] = c := by
  unfold record
  split
  · rfl
  · rename_i hw
    rw [append_nil, ← hw]

lemma Core.decoded_key (hkey : c.strIsKey) :
    c.decoded p = { c with strDecoded := c.strDecoded + p.length, keyBuf := c.keyBuf ++ p } := by
  simp [decoded, hkey]

lemma Core.decoded_value (hkey : c.strIsKey = false) :
    ∃ w, c.decoded p = { c with strDecoded := c.strDecoded + p.length, written := w } := by
  simp only [decoded, hkey, if_neg Bool.false_ne_true, record]
  split_ifs
  · split
    · exact ⟨_, rfl⟩
    · exact ⟨_, rfl⟩
  · exact ⟨_, rfl⟩

lemma Core.decoded_frame :
    ∃ k w, c.decoded p =
    { c with strDecoded := c.strDecoded + p.length, keyBuf := k, written := w } := by
  by_cases hkey : c.strIsKey
  · exact ⟨_, _, decoded_key c p hkey⟩
  · obtain ⟨w, hw⟩ := decoded_value c p (Bool.not_eq_true _ ▸ hkey)
    exact ⟨_, w, hw⟩

@[simp] lemma Core.decoded_keeps :
    (c.decoded p).state = c.state ∧ (c.decoded p).inEscape = c.inEscape ∧
    (c.decoded p).strIsKey = c.strIsKey ∧ (c.decoded p).events = c.events ∧
    (c.decoded p).strDecoded = c.strDecoded + p.length := by
  obtain ⟨k, w, h⟩ := decoded_frame c p
  simp [h]

@[simp] lemma Core.decoded_nil : c.decoded [] = c := by
  simp [decoded]

lemma Core.decoded_append : (c.decoded p).decoded q = c.decoded (p ++ q) := by
  cases hkey : c.strIsKey with
  | true => simp [decoded, hkey, Nat.add_assoc]
  | false =>
    simp only [decoded, hkey]
    cases hactive : c.active with
    | none => simp [Nat.add_assoc]
    | some ctx => cases hw : c.written <;> simp [record, Nat.add_assoc]

lemma addRun_accepting (ho : o.Accepting) (p : GoStr) (c : Core) :
    addRun o limits p c = checkStringLimit limits (c.decoded p) := by
  rw [addRun, addDecoded_accepting ho]
  rfl

variable {c c' : Core}

lemma checkStringLimit_ok (h : checkStringLimit limits c = .ok c') : c' = c := by
  unfold checkStringLimit at h
  split_ifs at h <;> exact (Except.ok.inj h).symm

lemma escapeStep_again (ho : o.Accepting) (h : escapeStep o b c = .ok (c', true)) :
    c'.inEscape = false ∧ c'.state = c.state := by
  have hkeep : ∀ s : Step, (s.map fun c : Core => (c, false)) ≠ .ok (c', true) := by
    intro s
    cases s <;> simp [Except.map]
  unfold escapeStep at h
  split at h
  · split_ifs at h
    · simp at h
    · exact absurd h (hkeep _)
  · split at h
    · cases h
    · exact absurd h (hkeep _)
  · split_ifs at h
    · simp at h
    · rw [addDecoded_accepting ho] at h
      simp only [Except.map, Except.ok.injEq, Prod.mk.injEq, and_true] at h
      subst h
      exact ⟨rfl, (decoded_keeps _ _).1⟩
  · split_ifs at h
    · simp at h
    · exact absurd h (hkeep _)
  · split at h
    · split_ifs at h
      · exact absurd h (hkeep _)
      · exact absurd h (hkeep _)
    · cases h
  · simp at h

lemma ascii_of_delimiter (h : isDelimiterOrWhitespace b) : ¬0x80 ≤ b := by
  simp only [isDelimiterOrWhitespace, isWhitespace, Bool.or_eq_true, beq_iff_eq, or_assoc] at h
  rcases h with rfl | rfl | rfl | rfl | rfl | rfl | rfl <;> decide

variable {tail : GoStr} {off len size : ℕ} {s t : Scanner} {e : ScanError}

lemma lookAhead_between (hsame : 0x80 ≤ b → c' = c)
    (hturn : ∀ q, turn o limits off c b q = betweenTurn o limits off c' b q) :
    LookAhead o limits off c b tail := by
  rcases betweenTurn_cases off c' b tail with ⟨hfixed, hmoves⟩ | ⟨hsuspend, hhigh⟩ | ⟨e, he, hmore⟩
  · exact .fixed (fun q => by rw [hturn, hturn, hfixed]) fun c' => by rw [hturn]; exact hmoves c'
  · obtain rfl := hsame hhigh
    exact .suspended c' (by rw [hturn, hsuspend]) fun q => rfl
  · exact .halted e c' (by rw [hturn, he]) fun q => by rw [hturn]; exact hmore q

lemma turn_inString (hstate : c.state = .inString) (hescape : c.inEscape = false) (off : ℕ)
    (b : UInt8)
    (tail : GoStr) : turn o limits off c b tail = stringTurn o limits off c b tail := by
  simp [turn, hstate, hescape]

lemma lookAhead_string (hstate : c'.state = .inString) (hescape : c'.inEscape = false)
    (hturn : ∀ q, turn o limits off c b q = stringTurn o limits off c' b q) :
    LookAhead o limits off c b tail := by
  rcases stringTurn_cases off c' b tail with ⟨hfixed, hmoves⟩ | hsuspend | ⟨hrun, hmore⟩
  · exact .fixed (fun q => by rw [hturn, hturn, hfixed]) fun c' => by rw [hturn]; exact hmoves c'
  · exact .suspended c' (by rw [hturn, hsuspend])
      fun q => by rw [hturn, turn_inString hstate hescape]
  · exact .run c' hstate hescape (by rw [hturn, hrun]) fun q => by rw [hturn, hmore]

lemma lookAhead_free {t : Turn} (hturn : ∀ q, turn o limits off c b q = t)
    (hmoves : ∀ c', t ≠ .suspend c') : LookAhead o limits off c b tail :=
  .fixed (fun q => by rw [hturn, hturn]) fun c' => by rw [hturn]; exact hmoves c'

lemma lookAhead (ho : o.Accepting) (off : ℕ) (c : Core) (b : UInt8) (tail : GoStr) :
    LookAhead o limits off c b tail := by
  cases hstate : c.state with
  | inString =>
    cases hescape : c.inEscape with
    | false => exact lookAhead_string hstate hescape (turn_inString hstate hescape off b)
    | true =>
      have hturn : ∀ q, turn o limits off c b q = escapeTurn o limits off c b q := by
        simp [turn, hstate, hescape]
      simp only [escapeTurn] at hturn
      cases hstep : escapeStep o b { c with escape := c.escape ++ [b] } with
      | error e =>
        exact lookAhead_free (t := .halt e.1 e.2) (by simpa [hstep] using hturn) (by simp)
      | ok r =>
        obtain ⟨c1, again⟩ := r
        cases hlimit : checkStringLimit limits c1 with
        | error e =>
          exact lookAhead_free (t := .halt e.1 e.2) (by simpa [hstep, hlimit] using hturn) (by simp)
        | ok c2 =>
          obtain rfl := checkStringLimit_ok hlimit
          cases again with
          | false => exact lookAhead_free (t := .next c2 1 none) (by simpa [hstep, hlimit] using hturn) (by simp)
          | true =>
            obtain ⟨hesc, hst⟩ := escapeStep_again ho hstep
            exact lookAhead_string (hst.trans hstate) hesc (by simpa [hstep, hlimit] using hturn)
  | inNumber =>
    have hturn :
      ∀ q, turn o limits off c b q = numberTurn o limits off c b q := by simp [turn, hstate]
    simp only [numberTurn] at hturn
    cases hmove : numMove c.num b with
    | next st =>
      simp only [hmove] at hturn
      refine lookAhead_free hturn fun c' => ?_
      split_ifs <;> simp
    | bad => exact lookAhead_free (by simpa [hmove] using hturn) (by simp)
    | stop =>
      by_cases hend : (!c.num.complete || !isDelimiterOrWhitespace b)
      · simp only [hmove, if_pos hend] at hturn
        exact lookAhead_free hturn (by simp)
      · simp only [hmove, if_neg hend] at hturn
        have hascii : ¬0x80 ≤ b := ascii_of_delimiter (by simp at hend; exact hend.2)
        cases hscalar : endScalar o limits .number c.numLen c with
        | error e => exact lookAhead_free (by simpa [hscalar] using hturn) (by simp)
        | ok c1 => exact lookAhead_between (absurd · hascii) (by simpa [hscalar] using hturn)
  | inLiteral =>
    have hturn :
      ∀ q, turn o limits off c b q = literalTurn o limits off c b q := by simp [turn, hstate]
    simp only [literalTurn] at hturn
    by_cases hidx : c.literalIdx < c.literal.length
    · simp only [if_pos hidx] at hturn
      refine lookAhead_free hturn fun c' => ?_
      split_ifs <;> simp
    · by_cases hend : (!isDelimiterOrWhitespace b)
      · simp only [if_neg hidx, if_pos hend] at hturn
        exact lookAhead_free hturn (by simp)
      · simp only [if_neg hidx, if_neg hend] at hturn
        have hascii : ¬0x80 ≤ b := ascii_of_delimiter (by simpa using hend)
        cases hscalar : endScalar o limits c.literalType c.literal.length c with
        | error e => exact lookAhead_free (by simpa [hscalar] using hturn) (by simp)
        | ok c1 => exact lookAhead_between (absurd · hascii) (by simpa [hscalar] using hturn)
  | _ => exact lookAhead_between (fun _ => rfl) (by simp [turn, hstate])

/-- A turn that goes on takes at least one byte and no more than there are, and stores no error
where the resolver gives none. -/
inductive Turn.Sound (o : Observer) (len : ℕ) : Turn → Prop
  | halt (e : ScanError) (c : Core) : Sound o len (.halt e c)
  | suspend (c : Core) : Sound o len (.suspend c)
  | next {size : ℕ} {stored : Option ScanError} (c : Core) (hsize : 1 ≤ size ∧ size ≤ len)
      (hstored : o.Accepting → stored = none) : Sound o len (.next c size stored)

lemma Turn.sound_of (h : 1 ≤ size ∧ size ≤ len) (s : Step) : Turn.Sound o len (of size s) := by
  cases s with
  | ok c => exact .next c h fun _ => rfl
  | error e => exact .halt e.1 e.2

lemma startString_stored (ho : o.Accepting) (isKey : Bool) (off : ℕ) (c : Core) :
    (startString o isKey off c).2 = none := by
  simp only [startString]
  split
  · rfl
  · rename_i resolve hresolve
    obtain ⟨sink, hsink⟩ :=
      ho.resolves resolve (Option.filter_eq_some_iff.mp hresolve).1 c.events c.valueContext
    rw [hsink]
    cases sink <;> rfl

lemma startValue_stored (ho : o.Accepting) {stored : Option ScanError}
    (h : startValue o limits b off c = .ok (c', stored)) : stored = none := by
  have hkeep : ∀ s : Step, (s.map fun c : Core => (c, (none : Option ScanError))) =
      .ok (c', stored) → stored = none := by
    intro s hs
    cases s with
    | ok c1 => exact (congrArg Prod.snd (Except.ok.inj hs)).symm
    | error e => cases hs
  simp only [startValue] at h
  split_ifs at h
  · exact hkeep _ h
  · exact hkeep _ h
  · exact (congrArg Prod.snd (Except.ok.inj h)).symm.trans (startString_stored ho false off _)
  all_goals exact (congrArg Prod.snd (Except.ok.inj h)).symm

lemma valueTurn_sound (hlen : 1 ≤ len) (off : ℕ) (c : Core) (b : UInt8) :
    Turn.Sound o len (valueTurn o limits off c b) := by
  have hone : 1 ≤ 1 ∧ 1 ≤ len := ⟨le_rfl, hlen⟩
  unfold valueTurn
  split_ifs
  · exact sound_of hone _
  split
  · rename_i c' stored hstep
    refine .next _ hone fun ho => ?_
    cases hcount : countValue limits c with
    | error e => rw [hcount] at hstep; cases hstep
    | ok c1 => rw [hcount] at hstep; exact startValue_stored ho hstep
  · exact .halt _ _

lemma isPlainAscii_of (hescape : b ≠ 0x5C) (hquote : b ≠ 0x22) (hcontrol : ¬b < 0x20)
    (hascii : b < 0x80) : isPlainAscii b := by
  simp [isPlainAscii, hescape, hquote, hascii, UInt8.not_lt.mp hcontrol]

variable (off : ℕ) (c : Core) (b : UInt8) (tail : GoStr)

lemma betweenTurn_sound : Turn.Sound o (b :: tail).length (betweenTurn o limits off c b tail) := by
  have hone : 1 ≤ 1 ∧ 1 ≤ (b :: tail).length := ⟨le_rfl, by simp⟩
  unfold betweenTurn
  split_ifs
  · split
    · exact .suspend _
    · exact .halt _ _
    · exact .halt _ _
  · exact .next c hone fun _ => rfl
  · exact .halt _ _
  · unfold tokenTurn
    split <;> (try split_ifs) <;>
      first
        | exact .halt _ _
        | exact .next _ hone fun _ => rfl
        | exact sound_of hone _
        | exact valueTurn_sound hone.2 off c b

lemma stringTurn_sound : Turn.Sound o (b :: tail).length (stringTurn o limits off c b tail) := by
  have hone : 1 ≤ 1 ∧ 1 ≤ (b :: tail).length := ⟨le_rfl, by simp⟩
  unfold stringTurn
  split_ifs with hescape hquote hcontrol hascii
  · exact .next _ hone fun _ => rfl
  · exact sound_of hone _
  · exact .halt _ _
  · refine sound_of ⟨?_, (List.takeWhile_prefix _).length_le⟩ _
    simp [isPlainAscii_of hescape hquote hcontrol hascii]
  · split
    · exact .suspend _
    · exact .halt _ _
    · rename_i size hscan
      exact sound_of (scanRune_size hscan) _

lemma turn_sound : Turn.Sound o (b :: tail).length (turn o limits off c b tail) := by
  have hone : 1 ≤ 1 ∧ 1 ≤ (b :: tail).length := ⟨le_rfl, by simp⟩
  unfold turn
  split
  · split_ifs
    · unfold escapeTurn
      split
      · exact .halt _ _
      split
      · exact .halt _ _
      · split_ifs
        · exact stringTurn_sound off _ b tail
        · exact .next _ hone fun _ => rfl
    · exact stringTurn_sound off c b tail
  · unfold numberTurn
    split
    · dsimp only
      split_ifs
      · exact .halt _ _
      · exact .next _ hone fun _ => rfl
    · exact .halt _ _
    · split_ifs
      · exact .halt _ _
      · split
        · exact .halt _ _
        · exact betweenTurn_sound off _ b tail
  · unfold literalTurn
    split_ifs
    · exact .next _ hone fun _ => rfl
    · exact .halt _ _
    · exact .halt _ _
    · split
      · exact .halt _ _
      · exact betweenTurn_sound off _ b tail
  · exact betweenTurn_sound off c b tail

variable {off c b tail}

lemma turn_next {stored : Option ScanError}
    (h : turn o limits off c b tail = .next c' size stored) :
    (1 ≤ size ∧ size ≤ (b :: tail).length) ∧ (o.Accepting → stored = none) := by
  have hsound : Turn.Sound o _ (turn o limits off c b tail) := turn_sound off c b tail
  rw [h] at hsound
  cases hsound with
  | next _ hsize hstored => exact ⟨hsize, hstored⟩

/-- The loop of `Feed` with enough fuel. -/
def scan (o : Observer) (limits : Limits) (off : ℕ) (c : Core) (data : GoStr) : Scanned :=
  loop o limits data.length off none c data

@[simp] lemma scan_nil (off : ℕ) (c : Core) : scan o limits off c [] = ⟨c, [], none⟩ := rfl

lemma loop_fuel (fuel off : ℕ) (err : Option ScanError) (c : Core) (data : GoStr)
    (h : data.length ≤ fuel) :
    loop o limits fuel off err c data = loop o limits data.length off err c data := by
  induction fuel using Nat.strong_induction_on generalizing off err c data with
  | _ fuel ih =>
    cases data with
    | nil => cases fuel <;> rfl
    | cons b tail =>
      obtain ⟨n, rfl⟩ : ∃ n, fuel = n + 1 := ⟨fuel - 1, by simp at h; omega⟩
      simp only [length_cons, Nat.add_le_add_iff_right] at h ⊢
      simp only [loop]
      cases hturn : turn o limits off c b tail with
      | suspend c' => rfl
      | halt e c' => rfl
      | next c' size stored =>
        have hsize := (turn_next hturn).1.1
        have hdrop : ((b :: tail).drop size).length ≤ tail.length := by simp; omega
        -- both fuels cover what is left, so both loops agree with the exact one
        have hlong := ih n (by omega) (off + size) (stored <|> err) c' _ (hdrop.trans h)
        rcases Nat.eq_or_lt_of_le h with heq | hlt
        · rw [heq]
        · exact hlong.trans (ih tail.length (by omega) _ _ _ _ hdrop).symm

lemma scan_cons (ho : o.Accepting) (off : ℕ) (c : Core) (b : UInt8) (tail : GoStr) :
    scan o limits off c (b :: tail) =
      match turn o limits off c b tail with
      | .next c' size _ => scan o limits (off + size) c' ((b :: tail).drop size)
      | .suspend c' => ⟨c', b :: tail, none⟩
      | .halt e c' => ⟨c', [], some e⟩ := by
  simp only [scan, length_cons, loop]
  cases hturn : turn o limits off c b tail with
  | suspend c' => rfl
  | halt e c' => rfl
  | next c' size stored =>
    obtain ⟨⟨hsize, -⟩, hstored⟩ := turn_next hturn
    obtain rfl := hstored ho
    exact loop_fuel _ _ _ _ _ (by simp; omega)

lemma stringTurn_plain (ho : o.Accepting) (hb : isPlainAscii b) (off : ℕ) (c : Core)
    (tail : GoStr) : stringTurn o limits off c b tail =
      of ((b :: tail).takeWhile isPlainAscii).length
        (checkStringLimit limits (c.decoded ((b :: tail).takeWhile isPlainAscii))) := by
  simp only [isPlainAscii, Bool.and_eq_true, decide_eq_true_eq, ne_eq, decide_not,
    Bool.not_eq_eq_eq_not, Bool.not_true, decide_eq_false_iff_not] at hb
  obtain ⟨⟨⟨hcontrol, hascii⟩, hescape⟩, hquote⟩ := hb
  simp only [stringTurn, if_neg hescape, if_neg hquote, if_neg (UInt8.not_lt.mpr hcontrol),
    if_pos hascii, addRun_accepting ho]

lemma scan_plain (ho : o.Accepting) (hstate : c.state = .inString) (hescape : c.inEscape = false)
    (off : ℕ) (q : GoStr) (hfits : checkStringLimit limits c = .ok c) :
    scan o limits off c q =
      match checkStringLimit limits (c.decoded (q.takeWhile isPlainAscii)) with
      | .ok c' => scan o limits (off + (q.takeWhile isPlainAscii).length) c' (q.dropWhile isPlainAscii)
      | .error e => ⟨e.2, [], some e.1⟩ := by
  by_cases hplain : q.takeWhile isPlainAscii = []
  · have hall :
      q.dropWhile isPlainAscii = q := by rw [← drop_takeWhile_plain, hplain, length_nil, drop_zero]
    rw [hplain, hall, decoded_nil, hfits]
    rfl
  · cases q with
    | nil => exact absurd rfl hplain
    | cons b tail =>
      have hb : isPlainAscii b := by
        by_contra hb
        exact hplain (by simp [hb])
      rw [scan_cons ho, turn_inString hstate hescape, stringTurn_plain ho hb]
      cases checkStringLimit limits (c.decoded ((b :: tail).takeWhile isPlainAscii)) with
      | ok c' => simp only [of, drop_takeWhile_plain]
      | error e => rfl

open Scanned Scanner

/-- What can be told from a loop that has ended: everything while the scan goes on; after an error
its class, the events and, unless a string was too long, what was written. -/
inductive Seen
  | going (c : Core) (pending : GoStr)
  | failed (why : ErrorClass) (events : List Event)
    (written : Option (List (StringContext × GoStr)))

def Scanned.seen (r : Scanned) : Seen :=
  match r.err with
  | none => .going r.core r.pending
  | some e =>
    .failed e.errorClass r.core.events
      (if e.errorClass = .guard .stringTooLong then none else some r.core.written)

/-- The loop goes on with more input behind what an earlier one, which ended at `off`, has left. -/
def Scanned.resume (o : Observer) (limits : Limits) (off : ℕ) (r : Scanned) (more : GoStr) :
    Scanned :=
  if r.err.isSome then r else scan o limits (off - r.pending.length) r.core (r.pending ++ more)

lemma checkStringLimit_longer {c1 : Core} {p : GoStr}
    (h : checkStringLimit limits (c.decoded p) = .error (e, c1)) (q : GoStr) :
    ∃ e' c2, checkStringLimit limits (c.decoded (p ++ q)) = .error (e', c2) ∧
      seen ⟨c2, [], some e'⟩ = seen ⟨c1, [], some e⟩ := by
  by_cases hkey : c.strIsKey
  · simp only [checkStringLimit, Core.decoded_key _ _ hkey, hkey, if_true] at h ⊢
    split_ifs at h with hlong
    obtain ⟨rfl, rfl⟩ := Prod.mk.inj (Except.error.inj h)
    rw [if_pos (hlong.trans_le (by simp))]
    exact ⟨_, _, rfl, rfl⟩
  · simp only [checkStringLimit, Core.decoded_keeps, if_neg hkey] at h ⊢
    split_ifs at h with hlong
    obtain ⟨rfl, rfl⟩ := Prod.mk.inj (Except.error.inj h)
    rw [if_pos (hlong.trans_le (by simp))]
    exact ⟨_, _, rfl, by simp [seen, exceeds, ScanError.errorClass]⟩

lemma scan_append (ho : o.Accepting) (off : ℕ) (c : Core) (d q : GoStr) :
    (scan o limits off c (d ++ q)).seen =
      ((scan o limits off c d).resume o limits (off + d.length) q).seen := by
  induction hn : d.length using Nat.strong_induction_on generalizing off c d with
  | _ n ih =>
    subst hn
    cases d with
    | nil => simp [resume]
    | cons b tail =>
      rw [cons_append, scan_cons ho, scan_cons ho off c b tail]
      have hahead : LookAhead o limits off c b tail := lookAhead ho off c b tail
      rcases hahead with ⟨hfixed, hmoves⟩ | ⟨c', hsuspend, hagain⟩ |
        ⟨e, c', hhalt, hmore⟩ | ⟨c', hstate, hescape, hrun, hmore⟩
      · rw [hfixed q]
        cases hturn : turn o limits off c b tail with
        | suspend c' => exact absurd hturn (hmoves c')
        | halt e c' => rfl
        | next c' size stored =>
          obtain ⟨hpos, hle⟩ := (turn_next hturn).1
          have hdrop : ((b :: tail).drop size).length < (b :: tail).length := by simp; omega
          have hoff : off + size + ((b :: tail).drop size).length = off + (b :: tail).length := by simp at hle ⊢; omega
          have hmore := ih _ hdrop (off + size) c' _ rfl
          rw [hoff] at hmore
          dsimp only
          rw [← hmore, ← cons_append, drop_append_of_le_length hle]
      · rw [hsuspend]
        simp only [resume, Option.isSome_none, if_neg Bool.false_ne_true, Nat.add_sub_cancel]
        rw [cons_append, scan_cons ho, hagain q]
      · obtain ⟨e', he', hclass⟩ := hmore q
        rw [hhalt, he']
        simp [resume, seen, hclass]
      · rw [hrun, hmore q, addRun_accepting ho, addRun_accepting ho]
        cases hlimit : checkStringLimit limits (c'.decoded (b :: tail)) with
        | error e =>
          obtain ⟨e', c2, he', hseen⟩ := checkStringLimit_longer hlimit (q.takeWhile isPlainAscii)
          rw [he']
          simpa [Turn.of, resume] using hseen
        | ok c1 =>
          obtain rfl := checkStringLimit_ok hlimit
          simp only [Turn.of, drop_length, scan_nil, resume, Option.isSome_none,
            if_neg Bool.false_ne_true, length_nil, Nat.sub_zero, nil_append]
          rw [scan_plain ho (by simp [hstate]) (by simp [hescape]) _ q hlimit, Core.decoded_append]
          cases checkStringLimit limits (c'.decoded (b :: tail ++ q.takeWhile isPlainAscii)) with
          | error e => rfl
          | ok c2 =>
            have hdrop : (b :: (tail ++ q)).drop (b :: tail ++ q.takeWhile isPlainAscii).length =
                q.dropWhile isPlainAscii := by
              rw [← cons_append, length_append, drop_length_add_append, drop_takeWhile_plain]
            dsimp only
            rw [hdrop, length_append, Nat.add_assoc]

lemma scan_pending_le (ho : o.Accepting) (off : ℕ) (c : Core) (data : GoStr) :
    (scan o limits off c data).pending.length ≤ data.length := by
  induction hn : data.length using Nat.strong_induction_on generalizing off c data with
  | _ n ih =>
    subst hn
    cases data with
    | nil => simp
    | cons b tail =>
      rw [scan_cons ho]
      cases hturn : turn o limits off c b tail with
      | suspend c' => exact le_rfl
      | halt e c' => simp
      | next c' size stored =>
        have hpos := (turn_next hturn).1.1
        have hdrop : ((b :: tail).drop size).length < (b :: tail).length := by simp; omega
        exact (ih _ hdrop (off + size) c' _ rfl).trans hdrop.le

/-- Two scanners that no further input and no `Finish` tells apart, up to what `Seen` leaves out. -/
structure Alike (s t : Scanner) : Prop where
  observer : s.observer = t.observer
  limits : s.limits = t.limits
  seen : seen ⟨s.core, s.pending, s.err⟩ = seen ⟨t.core, t.pending, t.err⟩
  bytes : s.err = none → s.bytes = t.bytes

lemma Alike.refl (s : Scanner) : Alike s s := ⟨rfl, rfl, rfl, fun _ => rfl⟩

lemma Alike.cases (h : Alike s t) : s = t ∧ s.err = none ∨
      ∃ e e', s.err = some e ∧ t.err = some e' ∧ e.errorClass = e'.errorClass ∧
      s.core.events = t.core.events ∧
        (s.core.written = t.core.written ∨ e'.errorClass = .guard .stringTooLong) := by
  obtain ⟨hobserver, hlimits, hseen, hbytes⟩ := h
  obtain ⟨o, l, c, n, p, err⟩ := s
  obtain ⟨o', l', c', n', p', err'⟩ := t
  cases err with
  | none =>
    cases err' with
    | none =>
      obtain ⟨rfl, rfl⟩ := hseen
      simp_all
    | some e' => simp [Scanned.seen] at hseen
  | some e =>
    cases err' with
    | none => simp [Scanned.seen] at hseen
    | some e' =>
      simp only [Scanned.seen, Seen.failed.injEq] at hseen
      obtain ⟨hclass, hevents, hwritten⟩ := hseen
      refine .inr ⟨e, e', rfl, rfl, hclass, hevents, ?_⟩
      by_cases hlong : e'.errorClass = .guard .stringTooLong
      · exact .inr hlong
      · rw [hclass, if_neg hlong, if_neg hlong] at hwritten
        exact .inl (Option.some.inj hwritten)

lemma Alike.feed (h : Alike s t) (q : GoStr) : Alike (s.feed q) (t.feed q) := by
  rcases h.cases with ⟨rfl, -⟩ | ⟨e, e', hs, ht, -⟩
  · exact .refl _
  · have hs' : s.feed q = s := by simp [hs]
    have ht' : t.feed q = t := by simp [ht]
    rwa [hs', ht']

lemma Alike.trans {u : Scanner} (h : Alike s t) (h' : Alike t u) : Alike s u := by
  refine ⟨h.observer.trans h'.observer, h.limits.trans h'.limits, h.seen.trans h'.seen, fun hs => ?_⟩
  rcases h.cases with ⟨rfl, -⟩ | ⟨e, e', hsome, -⟩
  · exact h'.bytes hs
  · rw [hs] at hsome
    cases hsome

lemma finish_failed (h : s.err = some e) :
    s.finish.2 = .error e ∧ s.finish.1.core.events = s.core.events ∧
    s.finish.1.core.written = s.core.written := by
  simp [finish, h]

lemma newScanner_feed (limits : Limits) (o : Observer) (d : GoStr)
    (hd : (d.length : ℤ) ≤ (normalizeLimits limits).maxBytes) :
    (newScanner limits o).feed d =
      let r := scan o (normalizeLimits limits) 0 {} d
      { observer := o, limits := normalizeLimits limits, core := r.core, bytes := d.length,
        pending := r.pending, err := r.err } := by
  simp [newScanner, scan, not_lt.mpr hd]

/-- Two calls of `Feed` come to the same as one. -/
lemma newScanner_feed_feed (ho : o.Accepting) (limits : Limits) (d q : GoStr)
    (hbytes : ((d ++ q).length : ℤ) ≤ (normalizeLimits limits).maxBytes) :
    Alike (((newScanner limits o).feed d).feed q) ((newScanner limits o).feed (d ++ q)) := by
  have hd : (d.length : ℤ) ≤ (normalizeLimits limits).maxBytes := by
    simp only [length_append] at hbytes
    omega
  rw [newScanner_feed limits o d hd, newScanner_feed limits o (d ++ q) hbytes]
  have hseen : (scan o (normalizeLimits limits) 0 {} (d ++ q)).seen = _ := scan_append ho 0 {} d q
  have hpending : (scan o (normalizeLimits limits) 0 {} d).pending.length ≤ _ :=
    scan_pending_le ho 0 {} d
  generalize scan o (normalizeLimits limits) 0 {} d = r at hseen hpending ⊢
  obtain ⟨c, p, err⟩ := r
  cases err with
  | some e =>
    refine ⟨rfl, rfl, ?_, by simp⟩
    rw [hseen]
    rfl
  | none =>
    have hoff : d.length + q.length - (p ++ q).length = 0 + d.length - p.length := by simp; omega
    have hlong : ¬(normalizeLimits limits).maxBytes < ((d.length + q.length : ℕ) : ℤ) := by
      rw [← length_append]
      exact not_lt.mpr hbytes
    simp only [feed, if_neg hlong, hoff]
    refine ⟨rfl, rfl, ?_, fun _ => by simp⟩
    rw [hseen]
    rfl

/-- Any number of calls of `Feed` comes to the same as one. -/
lemma newScanner_feed_chunks (ho : o.Accepting) (limits : Limits) (chunks : List GoStr)
    (hbytes : (chunks.flatten.length : ℤ) ≤ (normalizeLimits limits).maxBytes) :
    Alike (chunks.foldl feed (newScanner limits o))
    ((newScanner limits o).feed chunks.flatten) := by
  induction chunks using reverseRecOn with
  | nil =>
    rw [flatten_nil, newScanner_feed limits o [] hbytes]
    exact .refl _
  | append_singleton chunks last ih =>
    rw [flatten_append, flatten_singleton] at hbytes ⊢
    have hfirst : (chunks.flatten.length : ℤ) ≤ (normalizeLimits limits).maxBytes := by
      simp only [length_append] at hbytes
      omega
    rw [foldl_append]
    exact ((ih hfirst).feed last).trans (newScanner_feed_feed ho limits chunks.flatten last hbytes)

/-- The result of a scan, with errors up to their class. -/
def report (r : Except ScanError Result) : Except ErrorClass Result :=
  r.mapError ScanError.errorClass

/-- However the input is cut, `Feed` and `Finish` report the same and raise the same events, and the
writers receive the same unless a string was refused as too long. -/
theorem feed_chunks_same (o : Observer) (ho : o.Accepting) (limits : Limits) (chunks : List GoStr)
    (hbytes : (chunks.flatten.length : ℤ) ≤ (normalizeLimits limits).maxBytes) :
    let cut := (chunks.foldl Scanner.feed (newScanner limits o)).finish
    let whole := ((newScanner limits o).feed chunks.flatten).finish
    report cut.2 = report whole.2 ∧ cut.1.core.events = whole.1.core.events ∧
      (cut.1.core.written = whole.1.core.written ∨ report whole.2 = .error (.guard .stringTooLong)) := by
  intro cut whole
  rcases (newScanner_feed_chunks ho limits chunks hbytes).cases with ⟨heq, -⟩ |
    ⟨e, e', hcut, hwhole, hclass, hevents, hwritten⟩
  · have hsame : cut = whole := congrArg finish heq
    rw [hsame]
    exact ⟨rfl, rfl, .inl rfl⟩
  · have hcut' : cut.2 = .error e ∧ cut.1.core.events = _ ∧ cut.1.core.written = _ :=
      finish_failed hcut
    have hwhole' : whole.2 = .error e' ∧ whole.1.core.events = _ ∧ whole.1.core.written = _ :=
      finish_failed hwhole
    rw [hcut'.1, hwhole'.1, hcut'.2.1, hwhole'.2.1, hcut'.2.2, hwhole'.2.2]
    exact ⟨congrArg Except.error hclass, hevents, hwritten.imp_right (congrArg Except.error)⟩

def recorder : Observer :=
  { handler := some fun _ _ => none, resolver := some fun _ _ => .ok .writer }

lemma recorder_accepting : recorder.Accepting where
  resolves := by simp [recorder]
  writes := by simp [recorder]

def cutDocument : List GoStr :=
  [lit "\x7b\"k\":[\"\\ud8", lit "3d\\", lit "ude00", [0xC3], [], [0xA9], lit "\",-1", lit "2e", lit "3]\x7d "]

theorem feed_chunks_same_document :
    let cut := (cutDocument.foldl Scanner.feed (newScanner requestEnvelopeLimits recorder)).finish
    report cut.2 = .ok ⟨31, 7, 2⟩ ∧ cut.1.core.written.map Prod.snd = [lit "😀é"] ∧
      cut.1.core.events = ((newScanner requestEnvelopeLimits recorder).feed
        cutDocument.flatten).finish.1.core.events := by
  have hsame := feed_chunks_same recorder recorder_accepting requestEnvelopeLimits cutDocument
    (by decide +kernel)
  refine ⟨hsame.1.trans ?_, ?_, hsame.2.1⟩
  · decide +kernel
  · decide +kernel

/-- Bytes are written before the length of the string is checked, so a string that is too long
leaves as much in the writer as the piece that crosses the limit holds. -/
theorem feed_chunks_written_differs :
    let limits := { requestEnvelopeLimits with maxStringBytes := 1 }
    let chunks := [lit "\"ab", lit "c\""]
    (chunks.flatten.length : ℤ) ≤ (normalizeLimits limits).maxBytes ∧
      (chunks.foldl Scanner.feed (newScanner limits recorder)).finish.1.core.written.map Prod.snd =
      [lit "ab"] ∧
      ((newScanner limits recorder).feed chunks.flatten).finish.1.core.written.map Prod.snd =
        [lit "abc"] := by
  decide +kernel

end InteractiveProxy.JsonShape
