import InteractiveProxy.JsonScalars
import InteractiveProxy.JsonScannerTurns
import Mathlib.Data.List.TakeWhile

/-! Strings in a scanner without observers: what has been collected of a string stands for the items
that have been read, and the scanner reads every item of the grammar. -/
namespace InteractiveProxy.JsonShape
open GoText Utf8Runes JsonGrammar List Decoding JsonShape.Core Observer StrChar

variable {limits : Limits}

def Frame.shape (f : Frame) : Bool × ℕ × List GoStr := (f.object, f.count, f.seen)

structure Books where
  frames : List (Bool × ℕ × List GoStr)
  tokens : ℕ
  maxDepth : ℕ
  rootValues : ℕ

def Core.books (c : Core) : Books := ⟨c.frames.map Frame.shape, c.tokens, c.maxDepth, c.rootValues⟩

@[simp] lemma Core.decoded_books (c : Core) (p : GoStr) : (c.decoded p).books = c.books := by
  obtain ⟨k, w, h⟩ := decoded_frame c p
  rw [h]
  rfl

def stringLimit (limits : Limits) (key : Bool) : ℤ :=
  if key then limits.maxKeyBytes else limits.maxStringBytes

/-- The scanner is in a string, a member name where `key` is set, of which it has collected `out`.
-/
structure Collects (key : Bool) (out : GoStr) (c : Core) : Prop where
  state : c.state = .inString
  isKey : c.strIsKey = key
  count : c.strDecoded = out.length
  buf : key → c.keyBuf = out

lemma Collects.decoded {key : Bool} {out : GoStr} {c : Core} (h : Collects key out c)
    (p : GoStr) : Collects key (out ++ p) (c.decoded p) where
  state := by simp [h.state]
  isKey := by simp [h.isKey]
  count := by simp [h.count]
  buf hkey := by rw [decoded_key c p (h.isKey.trans hkey), h.buf hkey]

variable {key : Bool} {out : GoStr} {c : Core}

section

variable (h : Collects key out c)
include h

lemma Collects.endEscape : Collects key out c.endEscape := ⟨h.state, h.isKey, h.count, h.buf⟩

lemma Collects.escape (e : Bool) (p : GoStr) :
    Collects key out { c with inEscape := e, escape := p } := ⟨h.state, h.isKey, h.count, h.buf⟩

lemma Collects.buffer (p : GoStr) : Collects key out { c with escape := p } :=
  ⟨h.state, h.isKey, h.count, h.buf⟩

/-- The limit looks at what has been collected. -/
lemma Collects.check :
    checkStringLimit limits c = .ok c ↔ (out.length : ℤ) ≤ stringLimit limits key := by
  cases key with
  | true =>
    simp only [checkStringLimit, h.isKey, h.buf rfl, if_true, stringLimit]
    split_ifs with hlong
    · simpa using hlong
    · simpa using hlong
  | false =>
    simp only [checkStringLimit, h.isKey, h.count, if_neg Bool.false_ne_true, stringLimit]
    split_ifs with hlong
    · simpa using hlong
    · simpa using hlong

end

variable {c c' : Core}

lemma Collects.check_ok (h : Collects key out c)
    (hcheck : checkStringLimit limits c = .ok c') :
    c' = c ∧ (out.length : ℤ) ≤ stringLimit limits key := by
  obtain rfl := checkStringLimit_ok hcheck
  exact ⟨rfl, h.check.mp hcheck⟩

lemma utf8_ascii (n : Fin 128) :
    String.utf8EncodeChar (Char.ofNat n.val) = [UInt8.ofNat n.val] := by
  revert n
  decide +kernel

variable {b : UInt8}

lemma unescaped_of_plain (h : isPlainAscii b) : ∃ x :
    Char, Unescaped x ∧ String.utf8EncodeChar x = [b] := by
  have hall : ∀ n : Fin 128, isPlainAscii (UInt8.ofNat n.val) → Unescaped (Char.ofNat n.val) := by
    decide +kernel
  have hlt : b.toNat < 128 := by
    simp only [isPlainAscii, Bool.and_eq_true, decide_eq_true_eq] at h
    exact h.1.1.2
  refine ⟨Char.ofNat b.toNat, hall ⟨b.toNat, hlt⟩ ?_, ?_⟩
  · simpa using h
  · have hbyte := utf8_ascii ⟨b.toNat, hlt⟩
    simpa using hbyte

lemma plain_run {p : GoStr} (hp : ∀ b ∈ p, isPlainAscii b) (hne : p ≠ []) :
    ∃ xs : List StrChar, utf8 (itemChars xs) = p ∧ ∀ d :
    Decoding, xs.foldl add d = ⟨d.flush ++ p, none⟩ := by
  induction p with
  | nil => exact absurd rfl hne
  | cons b p ih =>
    obtain ⟨x, hx, hbyte⟩ := unescaped_of_plain (hp b (by simp))
    cases p with
    | nil =>
      refine ⟨[.plain x hx], ?_, fun d => ?_⟩
      · simp [hbyte]
      · simp [hbyte]
    | cons b' p =>
      obtain ⟨xs, hxs, hadd⟩ := ih (fun y hy => hp y (mem_cons_of_mem b hy)) (by simp)
      refine ⟨.plain x hx :: xs, ?_, fun d => ?_⟩
      · rw [← hxs]
        simp [hbyte]
      · rw [foldl_cons, hadd]
        simp [hbyte]

variable {tail : GoStr}

lemma plain_rune {size : ℕ} (h : scanRune (b :: tail) = .good size) (hb : ¬b < 0x80) :
    ∃ xs : List StrChar, utf8 (itemChars xs) = (b :: tail).take size ∧
      ∀ d : Decoding, xs.foldl add d = ⟨d.flush ++ (b :: tail).take size, none⟩ := by
  have hhigh : 0x80 ≤ b.toNat := by
    simpa [UInt8.lt_iff_toNat_lt] using hb
  obtain ⟨x, hx, hbytes⟩ := char_of_scanRune h hhigh
  have hunescaped : Unescaped x := by
    refine ⟨?_, ?_, ?_⟩
    · exact le_trans (by decide) hx
    · rintro rfl
      exact absurd hx (by decide)
    · rintro rfl
      exact absurd hx (by decide)
  refine ⟨[.plain x hunescaped], ?_, fun d => ?_⟩
  · rw [← hbytes]
    simp
  · rw [← hbytes]
    simp

variable {stored : Option ScanError} {off size : ℕ}

lemma stringTurn_collects (h : Collects key out c)
    (hturn : stringTurn .silent limits off c b tail = .next c' size stored) :
    (b = 0x5C ∧ size = 1 ∧ c' = { c with inEscape := true, escape := [] }) ∨
      (b = 0x22 ∧ size = 1 ∧ endString .silent limits (off + 1) c = .ok c') ∨
      b ≠ 0x5C ∧ c' = c.decoded ((b :: tail).take size) ∧
        ((out ++ (b :: tail).take size).length : ℤ) ≤ stringLimit limits key ∧
        ∃ xs : List StrChar, utf8 (itemChars xs) = (b :: tail).take size ∧
          ∀ d : Decoding, xs.foldl add d = ⟨d.flush ++ (b :: tail).take size, none⟩ := by
  have hof : ∀ {n : ℕ} {s : Step}, Turn.of n s = .next c' size stored → s = .ok c' ∧ n = size := by
    intro n s hs
    cases s with
    | ok c1 =>
      cases hs
      exact ⟨rfl, rfl⟩
    | error e => cases hs
  unfold stringTurn at hturn
  by_cases hescape : b = 0x5C
  · rw [if_pos hescape] at hturn
    cases hturn
    exact .inl ⟨hescape, rfl, rfl⟩
  by_cases hquote : b = 0x22
  · rw [if_neg hescape, if_pos hquote] at hturn
    obtain ⟨hend, rfl⟩ := hof hturn
    exact .inr (.inl ⟨hquote, rfl, hend⟩)
  refine .inr (.inr ⟨hescape, ?_⟩)
  rw [if_neg hescape, if_neg hquote] at hturn
  by_cases hcontrol : b < 0x20
  · rw [if_pos hcontrol] at hturn
    cases hturn
  by_cases hascii : b < 0x80
  · rw [if_neg hcontrol, if_pos hascii] at hturn
    obtain ⟨hadd, rfl⟩ := hof hturn
    rw [addRun_accepting silent_accepting] at hadd
    obtain ⟨rfl, hfits⟩ := (h.decoded _).check_ok hadd
    have hself : (b :: tail).take ((b :: tail).takeWhile isPlainAscii).length =
        (b :: tail).takeWhile isPlainAscii :=
      prefix_iff_eq_take.mp (List.takeWhile_prefix _) |>.symm
    rw [hself]
    refine ⟨rfl, hfits, plain_run (fun y hy => mem_takeWhile_imp hy) ?_⟩
    simp [isPlainAscii_of hescape hquote hcontrol hascii]
  · rw [if_neg hcontrol, if_neg hascii] at hturn
    split at hturn
    · cases hturn
    · cases hturn
    rename_i n hscan
    obtain ⟨hadd, rfl⟩ := hof hturn
    rw [addRun_accepting silent_accepting] at hadd
    obtain ⟨rfl, hfits⟩ := (h.decoded _).check_ok hadd
    exact ⟨rfl, hfits, plain_rune hscan hascii⟩

inductive RawEscape : GoStr → Prop
  | none : RawEscape []
  | slash : RawEscape [0x5C]
  | unit (ds : GoStr) (h : ds.length < 4) : RawEscape (0x5C :: 0x75 :: ds)

variable {raw : GoStr}

lemma RawEscape.of_append (h : RawEscape (raw ++ [b])) :
    (raw = [] ∧ b = 0x5C) ∨ (raw = [0x5C] ∧ b = 0x75) ∨ ∃ ds, raw = 0x5C :: 0x75 :: ds ∧
    ds.length < 3 := by
  match raw with
  | [] =>
    cases h
    simp_all
  | [x] =>
    cases h
    simp_all
  | x :: y :: ds =>
    generalize hl : (x :: y :: ds ++ [b] : GoStr) = l at h
    cases h with
    | none => cases hl
    | slash => simp at hl
    | unit ds' hlen =>
      obtain ⟨rfl, rfl, rfl⟩ := hl
      exact .inr (.inr ⟨ds, rfl, by simp at hlen; omega⟩)

/-- The scanner is in a string of which the items have been read, and the bytes `raw` of an escape;
a half of a surrogate pair that waits is still in the escape buffer. -/
structure StrSim (limits : Limits) (key : Bool) (items : List StrChar) (raw : GoStr) (c : Core) :
    Prop where
  collects : Collects key (decoding items).out c
  fits : ((decoding items).out.length : ℤ) ≤ stringLimit limits key
  shape : RawEscape raw
  escape : match (decoding items).high with
    | none => raw = [] ∧ c.inEscape = false ∨ c.inEscape ∧ raw = 0x5C :: c.escape
    | some u => c.inEscape = true ∧ c.escape = 0x75 :: (utf8 u.chars ++ raw)

variable {items : List StrChar}

section

variable (hd : decoding items = ⟨out, none⟩) (hc : Collects key out c)
  (hfits : (out.length : ℤ) ≤ stringLimit limits key)

include hd hc hfits

lemma StrSim.of_closed (hescape : c.inEscape = false) : StrSim limits key items [] c where
  collects := by rwa [hd]
  fits := by rwa [hd]
  shape := .none
  escape := by
    rw [hd]
    exact .inl ⟨rfl, hescape⟩

lemma StrSim.of_open (hescape : c.inEscape) (hraw : raw = 0x5C :: c.escape)
    (hshape : RawEscape raw) : StrSim limits key items raw c where
  collects := by rwa [hd]
  fits := by rwa [hd]
  shape := hshape
  escape := by
    rw [hd]
    exact .inr ⟨hescape, hraw⟩

end

variable {u : CodeUnit} {c1 : Core} {e : Escape}

lemma StrSim.of_waiting (hd : decoding items = ⟨out, some u⟩) (hc : Collects key out c)
    (hfits : (out.length : ℤ) ≤ stringLimit limits key) (hescape : c.inEscape)
    (hbuf : c.escape = 0x75 :: (utf8 u.chars ++ raw)) (hshape : RawEscape raw) :
    StrSim limits key items raw c where
  collects := by rwa [hd]
  fits := by rwa [hd]
  shape := hshape
  escape := by
    rw [hd]
    exact ⟨hescape, hbuf⟩

lemma simpleEscapeStep_silent (b : UInt8) (c : Core) :
    simpleEscapeStep .silent b c = match simpleEscape b with
      | none => .error (malformed, c)
      | some x => .ok (c.decoded [x]).endEscape := by
  unfold simpleEscapeStep
  cases simpleEscape b with
  | none => rfl
  | some x =>
    simp only [addDecoded_accepting silent_accepting]
    rfl

lemma resolveUnit_silent (u : CodeUnit) (c : Core) : resolveUnit .silent u.value c =
      .ok (if u.High then c else (c.decoded (String.utf8EncodeChar u.alone)).endEscape) := by
  unfold resolveUnit
  by_cases hhigh : u.High
  · rw [if_pos ((isHighSurrogate_iff u).mpr hhigh), if_pos hhigh]
  rw [if_neg (mt (isHighSurrogate_iff u).mp hhigh), if_neg hhigh]
  by_cases hlow : u.Low
  · have halone : String.utf8EncodeChar u.alone = replacement := by
      rw [CodeUnit.alone, if_pos (.inr hlow)]
      rfl
    rw [if_pos ((isLowSurrogate_iff u).mpr hlow), addDecoded_accepting silent_accepting, encodeRune_error, halone]
    rfl
  · rw [if_neg (mt (isLowSurrogate_iff u).mp hlow), addDecoded_accepting silent_accepting, encodeRune_alone hhigh hlow]
    rfl

variable {b : UInt8} {c : Core} {ds : GoStr}

lemma escapeStep_first (hlen : c.escape.length = 1) : escapeStep .silent b c =
      if b = 0x75 then .ok (c, false)
      else
        match simpleEscape b with
        | none => .error (malformed, c)
        | some x => .ok ((c.decoded [x]).endEscape, false) := by
  simp only [escapeStep, hlen, simpleEscapeStep_silent]
  split_ifs
  · rfl
  · cases simpleEscape b <;> rfl

lemma escapeStep_digit (hlen : c.escape.length = 2 ∨ c.escape.length = 3 ∨ c.escape.length = 4 ∨
    c.escape.length = 8 ∨ c.escape.length = 9 ∨ c.escape.length = 10) :
    escapeStep .silent b c = .ok (c, false) := by
  rcases hlen with hlen | hlen | hlen | hlen | hlen | hlen <;> simp only [escapeStep, hlen]

lemma escapeStep_unit (hbuf : c.escape = 0x75 :: ds) (hlen : ds.length = 4) :
      escapeStep .silent b c = match parseHex ds with
      | none => .error (malformed, c)
      | some r => (resolveUnit .silent r c).map fun c => (c, false) := by
  have hall : c.escape.length = 5 := by rw [hbuf, length_cons, hlen]
  have hdigits : (c.escape.drop 1).take 4 = ds := by
    rw [hbuf, drop_succ_cons, drop_zero, take_of_length_le hlen.le]
  cases hparse : parseHex ds <;> simp only [escapeStep, hall, hdigits, hparse]

lemma escapeStep_six (hlen : c.escape.length = 6) : escapeStep .silent b c =
      if b = 0x5C then .ok (c, false) else .ok ((c.decoded replacement).endEscape, true) := by
  simp only [escapeStep, hlen, addDecoded_accepting silent_accepting]
  rfl

lemma escapeStep_seven (hlen : c.escape.length = 7) : escapeStep .silent b c =
      if b = 0x75 then .ok (c, false)
      else
        match simpleEscape b with
        | none => .error (malformed, { c.decoded replacement with escape := [b], inEscape := true })
        | some x =>
          .ok (({ c.decoded replacement with escape := [b], inEscape := true }.decoded [x]).endEscape, false) := by
  simp only [escapeStep, hlen, addDecoded_accepting silent_accepting]
  split_ifs
  · rfl
  · change Except.map _ (simpleEscapeStep _ _ _) = _
    rw [simpleEscapeStep_silent]
    cases simpleEscape b <;> rfl

lemma escapeStep_pair (hbuf : c.escape = 0x75 :: (utf8 u.chars ++ 0x5C :: 0x75 :: ds))
    (hlen : ds.length = 4) : escapeStep .silent b c =
      match parseHex ds with
      | none => .error (malformed, c)
      | some r =>
        if isLowSurrogate r then
        .ok ((c.decoded (encodeRune (combineSurrogates u.value r))).endEscape, false)
        else
          (resolveUnit .silent r { c.decoded replacement with escape := 0x75 :: ds }).map
          fun c => (c, false) := by
  obtain ⟨b1, b2, b3, b4, hbytes, hparse⟩ := parseHex_unit u
  rw [hbytes] at hbuf
  have hall : c.escape.length = 11 := by simp [hbuf, hlen]
  have hhigh : (c.escape.drop 1).take 4 = [b1, b2, b3, b4] := by simp [hbuf]
  have hdigits : (c.escape.drop 7).take 4 = ds := by simp [hbuf, hlen.le]
  have hdigits' : ((c.decoded replacement).escape.drop 7).take 4 = ds := by
    obtain ⟨k, w, hframe⟩ := decoded_frame c replacement
    rw [hframe]
    exact hdigits
  simp only [escapeStep, hall, hhigh, hparse, hdigits]
  cases parseHex ds with
  | none => rfl
  | some r =>
    simp only [addDecoded_accepting silent_accepting]
    split_ifs
    · rfl
    · change Except.map _ (resolveUnit _ _ { c.decoded replacement with
        escape := 0x75 :: ((c.decoded replacement).escape.drop 7).take 4 }) = _
      rw [hdigits']

lemma itemChars_append (xs ys : List StrChar) :
    itemChars (xs ++ ys) = itemChars xs ++ itemChars ys := flatMap_append

lemma decoding_append (xs ys : List StrChar) : decoding (xs ++ ys) = ys.foldl add (decoding xs) :=
  foldl_append

lemma utf8_short (h : String.utf8EncodeChar e.letter = [b]) : utf8 (short e).chars = [0x5C, b] := by
  have hslash : String.utf8EncodeChar '\\' = [0x5C] := by decide
  simp [h, hslash]

lemma utf8_unit (u : CodeUnit) : utf8 (unit u).chars = 0x5C :: 0x75 :: utf8 u.chars := by
  have hslash : String.utf8EncodeChar '\\' = [0x5C] := by decide
  have hletter : String.utf8EncodeChar 'u' = [0x75] := by decide
  simp [hslash, hletter]

lemma utf8_snoc (items : List StrChar) (x : StrChar) :
    utf8 (itemChars (items ++ [x])) = utf8 (itemChars items) ++ utf8 x.chars := by
  simp

/-- The byte takes the scanner to `c'`, whatever comes behind it. -/
def Moves (limits : Limits) (c : Core) (b : UInt8) (c' : Core) : Prop :=
  ∀ off tail, turn .silent limits off c b tail = .next c' 1 none

def Refuses (limits : Limits) (c : Core) (b : UInt8) : Prop :=
  ∀ off tail c' size stored, turn .silent limits off c b tail ≠ .next c' size stored

def Completes (limits : Limits) (key : Bool) (items : List StrChar) (c : Core) (b : UInt8) : Prop :=
  if ((decoding items).out.length : ℤ) ≤ stringLimit limits key then
    ∃ c', Moves limits c b c' ∧ StrSim limits key items [] c' ∧ c'.books = c.books
  else Refuses limits c b

section

variable (hstate : c.state = .inString) (hescape : c.inEscape = true)

include hstate hescape

lemma turn_inEscape (off : ℕ) (b : UInt8) (tail : GoStr) :
    turn .silent limits off c b tail = escapeTurn .silent limits off c b tail := by
  simp [turn, hstate, hescape]

lemma escape_moves (hstep : escapeStep .silent b { c with escape := c.escape ++ [b] } = .ok (c1, false))
    (hcheck : checkStringLimit limits c1 = .ok c1) : Moves limits c b c1 := by
  intro off tail
  simp [turn_inEscape hstate hescape, escapeTurn, hstep, hcheck]

lemma escape_refuses (hstep : ∀ r, escapeStep .silent b { c with escape := c.escape ++ [b] } ≠ .ok r) :
    Refuses limits c b := by
  intro off tail c' size stored
  simp only [turn_inEscape hstate hescape, escapeTurn]
  cases hr : escapeStep .silent b { c with escape := c.escape ++ [b] } with
  | ok r => exact absurd hr (hstep r)
  | error e => simp

end

lemma completes_of_step (hd : (decoding items).out = out) (hstate : c.state = .inString)
    (hescape : c.inEscape)
    (hstep : escapeStep .silent b { c with escape := c.escape ++ [b] } = .ok (c1, false))
    (hc : Collects key out c1)
    (hbooks : c1.books = c.books)
      (hsim : (out.length : ℤ) ≤ stringLimit limits key → StrSim limits key items [] c1) :
    Completes limits key items c b := by
  unfold Completes
  rw [hd]
  split_ifs with hfits
  · exact ⟨c1, escape_moves hstate hescape hstep (hc.check.mpr hfits), hsim hfits, hbooks⟩
  intro off tail c' size stored
  simp only [turn_inEscape hstate hescape, escapeTurn, hstep]
  cases hcheck : checkStringLimit limits c1 with
  | ok c2 =>
    obtain rfl := checkStringLimit_ok hcheck
    exact absurd (hc.check.mp hcheck) hfits
  | error e => simp

lemma completes_start (hd : decoding (items ++ [.unit u]) = start out u)
    (hstate : c.state = .inString) (hescape : c.inEscape)
    (hstep : escapeStep .silent b { c with escape := c.escape ++ [b] } =
      (resolveUnit .silent u.value c1).map fun c => (c, false))
    (hc : Collects key out c1) (hbooks : c1.books = c.books) (hescape1 : c1.inEscape)
    (hbuf : c1.escape = 0x75 :: utf8 u.chars) : Completes limits key (items ++ [.unit u]) c b := by
  rw [resolveUnit_silent] at hstep
  unfold start at hd
  split_ifs at hstep hd
  · exact completes_of_step (by rw [hd]) hstate hescape hstep hc hbooks fun hfits =>
      .of_waiting hd hc hfits hescape1 (by simpa using hbuf) .none
  · have hc' := (hc.decoded (String.utf8EncodeChar u.alone)).endEscape
    exact completes_of_step (by rw [hd]) hstate hescape hstep hc' ((decoded_books _ _).trans hbooks)
        fun hfits => .of_closed hd hc' hfits rfl

lemma decoding_high (hd : decoding items = ⟨out, some u⟩) : u.High := by
  cases items using reverseRecOn with
  | nil => cases hd
  | append_singleton items x =>
    have hmem : u ∈ ((decoding items).add x).high := by
      rw [← decoding_snoc, hd]
      rfl
    exact add_high hmem

lemma StrSim.cases (h : StrSim limits key items raw c) :
    (∃ out, decoding items = ⟨out, none⟩ ∧ Collects key out c ∧ (out.length : ℤ) ≤ stringLimit limits key ∧
        (raw = [] ∧ c.inEscape = false ∨ c.inEscape ∧ raw = 0x5C :: c.escape)) ∨
      ∃ out u, decoding items = ⟨out, some u⟩ ∧ u.High ∧ Collects key out c ∧
        (out.length : ℤ) ≤ stringLimit limits key ∧ c.inEscape ∧
        c.escape = 0x75 :: (utf8 u.chars ++ raw) := by
  obtain ⟨hc, hfits, -, hescape⟩ := h
  cases hd : decoding items with
  | mk out high =>
    rw [hd] at hc hfits hescape
    cases high with
    | none => exact .inl ⟨out, rfl, hc, hfits, hescape⟩
    | some u => exact .inr ⟨out, u, rfl, decoding_high hd, hc, hfits, hescape⟩

@[simp] lemma utf8_unit_length (u : CodeUnit) : (utf8 u.chars).length = 4 := by
  obtain ⟨b1, b2, b3, b4, hbytes, -⟩ := parseHex_unit u
  simp [hbytes]

/-- The letter of a short escape. -/
lemma StrSim.short (h : StrSim limits key items [0x5C] c) {x : UInt8} (hb : b ≠ 0x75)
    (hsimple : simpleEscape b = some x) (hchar : String.utf8EncodeChar e.char = [x]) :
    Completes limits key (items ++ [.short e]) c b := by
  rcases h.cases
    with ⟨out, hd, hc, -, ⟨hraw, -⟩ | ⟨hescape, hraw⟩⟩ | ⟨out, u, hd, -, hc, -, hescape, hbuf⟩
  · cases hraw
  · have hbuf : c.escape = [] := by simpa using hraw.symm
    have hd' : decoding (items ++ [.short e]) = ⟨out ++ [x], none⟩ := by
      rw [decoding_snoc, hd]
      simp [hchar]
    have hc' := ((hc.buffer (c.escape ++ [b])).decoded [x]).endEscape
    refine completes_of_step (by rw [hd']) hc.state hescape ?_ hc' (decoded_books _ _) fun hfits =>
      .of_closed hd' hc' hfits rfl
    rw [escapeStep_first (by simp [hbuf]), if_neg hb, hsimple]
  · have hd' : decoding (items ++ [.short e]) = ⟨out ++ replacement ++ [x], none⟩ := by
      rw [decoding_snoc, hd]
      simp [hchar]
    have hc' :=
      ((((hc.buffer (c.escape ++ [b])).decoded replacement).escape true [b]).decoded [x]).endEscape
    refine completes_of_step (by rw [hd']) hc.state hescape ?_ hc'
      ((decoded_books _ _).trans (decoded_books _ _)) fun hfits => .of_closed hd' hc' hfits rfl
    rw [escapeStep_seven (by simp [hbuf]), if_neg hb, hsimple]

/-- The last digit of a code unit. -/
lemma StrSim.unit {ds : GoStr}
    (h : StrSim limits key items (0x5C :: 0x75 :: ds) c) (hu : utf8 u.chars = ds ++ [b]) :
    Completes limits key (items ++ [.unit u]) c b := by
  obtain ⟨b1, b2, b3, b4, hbytes, hparse⟩ := parseHex_unit u
  rw [← hbytes, hu] at hparse
  have hlen : (ds ++ [b]).length = 4 := by rw [← hu, utf8_unit_length]
  rcases h.cases
    with ⟨out, hd, hc, -, ⟨hraw, -⟩ | ⟨hescape, hraw⟩⟩ | ⟨out, w, hd, hhigh, hc, -, hescape, hbuf⟩
  · cases hraw
  · have hbuf : c.escape ++ [b] = 0x75 :: (ds ++ [b]) := by
      rw [← (cons.inj hraw).2]
      rfl
    have hd' : decoding (items ++ [.unit u]) = start out u := by
      rw [decoding_snoc, hd]
      rfl
    refine completes_start hd' hc.state hescape ?_ (hc.buffer (c.escape ++ [b])) rfl hescape
      (by rw [hu]; exact hbuf)
    rw [escapeStep_unit hbuf hlen, hparse]
  · have hbuf' : c.escape ++ [b] = 0x75 :: (utf8 w.chars ++ 0x5C :: 0x75 :: (ds ++ [b])) := by
      rw [hbuf]
      simp
    by_cases hlow : u.Low
    · have hd' :
          decoding (items ++ [.unit u]) = ⟨out ++ String.utf8EncodeChar (w.pair u), none⟩ := by
        rw [decoding_snoc, hd]
        simp [hlow]
      have hc' :=
        ((hc.buffer (c.escape ++ [b])).decoded (String.utf8EncodeChar (w.pair u))).endEscape
      refine completes_of_step (by rw [hd']) hc.state hescape ?_ hc' (decoded_books _ _) fun hfits =>
        .of_closed hd' hc' hfits rfl
      rw [escapeStep_pair hbuf' hlen]
      simp only [hparse, if_pos ((isLowSurrogate_iff u).mpr hlow), encodeRune_pair hhigh hlow]
    · have hd' : decoding (items ++ [.unit u]) = start (out ++ replacement) u := by
        rw [decoding_snoc, hd]
        simp [hlow]
      have hc' := ((hc.buffer (c.escape ++ [b])).decoded replacement).buffer (0x75 :: (ds ++ [b]))
      refine completes_start hd' hc.state hescape ?_ hc' (decoded_books _ _)
        (by simp [hescape]) (by rw [hu])
      rw [escapeStep_pair hbuf' hlen]
      simp only [hparse, if_neg (mt (isLowSurrogate_iff u).mp hlow)]

lemma StrSim.short_refused (h : StrSim limits key items [0x5C] c)
    (hb : b ≠ 0x75) (hsimple : simpleEscape b = none) : Refuses limits c b := by
  rcases h.cases
    with ⟨out, hd, hc, -, ⟨hraw, -⟩ | ⟨hescape, hraw⟩⟩ | ⟨out, u, hd, -, hc, -, hescape, hbuf⟩
  · cases hraw
  · have hbuf : c.escape = [] := by simpa using hraw.symm
    refine escape_refuses hc.state hescape fun r => ?_
    rw [escapeStep_first (by simp [hbuf]), if_neg hb, hsimple]
    simp
  · refine escape_refuses hc.state hescape fun r => ?_
    rw [escapeStep_seven (by simp [hbuf]), if_neg hb, hsimple]
    simp

lemma StrSim.unit_refused {ds : GoStr}
    (h : StrSim limits key items (0x5C :: 0x75 :: ds) c) (hlen : (ds ++ [b]).length = 4)
    (hparse : parseHex (ds ++ [b]) = none) : Refuses limits c b := by
  rcases h.cases
    with ⟨out, hd, hc, -, ⟨hraw, -⟩ | ⟨hescape, hraw⟩⟩ | ⟨out, w, hd, -, hc, -, hescape, hbuf⟩
  · cases hraw
  · have hbuf : c.escape ++ [b] = 0x75 :: (ds ++ [b]) := by
      rw [← (cons.inj hraw).2]
      rfl
    refine escape_refuses hc.state hescape fun r => ?_
    rw [escapeStep_unit hbuf hlen, hparse]
    simp
  · have hbuf' : c.escape ++ [b] = 0x75 :: (utf8 w.chars ++ 0x5C :: 0x75 :: (ds ++ [b])) := by
      rw [hbuf]
      simp
    refine escape_refuses hc.state hescape fun r => ?_
    rw [escapeStep_pair hbuf' hlen, hparse]
    simp

lemma StrSim.extend (h : StrSim limits key items raw c) (hshape : RawEscape (raw ++ [b])) :
    ∃ c', Moves limits c b c' ∧ StrSim limits key items (raw ++ [b]) c' ∧ c'.books = c.books := by
  have hmoves : ∀ {out : GoStr}, Collects key out c → (out.length : ℤ) ≤ stringLimit limits key →
      c.inEscape = true →
      escapeStep .silent b { c with escape := c.escape ++ [b] } =
        .ok ({ c with escape := c.escape ++ [b] }, false) →
      Moves limits c b { c with escape := c.escape ++ [b] } := fun hc hfits hescape hstep =>
    escape_moves hc.state hescape hstep ((hc.buffer _).check.mpr hfits)
  rcases h.cases with ⟨out, hd, hc, hfits, ⟨rfl, hescape⟩ | ⟨hescape, hraw⟩⟩ |
    ⟨out, u, hd, -, hc, hfits, hescape, hbuf⟩
  · obtain rfl : b = 0x5C := by simpa using hshape.of_append
    refine ⟨{ c with inEscape := true, escape := [] }, fun off tail => ?_, ?_, rfl⟩
    · rw [turn_inString hc.state hescape]
      rfl
    · exact .of_open hd (hc.escape _ _) hfits rfl rfl hshape
  · have hsim : StrSim limits key items (raw ++ [b]) { c with escape := c.escape ++ [b] } :=
      .of_open hd (hc.buffer _) hfits hescape (by rw [hraw]; rfl) hshape
    refine ⟨_, hmoves hc hfits hescape ?_, hsim, rfl⟩
    rcases hshape.of_append with ⟨rfl, -⟩ | ⟨rfl, rfl⟩ | ⟨ds, rfl, hlen⟩
    · cases hraw
    · have hbuf : c.escape = [] := by simpa using hraw.symm
      rw [escapeStep_first (by simp [hbuf]), if_pos rfl]
    · have hbuf : c.escape.length = ds.length + 1 := by rw [← (cons.inj hraw).2, length_cons]
      exact escapeStep_digit (by simp only [length_append, length_singleton]; omega)
  · have hsim : StrSim limits key items (raw ++ [b]) { c with escape := c.escape ++ [b] } :=
      .of_waiting hd (hc.buffer _) hfits hescape (by simp [hbuf]) hshape
    refine ⟨_, hmoves hc hfits hescape ?_, hsim, rfl⟩
    have hlen : c.escape.length = raw.length + 5 := by
      simp only [hbuf, length_cons, length_append, utf8_unit_length]
      omega
    rcases hshape.of_append with ⟨rfl, rfl⟩ | ⟨rfl, rfl⟩ | ⟨ds, rfl, hds⟩
    · rw [escapeStep_six (by simp [hlen]), if_pos rfl]
    · rw [escapeStep_seven (by simp [hlen]), if_pos rfl]
    · exact escapeStep_digit (by simp only [length_append, length_cons, length_nil, hlen]; omega)

/-- Outside an escape, or with a half of a pair that the next byte gives up, the scanner is where it
would be if nothing had waited. -/
lemma StrSim.settle (h : StrSim limits key items [] c) (hb : b ≠ 0x5C) :
    ∃ c1, Collects key (decoding items).flush c1 ∧ c1.inEscape = false ∧ c1.books = c.books ∧
      if ((decoding items).flush.length : ℤ) ≤ stringLimit limits key then
        ∀ off tail, turn .silent limits off c b tail = stringTurn .silent limits off c1 b tail
      else Refuses limits c b := by
  rcases h.cases
    with ⟨out, hd, hc, hfits, ⟨-, hescape⟩ | ⟨-, hraw⟩⟩ | ⟨out, u, hd, -, hc, hfits, hescape, hbuf⟩
  · have hflush : (decoding items).flush = out := by simp [hd]
    refine ⟨c, by rwa [hflush], hescape, rfl, ?_⟩
    rw [hflush, if_pos hfits]
    exact fun off tail => turn_inString hc.state hescape off b tail
  · cases hraw
  · have hflush : (decoding items).flush = out ++ replacement := by simp [hd]
    have hc' := ((hc.buffer (c.escape ++ [b])).decoded replacement).endEscape
    have hstep : escapeStep .silent b { c with escape := c.escape ++ [b] } =
        .ok (({ c with escape := c.escape ++ [b] }.decoded replacement).endEscape, true) := by
      rw [escapeStep_six (by simp [hbuf]), if_neg hb]
    refine ⟨({ c with escape := c.escape ++ [b] }.decoded replacement).endEscape,
      by rw [hflush]; exact hc', rfl, decoded_books _ _, ?_⟩
    rw [hflush]
    split_ifs with hlong
    · intro off tail
      simp [turn_inEscape hc.state hescape, escapeTurn, hstep, hc'.check.mpr hlong]
    · intro off tail c' size stored
      simp only [turn_inEscape hc.state hescape, escapeTurn, hstep]
      cases hcheck : checkStringLimit limits ({ c with escape := c.escape ++ [b] }.decoded replacement).endEscape with
      | ok c2 =>
        obtain rfl := checkStringLimit_ok hcheck
        exact absurd (hc'.check.mp hcheck) hlong
      | error e => simp

def StrGoes (limits : Limits) (key : Bool) (items : List StrChar) (raw p : GoStr) (c c' : Core) :
    Prop :=
  ∃ items' raw', StrSim limits key items' raw' c' ∧ c'.books = c.books ∧
    utf8 (itemChars items') ++ raw' = utf8 (itemChars items) ++ raw ++ p

/-- The string ends with a quote, once `c₁` has collected all of it. -/
def StrEnds (limits : Limits) (key : Bool) (items : List StrChar) (raw p : GoStr) (off : ℕ)
    (c c' : Core) : Prop :=
  ∃ c₁, p = [0x22] ∧ raw = [] ∧ Collects key (decodedBytes items) c₁ ∧ c₁.books = c.books ∧
    ((decodedBytes items).length : ℤ) ≤ stringLimit limits key ∧
    endString .silent limits (off + 1) c₁ = .ok c'

lemma Moves.next {c'' : Core}
    (h : Moves limits c b c') (hturn : turn .silent limits off c b tail = .next c'' size stored) :
    c'' = c' ∧ (b :: tail).take size = [b] := by
  rw [h off tail] at hturn
  cases hturn
  exact ⟨rfl, rfl⟩

/-- An item is complete with the byte. -/
lemma Completes.goes {x : StrChar} (h : Completes limits key (items ++ [x]) c b)
    (hx : utf8 x.chars = raw ++ [b])
    (hturn : turn .silent limits off c b tail = .next c' size stored) :
    StrGoes limits key items raw ((b :: tail).take size) c c' := by
  unfold Completes at h
  split_ifs at h
  · obtain ⟨c1, hmoves, hsim, hbooks⟩ := h
    obtain ⟨rfl, htake⟩ := hmoves.next hturn
    refine ⟨items ++ [x], [], hsim, hbooks, ?_⟩
    rw [htake, utf8_snoc, hx]
    simp
  · exact absurd hturn (h _ _ _ _ _)

lemma stringTurn_grammar {c0 : Core}
    (hc : Collects key (decoding items).flush c)
    (hfits : ((decoding items).flush.length : ℤ) ≤ stringLimit limits key)
    (hbooks : c.books = c0.books) (hescape : c.inEscape = false) (hb : b ≠ 0x5C)
    (hturn : stringTurn .silent limits off c b tail = .next c' size stored) :
    StrGoes limits key items [] ((b :: tail).take size) c0 c' ∨
      StrEnds limits key items [] ((b :: tail).take size) off c0 c' := by
  rcases stringTurn_collects hc hturn
    with ⟨rfl, -⟩ | ⟨rfl, rfl, hend⟩ | ⟨-, rfl, hlong, xs, hxs, hadd⟩
  · exact absurd rfl hb
  · exact .inr ⟨c, rfl, rfl, by rwa [← decoding_flush], hbooks, by rwa [← decoding_flush], hend⟩
  refine .inl ⟨items ++ xs, [], .of_closed ?_ (hc.decoded _) hlong ?_, ?_, ?_⟩
  · rw [decoding_append, hadd]
  · simp [hescape]
  · rw [decoded_books, hbooks]
  · rw [itemChars_append, utf8_append, hxs]
    simp

lemma StrSim.turn_sound (h : StrSim limits key items raw c)
    (hturn : turn .silent limits off c b tail = .next c' size stored) :
    StrGoes limits key items raw ((b :: tail).take size) c c' ∨
      StrEnds limits key items raw ((b :: tail).take size) off c c' := by
  -- the byte extends the escape, completes an item, or stands outside an escape
  by_cases hshape : RawEscape (raw ++ [b])
  · obtain ⟨c1, hmoves, hsim, hbooks⟩ := h.extend hshape
    obtain ⟨rfl, htake⟩ := hmoves.next hturn
    exact .inl ⟨items, raw ++ [b], hsim, hbooks, by rw [htake, append_assoc]⟩
  cases h.shape with
  | none =>
    have hb : b ≠ 0x5C := by
      rintro rfl
      exact hshape .slash
    obtain ⟨c1, hc, hescape, hbooks, hif⟩ := h.settle hb
    split_ifs at hif with hfits
    · rw [hif off tail] at hturn
      exact stringTurn_grammar hc hfits hbooks hescape hb hturn
    · exact absurd hturn (hif _ _ _ _ _)
  | slash =>
    have hb : b ≠ 0x75 := by
      rintro rfl
      exact hshape (.unit [] (by simp))
    cases hsimple : simpleEscape b with
    | some x =>
      obtain ⟨e, hletter, hchar⟩ := simpleEscape_some hsimple
      exact .inl ((h.short hb hsimple hchar).goes (utf8_short hletter) hturn)
    | none => exact absurd hturn (h.short_refused hb hsimple _ _ _ _ _)
  | unit ds hlen =>
    have hlast : (ds ++ [b]).length = 4 := by
      by_contra hne
      exact hshape (.unit (ds ++ [b]) (by simp at hne ⊢; omega))
    cases hparse : parseHex (ds ++ [b]) with
    | some r =>
      obtain ⟨u, hu, -⟩ := parseHex_some hlast hparse
      exact .inl ((h.unit hu).goes (by rw [utf8_unit, hu]; rfl) hturn)
    | none => exact absurd hturn (h.unit_refused hlast hparse _ _ _ _ _)

end InteractiveProxy.JsonShape
