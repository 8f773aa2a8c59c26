import InteractiveProxy.JsonGrammar
import InteractiveProxy.JsonScanner
import Mathlib.Tactic.FinCases

/-! Numbers and the contents of strings: the states of the scanner against the grammar. -/
namespace InteractiveProxy.JsonShape
open GoText Utf8Runes JsonGrammar List Number UInt8

lemma utf8_digit (d : Fin 10) : String.utf8EncodeChar (digitChar d) = [ofNat (0x30 + d.val)] := by
  revert d
  decide

lemma isDigit_digit (d : Fin 10) : isDigit (ofNat (0x30 + d.val)) := by
  revert d
  decide

variable {b : UInt8} {t : List Char} {p : GoStr} {st' : NumState}

lemma ofNat_offset {k : ℕ} (h : k ≤ b.toNat) : ofNat (k + (b.toNat - k)) = b := by
  rw [Nat.add_sub_cancel' h, UInt8.ofNat_toNat]

lemma digit_of_isDigit (h : isDigit b) : ∃ d :
    Fin 10, String.utf8EncodeChar (digitChar d) = [b] := by
  simp only [isDigit, Bool.and_eq_true, decide_eq_true_eq] at h
  obtain ⟨hlow, hhigh⟩ : 48 ≤ b.toNat ∧ b.toNat ≤ 57 := h
  exact ⟨⟨b.toNat - 0x30, by omega⟩, by rw [utf8_digit, ofNat_offset hlow]⟩

lemma nonzero_of_isDigit (h : isDigit b) (hzero : b ≠ 0x30) :
    ∃ d : Fin 9, String.utf8EncodeChar (digitChar d.succ) = [b] := by
  obtain ⟨d, hd⟩ := digit_of_isDigit h
  cases d using Fin.cases with
  | zero =>
    exact absurd (cons.inj hd).1.symm hzero
  | succ d => exact ⟨d, hd⟩

@[simp] lemma encode_openArray : String.utf8EncodeChar '[' = [0x5B] := by decide
@[simp] lemma encode_closeArray : String.utf8EncodeChar ']' = [0x5D] := by decide
@[simp] lemma encode_openObject : String.utf8EncodeChar '\x7b' = [0x7B] := by decide
@[simp] lemma encode_closeObject : String.utf8EncodeChar '\x7d' = [0x7D] := by decide
@[simp] lemma encode_comma : String.utf8EncodeChar ',' = [0x2C] := by decide
@[simp] lemma encode_colon : String.utf8EncodeChar ':' = [0x3A] := by decide
@[simp] lemma encode_quote : String.utf8EncodeChar '"' = [0x22] := by decide
@[simp] lemma blankChars_nil : blankChars [] = [] := rfl
@[simp] lemma itemChars_nil : itemChars [] = [] := rfl

lemma isWhitespace_blank (w : Blank) :
    ∃ b, String.utf8EncodeChar w.char = [b] ∧ isWhitespace b := by
  refine ⟨ofNat w.char.val.toNat, ?_, ?_⟩ <;> cases w <;> decide

lemma blank_of_isWhitespace (h : isWhitespace b) : ∃ w :
    Blank, String.utf8EncodeChar w.char = [b] := by
  simp only [isWhitespace, Bool.or_eq_true, beq_iff_eq, or_assoc] at h
  rcases h with rfl | rfl | rfl | rfl
  · exact ⟨.space, by decide⟩
  · exact ⟨.tab, by decide⟩
  · exact ⟨.carriageReturn, by decide⟩
  · exact ⟨.lineFeed, by decide⟩

@[simp] def signChars (minus : Bool) : List Char := if minus then ['-'] else []

def exponentMark (upper : Bool) : Char := if upper then 'E' else 'e'

inductive NumPrefix : NumState → List Char → Prop
  | minus : NumPrefix .minus ['-']
  | zero (m : Bool) : NumPrefix .zero (signChars m ++ Whole.zero.chars)
  | int (m : Bool) (first : Fin 9) (rest : List (Fin 10)) :
      NumPrefix .int (signChars m ++ (Whole.digits first rest).chars)
  | dot (m : Bool) (w : Whole) : NumPrefix .dot (signChars m ++ w.chars ++ ['.'])
  | frac (m : Bool) (w : Whole) (ds : Digits) :
    NumPrefix .frac (signChars m ++ w.chars ++ fracChars (some ds))
  | exp (m : Bool) (w : Whole) (fr : Option Digits) (upper : Bool) :
      NumPrefix .exp (signChars m ++ w.chars ++ fracChars fr ++ [exponentMark upper])
  | expSign (m : Bool) (w : Whole) (fr : Option Digits) (upper : Bool) (s : Sign) :
      NumPrefix .expSign (signChars m ++ w.chars ++ fracChars fr ++ [exponentMark upper, s.char])
  | expDigits (m : Bool) (w : Whole) (fr : Option Digits) (e : Exponent) :
      NumPrefix .expDigits (signChars m ++ w.chars ++ fracChars fr ++ e.chars)

/-- A number that may end is a number of the grammar. -/
lemma NumPrefix.number {st : NumState} (h : NumPrefix st t) (hst : st.complete) : ∃ n :
    Number, n.chars = t := by
  cases h with
  | minus | dot | exp | expSign => cases hst
  | zero m => exact ⟨⟨m, .zero, none, none⟩, by simp [chars]⟩
  | int m first rest =>
    exact ⟨⟨m, .digits first rest, none, none⟩, by simp [chars]⟩
  | frac m w ds => exact ⟨⟨m, w, some ds, none⟩, by simp [chars]⟩
  | expDigits m w fr e => exact ⟨⟨m, w, fr, some e⟩, by simp [chars]⟩

lemma mark_of_byte (h : b = 0x65 ∨ b = 0x45) :
    ∃ upper, String.utf8EncodeChar (exponentMark upper) = [b] := by
  rcases h with rfl | rfl
  · exact ⟨false, by decide⟩
  · exact ⟨true, by decide⟩

lemma sign_of_byte (h : b = 0x2B ∨ b = 0x2D) : ∃ s : Sign, String.utf8EncodeChar s.char = [b] := by
  rcases h with rfl | rfl
  · exact ⟨.plus, by decide⟩
  · exact ⟨.minus, by decide⟩

/-- A byte that a number goes on with. -/
lemma NumPrefix.step {st : NumState} (h : NumPrefix st t) (hmove : numMove st b = .next st') :
    ∃ x : Char, String.utf8EncodeChar x = [b] ∧ NumPrefix st' (t ++ [x]) := by
  have hpoint : String.utf8EncodeChar '.' = [0x2E] := by decide
  cases h <;> simp only [numMove] at hmove
  case minus =>
    split_ifs at hmove with hzero hdigit <;> cases hmove
    · exact ⟨'0', by rw [hzero]; decide, .zero true⟩
    · obtain ⟨d, hd⟩ := nonzero_of_isDigit hdigit hzero
      exact ⟨_, hd, .int true d []⟩
  case zero m =>
    split_ifs at hmove with hdot hexp <;> cases hmove
    · exact ⟨'.', by rw [hdot, hpoint], .dot m .zero⟩
    · obtain ⟨upper, hupper⟩ := mark_of_byte hexp
      exact ⟨_, hupper, by simpa using NumPrefix.exp m .zero none upper⟩
  case int m first rest =>
    split_ifs at hmove with hdigit hdot hexp <;> cases hmove
    · obtain ⟨d, hd⟩ := digit_of_isDigit hdigit
      exact ⟨_, hd, by simpa [Whole.chars] using NumPrefix.int m first (rest ++ [d])⟩
    · exact ⟨'.', by rw [hdot, hpoint], .dot m (.digits first rest)⟩
    · obtain ⟨upper, hupper⟩ := mark_of_byte hexp
      exact ⟨_, hupper, by simpa using NumPrefix.exp m (.digits first rest) none upper⟩
  case dot m w =>
    split_ifs at hmove with hdigit
    cases hmove
    obtain ⟨d, hd⟩ := digit_of_isDigit hdigit
    exact ⟨_, hd, by simpa using NumPrefix.frac m w ⟨d, []⟩⟩
  case frac m w ds =>
    split_ifs at hmove with hdigit hexp <;> cases hmove
    · obtain ⟨d, hd⟩ := digit_of_isDigit hdigit
      exact ⟨_, hd, by simpa using NumPrefix.frac m w ⟨ds.first, ds.rest ++ [d]⟩⟩
    · obtain ⟨upper, hupper⟩ := mark_of_byte hexp
      exact ⟨_, hupper, .exp m w (some ds) upper⟩
  case exp m w fr upper =>
    split_ifs at hmove with hsign hdigit <;> cases hmove
    · obtain ⟨s, hs⟩ := sign_of_byte hsign
      exact ⟨_, hs, by simpa using NumPrefix.expSign m w fr upper s⟩
    · obtain ⟨d, hd⟩ := digit_of_isDigit hdigit
      exact ⟨_, hd, by
        simpa [exponentMark] using NumPrefix.expDigits m w fr ⟨upper, none, ⟨d, []⟩⟩⟩
  case expSign m w fr upper s =>
    split_ifs at hmove with hdigit
    cases hmove
    obtain ⟨d, hd⟩ := digit_of_isDigit hdigit
    exact ⟨_, hd, by
      simpa [exponentMark] using NumPrefix.expDigits m w fr ⟨upper, some s, ⟨d, []⟩⟩⟩
  case expDigits m w fr e =>
    split_ifs at hmove with hdigit
    cases hmove
    obtain ⟨d, hd⟩ := digit_of_isDigit hdigit
    exact ⟨_, hd, by
      simpa using
        NumPrefix.expDigits m w fr ⟨e.upper, e.sign, ⟨e.digits.first, e.digits.rest ++ [d]⟩⟩⟩

def numStart (b : UInt8) : Option NumState :=
  if b = 0x2D then some .minus else if b = 0x30 then some .zero else if isDigit b then some .int
  else none

def numSteps : NumState → GoStr → Option NumState
  | st, [] => some st
  | st, b :: rest =>
    match numMove st b with
    | .next st' => numSteps st' rest
    | .bad | .stop => none

lemma numSteps_append {st : NumState} (h : numSteps st p = some st') (q : GoStr) :
    numSteps st (p ++ q) = numSteps st' q := by
  induction p generalizing st with
  | nil =>
    cases h
    rfl
  | cons b rest ih =>
    simp only [numSteps, cons_append] at h ⊢
    split at h
    · exact ih h
    · cases h
    · cases h

def numRun : GoStr → Option NumState
  | [] => none
  | b :: rest => (numStart b).bind fun st => numSteps st rest

variable {st : NumState}

lemma numRun_append (h : numRun p = some st) (q : GoStr) : numRun (p ++ q) = numSteps st q := by
  cases p with
  | nil => cases h
  | cons b rest =>
    simp only [numRun, cons_append] at h ⊢
    obtain ⟨st0, hstart, hsteps⟩ := Option.bind_eq_some_iff.mp h
    rw [hstart]
    exact numSteps_append hsteps q

lemma numSteps_digits (hst : ∀ d : Fin 10, numMove st (ofNat (0x30 + d.val)) = .next st)
    (ds : List (Fin 10)) : numSteps st (utf8 (ds.map digitChar)) = some st := by
  induction ds with
  | nil => rfl
  | cons d ds ih =>
    rw [map_cons, utf8_cons, utf8_digit]
    simp only [cons_append, numSteps, hst d]
    exact ih

lemma numMove_digits (hst : st = .int ∨ st = .frac ∨ st = .expDigits) (d : Fin 10) :
    numMove st (ofNat (0x30 + d.val)) = .next st := by
  rcases hst with rfl | rfl | rfl <;> simp only [numMove, isDigit_digit, if_true]

lemma numStart_nonzero (d : Fin 9) : numStart (ofNat (0x30 + d.succ.val)) = some .int := by
  revert d
  decide

lemma numMove_nonzero (d : Fin 9) : numMove .minus (ofNat (0x30 + d.succ.val)) = .next .int := by
  have hne : ∀ d : Fin 9, ofNat (0x30 + d.succ.val) ≠ 0x30 := by decide
  simp only [numMove, if_neg (hne d), isDigit_digit, if_true]

lemma numRun_whole (m : Bool) (w : Whole) :
    ∃ st, numRun (utf8 (signChars m ++ w.chars)) = some st ∧ (st = .zero ∨ st = .int) := by
  cases w with
  | zero => cases m <;> exact ⟨.zero, by decide, .inl rfl⟩
  | digits first rest =>
    refine ⟨.int, ?_, .inr rfl⟩
    have hrest := numSteps_digits (numMove_digits (.inl rfl)) rest
    have hwhole : utf8 (Whole.digits first rest).chars =
        ofNat (0x30 + first.succ.val) :: utf8 (rest.map digitChar) := by
      rw [Whole.chars, utf8_cons, utf8_digit]
      rfl
    cases m with
    | false =>
      rw [signChars, if_neg Bool.false_ne_true, nil_append, hwhole, numRun, numStart_nonzero]
      exact hrest
    | true =>
      have hminus : utf8 (signChars true) = [0x2D] := by decide
      rw [utf8_append, hminus, hwhole]
      simp only [cons_append, nil_append, numRun, numStart, if_true, Option.bind_some, numSteps, numMove_nonzero]
      exact hrest

lemma numSteps_frac (hst : st = .zero ∨ st = .int) (fr : Option Digits) :
    ∃ st', numSteps st (utf8 (fracChars fr)) = some st' ∧
    (st' = .zero ∨ st' = .int ∨ st' = .frac) := by
  cases fr with
  | none => exact ⟨st, rfl, hst.imp_right .inl⟩
  | some ds =>
    refine ⟨.frac, ?_, .inr (.inr rfl)⟩
    have hpoint : numMove st 0x2E = .next .dot := by rcases hst with rfl | rfl <;> rfl
    have hfirst : numMove .dot (ofNat (0x30 + ds.first.val)) = .next .frac := by
      simp only [numMove, isDigit_digit, if_true]
    have hbytes : utf8 (fracChars (some ds)) =
        0x2E :: ofNat (0x30 + ds.first.val) :: utf8 (ds.rest.map digitChar) := by
      rw [fracChars, Option.elim_some, utf8_cons, Digits.chars, utf8_cons, utf8_digit]
      rfl
    simp only [hbytes, numSteps, hpoint, hfirst]
    exact numSteps_digits (numMove_digits (.inr (.inl rfl))) ds.rest

lemma numSteps_exp (hst : st = .zero ∨ st = .int ∨ st = .frac) (e : Option Exponent) :
    ∃ st', numSteps st (utf8 (expChars e)) = some st' ∧ st'.complete := by
  cases e with
  | none => exact ⟨st, rfl, by rcases hst with rfl | rfl | rfl <;> rfl⟩
  | some e =>
    refine ⟨.expDigits, ?_, rfl⟩
    obtain ⟨upper, sign, digits⟩ := e
    have hmark : numSteps st (utf8 [exponentMark upper]) = some .exp := by
      rcases hst with rfl | rfl | rfl <;> cases upper <;> decide
    have hsign : ∃ st', numSteps .exp (utf8 (sign.toList.map Sign.char)) = some st' ∧
        ∀ d : Fin 10, numMove st' (ofNat (0x30 + d.val)) = .next .expDigits := by
      cases sign with
      | none => exact ⟨.exp, rfl, by decide⟩
      | some s => exact ⟨.expSign, by cases s <;> decide, by decide⟩
    obtain ⟨st', hsteps, hdigit⟩ := hsign
    have hdigits : utf8 digits.chars =
        ofNat (0x30 + digits.first.val) :: utf8 (digits.rest.map digitChar) := by
      rw [Digits.chars, utf8_cons, utf8_digit]
      rfl
    have hchars : expChars (some ⟨upper, sign, digits⟩) =
        [exponentMark upper] ++ (sign.toList.map Sign.char ++ digits.chars) := rfl
    rw [hchars, utf8_append, numSteps_append hmark, utf8_append, numSteps_append hsteps, hdigits]
    simp only [numSteps, hdigit]
    exact numSteps_digits (numMove_digits (.inr (.inr rfl))) digits.rest

lemma numRun_number (n : Number) : ∃ st, numRun (utf8 n.chars) = some st ∧ st.complete := by
  obtain ⟨st1, hwhole, hst1⟩ := numRun_whole n.minus n.whole
  obtain ⟨st2, hfrac, hst2⟩ := numSteps_frac hst1 n.frac
  obtain ⟨st3, hexp, hst3⟩ := numSteps_exp hst2 n.exp
  refine ⟨st3, ?_, hst3⟩
  have hchars :
      n.chars = signChars n.minus ++ n.whole.chars ++ (fracChars n.frac ++ expChars n.exp) := by
    simp [chars]
  rw [hchars, utf8_append, numRun_append hwhole, utf8_append, numSteps_append hfrac, hexp]

/-- The contents of a string as far as they are read: the bytes that they stand for, and the first
half of a surrogate pair that may still find its partner. -/
structure Decoding where
  out : GoStr
  high : Option CodeUnit

def replacement : GoStr := String.utf8EncodeChar '�'

variable (d : Decoding)

@[simp] def Decoding.flush : GoStr := d.out ++ if d.high.isSome then replacement else []

/-- An escaped code unit that no earlier one is waiting for. -/
def Decoding.start (out : GoStr) (u : CodeUnit) : Decoding :=
  if u.High then ⟨out, some u⟩ else ⟨out ++ String.utf8EncodeChar u.alone, none⟩

@[simp] def Decoding.add : StrChar → Decoding
  | .plain c _ => ⟨d.flush ++ String.utf8EncodeChar c, none⟩
  | .short e => ⟨d.flush ++ String.utf8EncodeChar e.char, none⟩
  | .unit u =>
    match d.high with
    | none => start d.out u
    | some h => if u.Low then ⟨d.out ++ String.utf8EncodeChar (h.pair u), none⟩ else start d.flush u

variable (items : List StrChar)

def decoding : Decoding := items.foldl Decoding.add ⟨[], none⟩

lemma decoding_snoc (x : StrChar) : decoding (items ++ [x]) = (decoding items).add x := foldl_append

variable {u v : CodeUnit} {x : StrChar}

lemma alone_of_high (h : u.High) : String.utf8EncodeChar u.alone = replacement := by
  rw [CodeUnit.alone, if_pos (.inl h)]
  rfl

lemma decode_unit_cons {rest : List StrChar} (h : ∀ v, x = .unit v → ¬(u.High ∧ v.Low)) :
    decode (.unit u :: x :: rest) = u.alone :: decode (x :: rest) := by
  cases x with
  | unit v => rw [decode, if_neg (h v rfl)]
  | plain c hc => simp only [decode, StrChar.char]
  | short e => simp only [decode, StrChar.char]

lemma decode_unit_low (h : ¬u.High) (rest : List StrChar) :
    decode (.unit u :: rest) = u.alone :: decode rest := by
  cases rest with
  | nil => simp only [decode, StrChar.char]
  | cons x rest => exact decode_unit_cons fun v _ hv => h hv.1

@[simp] def Decoding.waiting : List StrChar := d.high.toList.map .unit

/-- What a decoding and the items still to come stand for together. -/
@[simp] def Decoding.total (items : List StrChar) : GoStr :=
  d.out ++ utf8 (decode (d.waiting ++ items))

lemma Decoding.total_start (out : GoStr) (u : CodeUnit) (items : List StrChar) :
    (Decoding.start out u).total items = out ++ utf8 (decode (.unit u :: items)) := by
  unfold Decoding.start
  split_ifs with hhigh
  · rfl
  · rw [decode_unit_low hhigh]
    simp

lemma Decoding.start_high {out : GoStr} (h : v ∈ (Decoding.start out u).high) : v.High := by
  unfold Decoding.start at h
  split_ifs at h with hhigh
  · cases h
    exact hhigh
  · cases h

lemma Decoding.add_high {d : Decoding} (h : v ∈ (d.add x).high) : v.High := by
  cases x with
  | plain c hc => cases h
  | short e => cases h
  | unit u =>
    simp only [Decoding.add] at h
    split at h
    · exact Decoding.start_high h
    · split_ifs at h
      · cases h
      · exact Decoding.start_high h

lemma Decoding.total_add (hd : ∀ u ∈ d.high, u.High) (x : StrChar) (items : List StrChar) :
    (d.add x).total items = d.total (x :: items) := by
  obtain ⟨out, high⟩ := d
  cases high with
  | none =>
    cases x with
    | plain c hc => simp
    | short e => simp
    | unit u => exact Decoding.total_start out u items
  | some h =>
    have hh : h.High := hd h rfl
    have halone := alone_of_high hh
    cases x with
    | plain c hc =>
      simp [halone]
    | short e =>
      simp [halone]
    | unit u =>
      simp only [Decoding.add]
      split_ifs with hlow
      · simp [hh, hlow]
      rw [Decoding.total_start]
      have hcons : decode (.unit h :: .unit u :: items) = h.alone :: decode (.unit u :: items) :=
        decode_unit_cons fun v hv hpair => by
          cases hv
          exact hlow hpair.2
      simp [hcons, halone]

lemma foldl_add_flush (d : Decoding) (hd : ∀ u ∈ d.high, u.High) :
    (items.foldl Decoding.add d).flush = d.total items := by
  induction items generalizing d with
  | nil =>
    obtain ⟨out, high⟩ := d
    cases high with
    | none => simp
    | some h =>
      simp [alone_of_high (hd h rfl)]
  | cons x items ih =>
    rw [foldl_cons, ih _ fun u => Decoding.add_high, Decoding.total_add d hd]

lemma decoding_flush : (decoding items).flush = decodedBytes items := by
  rw [decoding, foldl_add_flush items _ (by simp)]
  rfl

lemma simpleEscape_some {x : UInt8} (h : simpleEscape b = some x) :
    ∃ e : Escape, String.utf8EncodeChar e.letter = [b] ∧ String.utf8EncodeChar e.char = [x] := by
  unfold simpleEscape at h
  split_ifs at h with hself hb hf hn hr ht
  · cases h
    rcases hself with rfl | rfl | rfl
    · exact ⟨.quote, by decide, by decide⟩
    · exact ⟨.backslash, by decide, by decide⟩
    · exact ⟨.slash, by decide, by decide⟩
  all_goals cases h; subst b
  · exact ⟨.backspace, by decide, by decide⟩
  · exact ⟨.formFeed, by decide, by decide⟩
  · exact ⟨.lineFeed, by decide, by decide⟩
  · exact ⟨.carriageReturn, by decide, by decide⟩
  · exact ⟨.tab, by decide, by decide⟩

lemma simpleEscape_letter (e : Escape) :
    ∃ b x, String.utf8EncodeChar e.letter = [b] ∧ String.utf8EncodeChar e.char = [x] ∧
      simpleEscape b = some x ∧ b ≠ 0x75 := by
  refine ⟨ofNat e.letter.val.toNat, ofNat e.char.val.toNat, ?_, ?_, ?_, ?_⟩ <;> cases e <;> decide

lemma utf8_lower (d : Fin 6) :
    String.utf8EncodeChar (HexDigit.lower d).char = [ofNat (0x61 + d.val)] := by
  revert d
  decide

lemma utf8_upper (d : Fin 6) :
    String.utf8EncodeChar (HexDigit.upper d).char = [ofNat (0x41 + d.val)] := by
  revert d
  decide

lemma hexDigit_some {n : ℕ} (h : hexDigit b = some n) :
    ∃ d : HexDigit, String.utf8EncodeChar d.char = [b] ∧ d.value = n := by
  simp only [hexDigit] at h
  split_ifs at h with hdigit hlower hupper
  · obtain ⟨hlow, hhigh⟩ : 48 ≤ b.toNat ∧ b.toNat ≤ 57 := hdigit
    cases h
    refine ⟨.digit ⟨b.toNat - 0x30, by omega⟩, ?_, rfl⟩
    rw [HexDigit.char, utf8_digit, ofNat_offset hlow]
  · obtain ⟨hlow, hhigh⟩ : 97 ≤ b.toNat ∧ b.toNat ≤ 102 := hlower
    cases h
    refine ⟨.lower ⟨b.toNat - 0x61, by omega⟩, ?_, Nat.add_comm _ _⟩
    rw [utf8_lower, ofNat_offset hlow]
  · obtain ⟨hlow, hhigh⟩ : 65 ≤ b.toNat ∧ b.toNat ≤ 70 := hupper
    cases h
    refine ⟨.upper ⟨b.toNat - 0x41, by omega⟩, ?_, Nat.add_comm _ _⟩
    rw [utf8_upper, ofNat_offset hlow]

lemma hexDigit_char (d : HexDigit) :
    ∃ b, String.utf8EncodeChar d.char = [b] ∧ hexDigit b = some d.value := by
  cases d with
  | digit d => exact ⟨_, utf8_digit d, by revert d; decide⟩
  | lower d => exact ⟨_, utf8_lower d, by revert d; decide⟩
  | upper d => exact ⟨_, utf8_upper d, by revert d; decide⟩

lemma parseHex_some {ds : GoStr} {r : ℕ} (hlen : ds.length = 4) (h : parseHex ds = some r) :
    ∃ u : CodeUnit, utf8 u.chars = ds ∧ u.value = r := by
  obtain ⟨b1, b2, b3, b4, rfl⟩ : ∃ b1 b2 b3 b4, ds = [b1, b2, b3, b4] := by
    match ds, hlen with
    | [b1, b2, b3, b4], _ => exact ⟨b1, b2, b3, b4, rfl⟩
  simp only [parseHex, foldlM, Option.bind_eq_bind, Option.bind_eq_some_iff, Option.map_eq_some_iff] at h
  obtain ⟨_, ⟨n1, h1, rfl⟩, _, ⟨n2, h2, rfl⟩, _, ⟨n3, h3, rfl⟩, _, ⟨n4, h4, rfl⟩, hr⟩ := h
  obtain ⟨d1, hd1, rfl⟩ := hexDigit_some h1
  obtain ⟨d2, hd2, rfl⟩ := hexDigit_some h2
  obtain ⟨d3, hd3, rfl⟩ := hexDigit_some h3
  obtain ⟨d4, hd4, rfl⟩ := hexDigit_some h4
  refine ⟨⟨d1, d2, d3, d4⟩, ?_, ?_⟩
  · simp [CodeUnit.chars, hd1, hd2, hd3, hd4]
  · simpa [CodeUnit.value] using Option.some.inj hr

lemma parseHex_unit (u : CodeUnit) :
    ∃ b1 b2 b3 b4, utf8 u.chars = [b1, b2, b3, b4] ∧ parseHex [b1, b2, b3, b4] = some u.value := by
  obtain ⟨b1, hb1, h1⟩ := hexDigit_char u.a
  obtain ⟨b2, hb2, h2⟩ := hexDigit_char u.b
  obtain ⟨b3, hb3, h3⟩ := hexDigit_char u.c
  obtain ⟨b4, hb4, h4⟩ := hexDigit_char u.d
  refine ⟨b1, b2, b3, b4, ?_, ?_⟩
  · simp [CodeUnit.chars, hb1, hb2, hb3, hb4]
  · simp [parseHex, h1, h2, h3, h4, CodeUnit.value]

lemma isHighSurrogate_iff (u : CodeUnit) : isHighSurrogate u.value ↔ u.High := by
  simp [isHighSurrogate, CodeUnit.High]

lemma isLowSurrogate_iff (u : CodeUnit) : isLowSurrogate u.value ↔ u.Low := by
  simp [isLowSurrogate, CodeUnit.Low]

lemma encodeRune_error : encodeRune runeError = replacement := by decide

lemma encodeRune_alone (hhigh : ¬u.High) (hlow : ¬u.Low) :
    encodeRune u.value = String.utf8EncodeChar u.alone := by
  have hlt := u.value_lt
  have hvalid : u.value.isValidChar := by
    simp only [CodeUnit.High, CodeUnit.Low] at hhigh hlow ⊢
    omega
  rw [encodeRune, if_pos hvalid, CodeUnit.alone, if_neg (not_or.mpr ⟨hhigh, hlow⟩)]

lemma encodeRune_pair {h l : CodeUnit} (hh : h.High) (hl : l.Low) :
    encodeRune (combineSurrogates h.value l.value) = String.utf8EncodeChar (h.pair l) := by
  have hvalid : (combineSurrogates h.value l.value).isValidChar := by
    simp only [CodeUnit.High, CodeUnit.Low, combineSurrogates] at hh hl ⊢
    omega
  rw [encodeRune, if_pos hvalid]
  rfl

end InteractiveProxy.JsonShape
