import InteractiveProxy.GoText
import InteractiveProxy.GuardedRun
import InteractiveProxy.SignedWord
import Mathlib.Algebra.Order.Field.Basic
import Mathlib.Tactic.FieldSimp

/-! The exact decimals of the metering package: a coefficient in base ten and a number of decimal
places. Money is compared by the structure of the canonical form, so each value has exactly one. -/
namespace InteractiveProxy.Metering

open GoText GuardedRun SignedWord List

def maxDecimalCoefficientDigits : ℕ := 38
def maxDecimalScale : ℕ := 18
def ledgerNanoScale : ℕ := 9
def maxDecimalLiteralBytes : ℕ := 256

/-- The errors of the package, with the text behind `ErrInvalidDecimal`, `ErrDecimalOverflow` and
`ErrDecimalPrecision`. -/
inductive DecimalError
  | invalid (detail : GoStr)
  | overflow (detail : GoStr)
  | precision (detail : GoStr)
  deriving DecidableEq

structure Decimal where
  coefficient : GoStr
  scale : ℕ
  deriving DecidableEq

namespace Decimal

def zero : Decimal := ⟨[0x30], 0⟩

def value (d : Decimal) : ℚ := intValue d.coefficient / 10 ^ d.scale

def scaleError (scale : ℕ) : DecimalError :=
  .invalid (lit "scale " ++ formatNat scale ++ lit " exceeds " ++ formatNat maxDecimalScale)

def digitsError (digits : ℕ) : DecimalError :=
  .overflow (lit "coefficient has " ++ formatNat digits ++ lit " digits, max " ++ formatNat maxDecimalCoefficientDigits)

def validate (d : Decimal) : Except DecimalError Unit :=
  let digits := magnitude d.coefficient
  if d.scale > maxDecimalScale then .error (scaleError d.scale)
  else if d.coefficient = [] then .error (.invalid (lit "coefficient required"))
  else if d.coefficient = [0x2D, 0x30] ∨ d.coefficient = [0x2B, 0x30] then
    .error (.invalid (lit "negative or signed zero is not canonical"))
  else if d.coefficient = [0x30] ∧ d.scale ≠ 0 then .error (.invalid (lit "zero must use scale 0"))
  else if d.coefficient.head? = some 0x2B then
    .error (.invalid (lit "leading plus is not canonical"))
  else if digits = [] then .error (.invalid (lit "coefficient digits required"))
  else if digits.length > maxDecimalCoefficientDigits then .error (digitsError digits.length)
  else if digits.length > 1 ∧ digits.head? = some 0x30 then
    .error (.invalid (lit "coefficient has leading zero"))
  else if ¬ AllDigits digits then .error (.invalid (lit "coefficient is not base ten"))
  else if d.coefficient ≠ [0x30] ∧ d.scale > 0 ∧ digits.getLast? = some 0x30 then
    .error (.invalid (lit "insignificant trailing fractional zero"))
  else .ok ()

/-- The loop of `Normalize`: drop trailing zeros while there are decimal places. -/
def trimFraction : ℕ → GoStr → GoStr × ℕ
  | 0, s => (s, 0)
  | scale + 1, s => if s.getLast? = some 0x30 then trimFraction scale s.dropLast else (s, scale + 1)

/-- `strings.TrimLeft(s, "0")`. -/
def trimZeros (s : GoStr) : GoStr := s.dropWhile (· == 0x30)

def normalize (d : Decimal) : Except DecimalError Decimal :=
  if d.coefficient = [] then .error (.invalid (lit "coefficient required"))
  else if d.coefficient.length > maxDecimalLiteralBytes then
    .error (.overflow (lit "coefficient literal exceeds " ++ formatNat maxDecimalLiteralBytes ++ lit " bytes"))
  else if d.scale > maxDecimalScale then .error (scaleError d.scale)
  else if d.coefficient.head? = some 0x2B then .error (.invalid (lit "leading plus is not allowed"))
  else if magnitude d.coefficient = [] then .error (.invalid (lit "coefficient digits required"))
  else if ¬ AllDigits (magnitude d.coefficient) then
    .error (.invalid (lit "coefficient is not base ten"))
  else if trimZeros (magnitude d.coefficient) = [] then .ok zero
  else
    let (s, scale) := trimFraction d.scale (trimZeros (magnitude d.coefficient))
    if s.length > maxDecimalCoefficientDigits then .error (digitsError s.length)
    else
      let out : Decimal := ⟨signed (negative d.coefficient) s, scale⟩
      out.validate >>= fun _ => .ok out

/-- What `Validate` accepts: one spelling of each value. -/
structure Canonical (d : Decimal) : Prop where
  scale_le : d.scale ≤ maxDecimalScale
  numeral : Numeral (magnitude d.coefficient)
  length_le : (magnitude d.coefficient).length ≤ maxDecimalCoefficientDigits
  zero_eq : magnitude d.coefficient = [0x30] → d = zero
  fraction : 0 < d.scale → (magnitude d.coefficient).getLast? ≠ some 0x30

lemma canonical_zero : Canonical zero where
  scale_le := Nat.zero_le _
  numeral := ⟨by decide +kernel, by decide, fun _ => rfl⟩
  length_le := by decide
  zero_eq _ := rfl
  fraction h := absurd h (lt_irrefl _)

variable {d : Decimal}

lemma Canonical.ne_nil (h : Canonical d) : d.coefficient ≠ [] := by
  intro hnil
  exact h.numeral.nonempty (by rw [hnil]; rfl)

lemma Canonical.not_plus (h : Canonical d) : d.coefficient.head? ≠ some 0x2B := by
  intro hplus
  obtain ⟨rest, hcons⟩ := head?_eq_some_iff.mp hplus
  have hdigit := h.numeral.digits 0x2B (by rw [hcons]; exact mem_cons_self)
  exact (not_sign_of_digit hdigit).1 rfl

lemma validate_iff : d.validate = .ok () ↔ Canonical d := by
  constructor
  · intro h
    unfold validate at h
    dsimp only at h
    split_ifs at h with hscale hnil hsigned hzero hplus hempty hlong hhead hdigits hlast
    have hnum := Numeral.of_head hdigits hempty hhead
    refine ⟨not_lt.mp hscale, hnum, not_lt.mp hlong, fun hone => ?_, fun hpos hend => ?_⟩
    · -- A coefficient with the digit zero alone is `0`: `-0` has been refused.
      have hcoeff := signed_magnitude d.coefficient
      rw [hone] at hcoeff
      cases hneg : negative d.coefficient with
      | true =>
        rw [hneg] at hcoeff
        exact absurd (.inl hcoeff.symm) hsigned
      | false =>
        rw [hneg] at hcoeff
        obtain ⟨c, k⟩ := d
        have hc : c = [0x30] := hcoeff.symm
        have hk : k = 0 := by
          by_contra hk
          exact hzero ⟨hc, hk⟩
        rw [hc, hk]
        rfl
    · refine hlast ⟨fun hcoeff => ?_, hpos, hend⟩
      exact hzero ⟨hcoeff, by omega⟩
  · intro h
    have hcoeff : d.coefficient = [0x30] → d.scale = 0 := by
      intro hcoeff
      have hd := h.zero_eq (by rw [hcoeff]; rfl)
      rw [hd]
      rfl
    have hsigned : ¬ (d.coefficient = [0x2D, 0x30] ∨ d.coefficient = [0x2B, 0x30]) := by
      rintro (hminus | hplus)
      · have hd := congrArg coefficient (h.zero_eq (by rw [hminus]; rfl))
        rw [hminus] at hd
        cases hd
      · exact h.not_plus (by rw [hplus]; rfl)
    have hzero : ¬ (d.coefficient = [0x30] ∧ d.scale ≠ 0) := fun hz => hz.2 (hcoeff hz.1)
    have hlast :
        ¬ (d.coefficient ≠ [0x30] ∧ d.scale > 0 ∧ (magnitude d.coefficient).getLast? = some 0x30) :=
      fun hl => h.fraction hl.2.1 hl.2.2
    unfold validate
    rw [if_neg (not_lt.mpr h.scale_le), if_neg h.ne_nil, if_neg hsigned, if_neg hzero, if_neg h.not_plus,
      if_neg h.numeral.nonempty, if_neg (not_lt.mpr h.length_le), if_neg h.numeral.not_head,
      if_neg (not_not.mpr h.numeral.digits), if_neg hlast]

lemma trimFraction_spec (scale : ℕ) (s : GoStr) : (trimFraction scale s).2 ≤ scale ∧
      s = (trimFraction scale s).1 ++ replicate (scale - (trimFraction scale s).2) 0x30 ∧
      (0 < (trimFraction scale s).2 → (trimFraction scale s).1.getLast? ≠ some 0x30) := by
  induction scale generalizing s with
  | zero => simp [trimFraction]
  | succ scale ih =>
    unfold trimFraction
    split_ifs with hlast
    · obtain ⟨hle, hs, hend⟩ := ih s.dropLast
      refine ⟨by omega, ?_, hend⟩
      calc s = s.dropLast ++ [0x30] := (dropLast_append_getLast? _ hlast).symm
        _ = _ := by
          rw [hs, append_assoc, ← replicate_succ', ← hs]
          congr 2
          omega
    · exact ⟨le_refl _, by simp, fun _ => hlast⟩

lemma natValue_trimZeros (s : GoStr) : natValue (trimZeros s) = natValue s := by
  induction s with
  | nil => rfl
  | cons b s ih =>
    by_cases hb : b = 0x30
    · rw [hb, natValue_cons, ← ih, show digit 0x30 = 0 from rfl, zero_mul, zero_add]
      rfl
    · rw [trimZeros, dropWhile_cons_of_neg (by simpa using hb)]

lemma trimZeros_head (s : GoStr) : (trimZeros s).head? ≠ some 0x30 := by
  unfold trimZeros
  intro hhead
  have := head?_dropWhile_not (· == (0x30 : UInt8)) s
  rw [hhead] at this
  simp at this

lemma trimmed_value (scale : ℕ) (s : GoStr) :
    natValue s = natValue
    (trimFraction scale (trimZeros s)).1 * 10 ^ (scale - (trimFraction scale (trimZeros s)).2) := by
  obtain ⟨-, hs, -⟩ := trimFraction_spec scale (trimZeros s)
  rw [← natValue_trimZeros s]
  conv_lhs => rw [hs]
  rw [natValue_append, natValue_replicate_zero, length_replicate]
  omega

variable {d e : Decimal}

lemma value_of_scaled {k : ℕ} (hscale : e.scale + k = d.scale)
    (hcoeff : intValue d.coefficient = intValue e.coefficient * 10 ^ k) : d.value = e.value := by
  unfold value
  rw [hcoeff, ← hscale, pow_add]
  push_cast
  field_simp

lemma trimmed_numeral (scale : ℕ) {s : GoStr} (hdigits : AllDigits s) (hne : trimZeros s ≠ []) :
    Numeral (trimFraction scale (trimZeros s)).1 ∧
    (trimFraction scale (trimZeros s)).1 ≠ [0x30] := by
  obtain ⟨-, hs, -⟩ := trimFraction_spec scale (trimZeros s)
  have hhead := trimZeros_head s
  have hkept : (trimFraction scale (trimZeros s)).1 ≠ [] := by
    intro hnil
    rw [hnil, nil_append] at hs
    obtain ⟨b, rest, hcons⟩ := exists_cons_of_ne_nil hne
    have hb : b ∈ replicate (scale - (trimFraction scale (trimZeros s)).2) (0x30 : UInt8) := by
      rw [← hs, hcons]
      exact mem_cons_self
    rw [hcons, eq_of_mem_replicate hb] at hhead
    exact hhead rfl
  have hfirst : (trimFraction scale (trimZeros s)).1.head? ≠ some 0x30 := by
    rw [hs, head?_append_of_ne_nil _ hkept] at hhead
    exact hhead
  refine ⟨⟨fun b hb => ?_, hkept, fun hzero => absurd hzero hfirst⟩, ?_⟩
  · have hmem : b ∈ trimZeros s := by
      rw [hs]
      exact mem_append_left _ hb
    exact hdigits b ((dropWhile_suffix _).subset hmem)
  · intro hzero
    rw [hzero] at hfirst
    exact hfirst rfl

lemma normalize_value {n : Decimal} (h : d.normalize = .ok n) :
    n.Canonical ∧ n.value = d.value := by
  unfold normalize at h
  split_ifs at h with hnil hlong hscale hplus hempty hdigits hzero
  · cases h
    refine ⟨canonical_zero, ?_⟩
    have hvalue : natValue (magnitude d.coefficient) = 0 := by
      rw [← natValue_trimZeros, hzero]
      rfl
    unfold value
    rw [intValue_eq d.coefficient, hvalue]
    simp [zero, intValue, magnitude, natValue, digit]
  · dsimp only at h
    by_cases hmax : (trimFraction d.scale (trimZeros (magnitude d.coefficient))).1.length >
        maxDecimalCoefficientDigits
    · rw [if_pos hmax] at h
      cases h
    rw [if_neg hmax] at h
    obtain ⟨_, hvalid, hout⟩ := bind_eq_ok.mp h
    cases hout
    refine ⟨validate_iff.mp hvalid, (value_of_scaled
      (k := d.scale - (trimFraction d.scale (trimZeros (magnitude d.coefficient))).2) ?_ ?_).symm⟩
    · have hle := (trimFraction_spec d.scale (trimZeros (magnitude d.coefficient))).1
      dsimp only
      omega
    · obtain ⟨hnum, -⟩ := trimmed_numeral d.scale hdigits hzero
      rw [intValue_eq d.coefficient, trimmed_value d.scale, intValue_signed _ (negative_of_digits hnum.digits)]
      push_cast
      ring

lemma normalize_ok (hscale : d.scale ≤ maxDecimalScale) (hne : magnitude d.coefficient ≠ [])
    (hdigits : AllDigits (magnitude d.coefficient))
    (hlen : (magnitude d.coefficient).length ≤ maxDecimalCoefficientDigits) :
    ∃ n, d.normalize = .ok n := by
  have hcoeff := signed_magnitude d.coefficient
  have hnil : d.coefficient ≠ [] := by
    intro hnil
    exact hne (by rw [hnil]; rfl)
  have hlong : ¬ d.coefficient.length > maxDecimalLiteralBytes := by
    have hsigned : d.coefficient.length ≤ (magnitude d.coefficient).length + 1 := by
      conv_lhs => rw [← hcoeff]
      unfold signed
      split_ifs <;> simp
    unfold maxDecimalCoefficientDigits at hlen
    unfold maxDecimalLiteralBytes
    omega
  have hplus : d.coefficient.head? ≠ some 0x2B := by
    intro hplus
    obtain ⟨rest, hcons⟩ := head?_eq_some_iff.mp hplus
    exact (not_sign_of_digit (hdigits 0x2B (by rw [hcons]; exact mem_cons_self))).1 rfl
  unfold normalize
  rw [if_neg hnil, if_neg hlong, if_neg (not_lt.mpr hscale), if_neg hplus, if_neg hne, if_neg (not_not.mpr hdigits)]
  by_cases hzero : trimZeros (magnitude d.coefficient) = []
  · exact ⟨zero, if_pos hzero⟩
  rw [if_neg hzero]
  obtain ⟨hnum, hnezero⟩ := trimmed_numeral d.scale hdigits hzero
  obtain ⟨hle, hs, hend⟩ := trimFraction_spec d.scale (trimZeros (magnitude d.coefficient))
  have hshort : (trimFraction d.scale (trimZeros (magnitude d.coefficient))).1.length ≤
      maxDecimalCoefficientDigits := by
    have hsuffix : (trimZeros (magnitude d.coefficient)).length ≤ _ :=
      (dropWhile_suffix _).length_le
    have hlength := congrArg length hs
    rw [length_append] at hlength
    omega
  obtain ⟨-, hmag⟩ := signed_spec (negative d.coefficient) (negative_of_digits hnum.digits)
  have hcanonical : Canonical ⟨signed (negative d.coefficient)
      (trimFraction d.scale (trimZeros (magnitude d.coefficient))).1,
      (trimFraction d.scale (trimZeros (magnitude d.coefficient))).2⟩ := by
    constructor
    · exact le_trans hle hscale
    · rwa [hmag]
    · rwa [hmag]
    · rw [hmag]
      exact fun h => absurd h hnezero
    · rwa [hmag]
  dsimp only
  rw [if_neg (not_lt.mpr hshort), validate_iff.mpr hcanonical]
  exact ⟨_, rfl⟩

lemma canonical_zero_coefficient (h : Canonical d) (hvalue : intValue d.coefficient = 0) :
    d = zero := by
  apply h.zero_eq
  have habs := natAbs_intValue d.coefficient
  rw [hvalue] at habs
  exact numeral_injective h.numeral canonical_zero.numeral habs.symm

lemma canonical_scale_le (hd : Canonical d) (h : d.value = e.value) : d.scale ≤ e.scale := by
  by_contra hlt
  have hscaled : intValue d.coefficient = intValue e.coefficient * 10 ^ (d.scale - e.scale) := by
    have hpow : (10 : ℚ) ^ d.scale = 10 ^ e.scale * 10 ^ (d.scale - e.scale) := by
      rw [← pow_add]
      congr 1
      omega
    unfold value at h
    rw [hpow] at h
    field_simp at h
    rw [mul_comm]
    exact_mod_cast h
  have habs : natValue (magnitude d.coefficient) =
      natValue (magnitude e.coefficient) * 10 ^ (d.scale - e.scale) := by
    rw [← natAbs_intValue, ← natAbs_intValue, hscaled, Int.natAbs_mul]
    rfl
  have hten : 10 ∣ natValue (magnitude d.coefficient) := by
    rw [habs]
    exact Dvd.dvd.mul_left (dvd_pow_self 10 (by omega)) _
  exact hd.fraction (by omega) (getLast?_of_dvd hd.numeral hten)

lemma canonical_injective (hd : Canonical d) (he : Canonical e) (h : d.value = e.value) :
    d = e := by
  have hscale : d.scale = e.scale := Nat.le_antisymm (canonical_scale_le hd h)
    (canonical_scale_le he h.symm)
  have hint : intValue d.coefficient = intValue e.coefficient := by
    unfold value at h
    rw [hscale] at h
    field_simp at h
    exact_mod_cast h
  by_cases hzero : intValue e.coefficient = 0
  · rw [canonical_zero_coefficient hd (hint.trans hzero), canonical_zero_coefficient he hzero]
  have hmag : magnitude d.coefficient = magnitude e.coefficient := by
    apply numeral_injective hd.numeral he.numeral
    rw [← natAbs_intValue, ← natAbs_intValue, hint]
  have hneg : negative d.coefficient = negative e.coefficient := by
    rw [intValue_eq, intValue_eq e.coefficient] at hint
    rw [intValue_eq] at hzero
    have hpos : (natValue (magnitude e.coefficient) : ℤ) ≠ 0 := right_ne_zero_of_mul hzero
    cases hd : negative d.coefficient <;> cases he :
      negative e.coefficient <;> simp [hd, he] at hint ⊢ <;> omega
  obtain ⟨c, k⟩ := d
  obtain ⟨c', k'⟩ := e
  have hc : c = c' := by
    rw [← signed_magnitude c, ← signed_magnitude c']
    exact congrArg₂ signed hneg hmag
  rw [hc, show k = k' from hscale]

lemma normalize_of_canonical (h : Canonical d) : d.normalize = .ok d := by
  obtain ⟨n, hn⟩ := normalize_ok h.scale_le h.numeral.nonempty h.numeral.digits h.length_le
  obtain ⟨hcanonical, hvalue⟩ := normalize_value hn
  rw [hn, canonical_injective hcanonical h hvalue]

end Decimal

def isExponentMark (b : UInt8) : Bool := b == 0x65 || b == 0x45

def isSign (b : UInt8) : Bool := b == 0x2B || b == 0x2D

def boundedExponent (neg : Bool) (digits : GoStr) : Except DecimalError ℤ :=
  if digits = [] ∨ digits.length > 4 then .error (.overflow (lit "exponent out of bounds"))
  else if ¬ AllDigits digits then .error (.invalid (lit "invalid exponent"))
  else if natValue digits > maxDecimalLiteralBytes then
    .error (.overflow (lit "exponent out of bounds"))
  else if neg then .ok (-(natValue digits : ℤ))
  else .ok (natValue digits)

def parseBoundedExponent (raw : GoStr) : Except DecimalError ℤ :=
  if raw = [] then .error (.invalid (lit "exponent required"))
  else boundedExponent (negative raw) (if raw.head?.any isSign then raw.tail else raw)

/-- The exponent behind the first `e` or `E`, zero where there is none. -/
def parseExponent : GoStr → Except DecimalError ℤ
  | [] => .ok 0
  | _ :: expRaw =>
    if expRaw.any isExponentMark then .error (.invalid (lit "multiple exponents"))
    else if expRaw = [] then .error (.invalid (lit "exponent required"))
    else parseBoundedExponent expRaw

/-- The part of `ParseDecimal` behind the exponent. -/
def parseSignificand (main : GoStr) (exponent : ℤ) : Except DecimalError Decimal :=
  if main.head? = some 0x2B then .error (.invalid (lit "leading plus is not allowed"))
  else if magnitude main = [] then .error (.invalid (lit "significand required"))
  else
    let (whole, fraction, dot) := cut 0x2E (magnitude main)
    if dot ∧ 0x2E ∈ fraction then .error (.invalid (lit "multiple decimal points"))
    else if whole = [] ∧ fraction = [] then .error (.invalid (lit "significand digits required"))
    else if ¬ AllDigits whole ∨ ¬ AllDigits fraction then
      .error (.invalid (lit "invalid significand"))
    else
      let digits := whole ++ fraction
      if digits = [] then .error (.invalid (lit "significand digits required"))
      else
        let scale : ℤ := fraction.length - exponent
        if scale < 0 ∧ digits.length + (-scale).toNat > maxDecimalCoefficientDigits + maxDecimalLiteralBytes then
          .error (.overflow (lit "exponent expansion too large"))
        else
          -- A negative scale stands for zeros at the end.
          let digits := digits ++ replicate (-scale).toNat 0x30
          if scale > 255 then .error (.overflow (lit "exponent scale too large"))
          else Decimal.normalize ⟨signed (negative main) digits, scale.toNat⟩

def parseDecimal (raw : GoStr) : Except DecimalError Decimal :=
  if raw = [] ∨ raw.length > maxDecimalLiteralBytes then .error (.invalid (lit "invalid literal"))
  else if trimSpace raw ≠ raw then .error (.invalid (lit "surrounding whitespace"))
  else do
    let exponent ← parseExponent (raw.dropWhile fun b => !isExponentMark b)
    parseSignificand (raw.takeWhile fun b => !isExponentMark b) exponent

structure ExponentPart where
  mark : UInt8
  sign : Option UInt8
  digits : GoStr
  mark_eq : isExponentMark mark
  sign_eq : ∀ b ∈ sign, isSign b
  all_digits : AllDigits digits
  nonempty : digits ≠ []

namespace ExponentPart

def text (e : ExponentPart) : GoStr := e.mark :: (e.sign.toList ++ e.digits)

def value (e : ExponentPart) : ℤ :=
  if e.sign = some 0x2D then -(natValue e.digits : ℤ) else natValue e.digits

end ExponentPart

variable {x : ℤ} {raw : GoStr}

lemma boundedExponent_ok {neg : Bool} {digits : GoStr} (h : boundedExponent neg digits = .ok x) :
    AllDigits digits ∧ digits ≠ [] ∧ x = if neg then -(natValue digits : ℤ)
    else natValue digits := by
  unfold boundedExponent at h
  split_ifs at h with hlong hdigits hbound hneg
  · cases h
    exact ⟨hdigits, fun hnil => hlong (.inl hnil), (if_pos hneg).symm⟩
  · cases h
    exact ⟨hdigits, fun hnil => hlong (.inl hnil), (if_neg hneg).symm⟩

lemma parseBoundedExponent_digits {sign : Option UInt8} {digits : GoStr}
    (hsign : ∀ b ∈ sign, isSign b)
    (hdigits : AllDigits digits) (h : parseBoundedExponent (sign.toList ++ digits) = .ok x) :
    x = if sign = some 0x2D then -(natValue digits : ℤ) else natValue digits := by
  unfold parseBoundedExponent at h
  have hdigit : ∀ b, isDigit b → isSign b = false := byte_forall (by decide +kernel)
  split_ifs at h with hnil hhead
  · cases sign with
    | some b =>
      rw [(boundedExponent_ok h).2.2]
      simp [negative]
    | none =>
      obtain ⟨b, rest, rfl⟩ := exists_cons_of_ne_nil hnil
      exact absurd hhead (ne_true_of_eq_false (hdigit b (hdigits b mem_cons_self)))
  · cases sign with
    | some b => exact absurd (hsign b rfl) hhead
    | none =>
      rw [(boundedExponent_ok h).2.2, Option.toList_none, nil_append, negative_of_digits hdigits]
      rfl

lemma parseExponent_text (e : ExponentPart) (h : parseExponent e.text = .ok x) : x = e.value := by
  unfold ExponentPart.text parseExponent at h
  dsimp only at h
  split_ifs at h
  exact parseBoundedExponent_digits e.sign_eq e.all_digits h

lemma parseExponent_ok {m : UInt8} {expRaw : GoStr} (hm : isExponentMark m)
    (h : parseExponent (m :: expRaw) = .ok x) : ∃ e : ExponentPart, e.text = m :: expRaw := by
  unfold parseExponent parseBoundedExponent at h
  dsimp only at h
  split_ifs at h with _ hnil hhead
  · obtain ⟨b, rest, rfl⟩ := exists_cons_of_ne_nil hnil
    obtain ⟨hdigits, hne, -⟩ := boundedExponent_ok h
    exact ⟨⟨m, some b, rest, hm, by simpa using hhead, hdigits, hne⟩, rfl⟩
  · obtain ⟨hdigits, hne, -⟩ := boundedExponent_ok h
    exact ⟨⟨m, none, expRaw, hm, by simp, hdigits, hne⟩, rfl⟩

structure DecimalLiteral where
  minus : Bool
  whole : GoStr
  fraction : Option GoStr
  exponent : Option ExponentPart
  whole_digits : AllDigits whole
  fraction_digits : ∀ f ∈ fraction, AllDigits f
  nonempty : whole ≠ [] ∨ fraction.getD [] ≠ []

namespace DecimalLiteral

variable (l : DecimalLiteral)

def unsignedText : GoStr := l.whole ++ l.fraction.elim [] (0x2E :: ·)

def text (l : DecimalLiteral) : GoStr :=
  signed l.minus l.unsignedText ++ l.exponent.elim [] ExponentPart.text

def fractionDigits : GoStr := l.fraction.getD []

def value (l : DecimalLiteral) : ℚ :=
  (if l.minus then -1 else 1) * (natValue l.whole + natValue l.fractionDigits / 10 ^ l.fractionDigits.length) *
    10 ^ l.exponent.elim 0 ExponentPart.value

lemma unsignedText_byte : ∀ b ∈ l.unsignedText, isDigit b ∨ b = 0x2E := by
  intro b hb
  rcases mem_append.mp hb with hb | hb
  · exact .inl (l.whole_digits b hb)
  cases hf : l.fraction with
  | none =>
    rw [hf] at hb
    cases hb
  | some f =>
    rw [hf] at hb
    rcases mem_cons.mp hb with rfl | hb
    · exact .inr rfl
    · exact .inl (l.fraction_digits f hf b hb)

lemma unsignedText_not_negative : negative l.unsignedText = false := by
  unfold negative
  rw [beq_eq_false_iff_ne]
  intro hhead
  rcases l.unsignedText_byte 0x2D (mem_of_head? hhead) with hdigit | hdot
  · exact (not_sign_of_digit hdigit).2 rfl
  · cases hdot

lemma significand_no_mark : ∀ b ∈ signed l.minus l.unsignedText, (!isExponentMark b) := by
  have hbody : ∀ b ∈ l.unsignedText, (!isExponentMark b) := by
    intro b hb
    rcases l.unsignedText_byte b hb with hdigit | rfl
    · have hnat := isDigit_iff.mp hdigit
      rw [Bool.not_eq_true', isExponentMark, Bool.or_eq_false_iff, beq_eq_false_iff_ne, beq_eq_false_iff_ne]
      constructor
      · rintro rfl
        exact absurd hnat.2 (by decide)
      · rintro rfl
        exact absurd hnat.2 (by decide)
    · rfl
  intro b hb
  unfold signed at hb
  split_ifs at hb
  · rcases mem_cons.mp hb with rfl | hb
    · rfl
    · exact hbody b hb
  · exact hbody b hb

lemma exponentText_head (e : Option ExponentPart) :
    ∀ b, (e.elim [] ExponentPart.text).head? = some b → (!isExponentMark b) = false := by
  intro b hb
  cases e with
  | none => cases hb
  | some e =>
    have hmark : e.mark = b := by simpa [ExponentPart.text] using hb
    rw [← hmark, e.mark_eq]
    rfl

lemma takeWhile_text :
    l.text.takeWhile (fun b => !isExponentMark b) = signed l.minus l.unsignedText := by
  unfold text
  rw [takeWhile_append_of_pos l.significand_no_mark]
  have hrest :
      (l.exponent.elim [] ExponentPart.text).takeWhile (fun b => !isExponentMark b) = [] := by
    cases hs : l.exponent.elim [] ExponentPart.text with
    | nil => rfl
    | cons b rest =>
      have hb := exponentText_head l.exponent b (by rw [hs]; rfl)
      rw [takeWhile_cons, hb]
      rfl
  rw [hrest, append_nil]

lemma dropWhile_text :
    l.text.dropWhile (fun b => !isExponentMark b) = l.exponent.elim [] ExponentPart.text := by
  have hsplit := takeWhile_append_dropWhile (p := fun b => !isExponentMark b) (l := l.text)
  rw [takeWhile_text] at hsplit
  exact append_cancel_left hsplit

lemma cut_unsignedText :
    cut 0x2E l.unsignedText = (l.whole, l.fractionDigits, l.fraction.isSome) := by
  have hdot : 0x2E ∉ l.whole := by
    intro hmem
    have := l.whole_digits _ hmem
    cases this
  unfold unsignedText fractionDigits
  cases l.fraction with
  | none =>
    rw [Option.elim_none, append_nil]
    exact cut_of_not_mem hdot
  | some f => exact cut_append_cons hdot f

end DecimalLiteral

lemma shifted_value (w f : ℕ) (k : ℕ) (exponent : ℤ) : ((w : ℚ) + f / 10 ^ k) * 10 ^ exponent =
      ((w * 10 ^ k + f : ℕ) : ℚ) * 10 ^ (-((k : ℤ) - exponent)).toNat / 10 ^ ((k : ℤ) - exponent).toNat := by
  have hpow : (10 : ℚ) ^ exponent * 10 ^ ((k : ℤ) - exponent).toNat =
      10 ^ k * 10 ^ (-((k : ℤ) - exponent)).toNat := by
    rw [← zpow_natCast, ← zpow_natCast (10 : ℚ) k, ← zpow_natCast, ← zpow_add₀ (by norm_num), ← zpow_add₀ (by norm_num)]
    congr 1
    omega
  rw [eq_div_iff (by positivity), mul_assoc, hpow]
  push_cast
  field_simp

lemma parseSignificand_ok {main : GoStr} {exponent : ℤ} {d : Decimal}
    (h : parseSignificand main exponent = .ok d) :
    ∃ whole fraction dot, cut 0x2E (magnitude main) = (whole, fraction, dot) ∧
      (whole ≠ [] ∨ fraction ≠ []) ∧ AllDigits whole ∧ AllDigits fraction ∧ d.Canonical ∧
      d.value = (if negative main then -1 else 1) * (natValue whole + natValue fraction / 10 ^ fraction.length) *
        10 ^ exponent := by
  unfold parseSignificand at h
  split_ifs at h
  rcases hcut : cut 0x2E (magnitude main) with ⟨whole, fraction, dot⟩
  rw [hcut] at h
  dsimp only at h
  split_ifs at h with hdots hnil hdigits hdigitsNil hexpand hscale
  simp only [not_or, not_not] at hdigits
  obtain ⟨hcanonical, hvalue⟩ := Decimal.normalize_value h
  refine ⟨whole, fraction, dot, rfl, by tauto, hdigits.1, hdigits.2, hcanonical, ?_⟩
  have hall : AllDigits (whole ++ fraction ++ replicate (-((fraction.length : ℤ) - exponent)).toNat 0x30) := by
    refine (hdigits.1.append hdigits.2).append fun b hb => ?_
    rw [eq_of_mem_replicate hb]
    rfl
  rw [hvalue, mul_assoc, shifted_value, Decimal.value, intValue_signed _ (negative_of_digits hall),
    natValue_append, natValue_append, natValue_replicate_zero, length_replicate]
  push_cast
  ring

lemma parseDecimal_text {d : Decimal} (l : DecimalLiteral) (h : parseDecimal l.text = .ok d) :
    d.value = l.value := by
  unfold parseDecimal at h
  split_ifs at h
  obtain ⟨exponent, hexponent, hmain⟩ := bind_eq_ok.mp h
  rw [l.dropWhile_text] at hexponent
  rw [l.takeWhile_text] at hmain
  obtain ⟨whole, fraction, dot, hcut, -, -, -, -, hvalue⟩ := parseSignificand_ok hmain
  obtain ⟨hneg, hmag⟩ := signed_spec l.minus l.unsignedText_not_negative
  rw [hmag, l.cut_unsignedText] at hcut
  cases hcut
  have hexp : exponent = l.exponent.elim 0 ExponentPart.value := by
    cases he : l.exponent with
    | none =>
      rw [he] at hexponent
      exact (Except.ok.inj hexponent).symm
    | some e =>
      rw [he] at hexponent
      exact parseExponent_text e hexponent
  rw [hvalue, hneg, hexp, DecimalLiteral.value]

lemma parseDecimal_ok {d : Decimal} (h : parseDecimal raw = .ok d) :
    d.Canonical ∧ ∃ l : DecimalLiteral, l.text = raw := by
  unfold parseDecimal at h
  split_ifs at h
  obtain ⟨exponent, hexponent, hmain⟩ := bind_eq_ok.mp h
  obtain ⟨whole, fraction, dot, hcut, hne, hwhole, hfraction, hcanonical, -⟩ :=
    parseSignificand_ok hmain
  have hexp : ∃ e : Option ExponentPart,
      e.elim [] ExponentPart.text = raw.dropWhile (fun b => !isExponentMark b) := by
    cases hdrop : raw.dropWhile (fun b => !isExponentMark b) with
    | nil => exact ⟨none, rfl⟩
    | cons m expRaw =>
      rw [hdrop] at hexponent
      have hm : isExponentMark m := by
        have := head?_dropWhile_not (fun b => !isExponentMark b) raw
        rw [hdrop] at this
        simpa using this
      obtain ⟨e, htext⟩ := parseExponent_ok hm hexponent
      exact ⟨some e, htext⟩
  obtain ⟨e, hetext⟩ := hexp
  have hopt : ∃ f : Option GoStr, f.getD [] = fraction ∧ (∀ s ∈ f, s = fraction) ∧
      whole ++ f.elim [] (0x2E :: ·) = magnitude (raw.takeWhile fun b => !isExponentMark b) := by
    have hmag := cut_append 0x2E (magnitude (raw.takeWhile fun b => !isExponentMark b))
    rw [hcut] at hmag
    cases dot with
    | true => exact ⟨some fraction, rfl, fun s hs => (Option.some.inj hs).symm, hmag.symm⟩
    | false => exact ⟨none, (cut_false hcut).symm, fun s hs => (nomatch hs), hmag.symm⟩
  obtain ⟨f, rfl, hf, htext⟩ := hopt
  refine ⟨hcanonical, ⟨negative (raw.takeWhile fun b => !isExponentMark b), whole, f, e, hwhole,
    fun s hs => hf s hs ▸ hfraction, hne⟩, ?_⟩
  change signed _ (whole ++ _) ++ _ = raw
  rw [htext, signed_magnitude, hetext, takeWhile_append_dropWhile]

namespace Decimal

/-- `ToNanoUnits`: whole ledger units, without rounding. -/
def toNanoUnits (d : Decimal) : Except DecimalError Int64 := do
  let n ← d.normalize
  match setString n.coefficient with
  | none => .error (.invalid (lit "coefficient"))
  | some coefficient =>
    let checked (nanos : ℤ) : Except DecimalError Int64 :=
      if Fits nanos then .ok (Int64.ofInt nanos) else .error (.overflow (lit "ledger nanos"))
    if n.scale ≤ ledgerNanoScale then checked (coefficient * 10 ^ (ledgerNanoScale - n.scale))
    else
      let divisor : ℤ := 10 ^ (n.scale - ledgerNanoScale)
      if coefficient.tmod divisor ≠ 0 then .error (.precision (lit "value has sub-nano precision"))
      else checked (coefficient.tdiv divisor)

/-- `DecimalFromNanoUnits`; the error stands for its panic. -/
def decimalFromNanoUnits (nanos : Int64) : Except DecimalError Decimal :=
  normalize ⟨formatInt nanos.toInt, ledgerNanoScale⟩

lemma toNanoUnits_iff {d n : Decimal} (h : d.normalize = .ok n) (x : Int64) :
    d.toNanoUnits = .ok x ↔ d.value * 10 ^ 9 = x.toInt := by
  obtain ⟨hcanonical, hvalue⟩ := normalize_value h
  have hchecked : ∀ nanos : ℤ, (if Fits nanos then Except.ok (Int64.ofInt nanos)
      else .error (.overflow (lit "ledger nanos")) :
      Except DecimalError Int64) = .ok x ↔ nanos = x.toInt := by
    intro nanos
    by_cases hfits : Fits nanos
    · rw [if_pos hfits, Except.ok.injEq, ← Int64.toInt_inj, Int64.toInt_ofInt_of_le hfits.1 hfits.2]
    · rw [if_neg hfits]
      refine ⟨fun hx => (nomatch hx), fun hx => absurd (fits_toInt x) (hx ▸ hfits)⟩
  unfold toNanoUnits
  rw [h, ← hvalue]
  change (match setString n.coefficient with | none => _ | some _ => _) = _ ↔ _
  rw [setString_of_magnitude hcanonical.numeral.digits hcanonical.numeral.nonempty]
  dsimp only
  unfold value
  by_cases hscale : n.scale ≤ ledgerNanoScale
  · rw [if_pos hscale, hchecked]
    have hpow : (10 : ℚ) ^ 9 = 10 ^ n.scale * 10 ^ (ledgerNanoScale - n.scale) := by
      rw [← pow_add, Nat.add_sub_cancel' hscale]
      rfl
    rw [hpow, div_mul_eq_mul_div, mul_left_comm, mul_div_cancel_left₀ _ (by positivity)]
    norm_cast
  · rw [if_neg hscale]
    have hpow : (10 : ℚ) ^ n.scale = 10 ^ 9 * 10 ^ (n.scale - ledgerNanoScale) := by
      rw [← pow_add]
      congr 1
      unfold ledgerNanoScale at hscale ⊢
      omega
    have hdiv : (intValue n.coefficient : ℚ) / 10 ^ n.scale * 10 ^ 9 = x.toInt ↔
        intValue n.coefficient = x.toInt * 10 ^ (n.scale - ledgerNanoScale) := by
      rw [hpow, div_mul_eq_mul_div, div_eq_iff (by positivity), mul_comm, mul_left_comm]
      rw [mul_right_inj' (by positivity)]
      norm_cast
    rw [hdiv]
    by_cases hrem : (intValue n.coefficient).tmod (10 ^ (n.scale - ledgerNanoScale)) = 0
    · rw [if_neg (not_not.mpr hrem), hchecked]
      exact Int.tdiv_eq_iff_eq_mul_left (by positivity) (Int.dvd_of_tmod_eq_zero hrem)
    · rw [if_pos hrem]
      refine ⟨fun hx => (nomatch hx), fun hx => absurd ?_ hrem⟩
      rw [hx]
      exact Int.mul_tmod_left _ _

lemma decimalFromNanoUnits_ok (nanos : Int64) :
    ∃ d, decimalFromNanoUnits nanos = .ok d ∧ d.Canonical ∧ d.value = nanos.toInt / 10 ^ 9 := by
  have hfits := fits_toInt nanos
  have hnum := formatNat_numeral nanos.toInt.natAbs
  have hlen : (formatNat nanos.toInt.natAbs).length ≤ maxDecimalCoefficientDigits := by
    apply hnum.length_le (by decide)
    rw [natValue_formatNat]
    obtain ⟨hlow, hhigh⟩ := hfits
    unfold maxDecimalCoefficientDigits
    omega
  have hok : ∃ n, decimalFromNanoUnits nanos = .ok n := by
    apply normalize_ok
    · exact (by decide : ledgerNanoScale ≤ maxDecimalScale)
    · rw [magnitude_formatInt]
      exact hnum.nonempty
    · rw [magnitude_formatInt]
      exact hnum.digits
    · rwa [magnitude_formatInt]
  obtain ⟨n, hn⟩ := hok
  obtain ⟨hcanonical, hvalue⟩ := normalize_value hn
  refine ⟨n, hn, hcanonical, ?_⟩
  rw [hvalue, value, intValue_formatInt]
  rfl

/-- Each value has one decimal that validates, `Normalize` and `ParseDecimal` find it, and the
passage to ledger units is exact. -/
theorem decimal_canonical_form :
    (∀ d n : Decimal, d.normalize = .ok n → n.validate = .ok () ∧ n.value = d.value ∧ n.normalize = .ok n) ∧
    (∀ d : Decimal, d.validate = .ok () → d.normalize = .ok d) ∧
    (∀ d e : Decimal, d.validate = .ok () → e.validate = .ok () → (d.normalize = e.normalize ↔ d.value = e.value)) ∧
    (∀ (raw : GoStr) (d : Decimal), parseDecimal raw = .ok d →
      d.validate = .ok () ∧ (∃ l : DecimalLiteral, l.text = raw) ∧
        ∀ l : DecimalLiteral, l.text = raw → d.value = l.value) ∧
    (∀ nanos : Int64, ∃ d, decimalFromNanoUnits nanos = .ok d ∧ d.toNanoUnits = .ok nanos) ∧
    ∀ d : Decimal, d.validate = .ok () →
      ((∃ e, d.toNanoUnits = .error e) ↔ ¬ ∃ x : Int64, d.value * 10 ^ 9 = x.toInt) ∧
      ∀ x : Int64, d.toNanoUnits = .ok x → d.value * 10 ^ 9 = x.toInt := by
  refine ⟨?_, ?_, ?_, ?_, ?_, ?_⟩
  · intro d n h
    obtain ⟨hcanonical, hvalue⟩ := normalize_value h
    exact ⟨validate_iff.mpr hcanonical, hvalue, normalize_of_canonical hcanonical⟩
  · intro d h
    exact normalize_of_canonical (validate_iff.mp h)
  · intro d e hd he
    rw [normalize_of_canonical (validate_iff.mp hd), normalize_of_canonical (validate_iff.mp he), Except.ok.injEq]
    refine ⟨fun h => h ▸ rfl, canonical_injective (validate_iff.mp hd) (validate_iff.mp he)⟩
  · intro raw d h
    obtain ⟨hcanonical, hliteral⟩ := parseDecimal_ok h
    exact ⟨validate_iff.mpr hcanonical, hliteral, fun l htext => parseDecimal_text l (htext ▸ h)⟩
  · intro nanos
    obtain ⟨d, hd, hcanonical, hvalue⟩ := decimalFromNanoUnits_ok nanos
    refine ⟨d, hd, (toNanoUnits_iff (normalize_of_canonical hcanonical) nanos).mpr ?_⟩
    rw [hvalue]
    field_simp
  · intro d h
    have hiff := toNanoUnits_iff (normalize_of_canonical (validate_iff.mp h))
    refine ⟨?_, fun x hx => (hiff x).mp hx⟩
    constructor
    · rintro ⟨e, he⟩ ⟨x, hx⟩
      rw [(hiff x).mpr hx] at he
      cases he
    · intro hnone
      cases hd : d.toNanoUnits with
      | error e => exact ⟨e, rfl⟩
      | ok x => exact absurd ⟨x, (hiff x).mp hd⟩ hnone

theorem decimal_canonical_form_literals : (normalize ⟨lit "-0050", 2⟩ = .ok ⟨lit "-5", 1⟩ ∧
      value ⟨lit "-5", 1⟩ = value ⟨lit "-0050", 2⟩) ∧
    parseDecimal (lit "-1.5e3") = .ok ⟨lit "-1500", 0⟩ ∧
    ∀ l : DecimalLiteral, l.text = lit "-1.5e3" → value ⟨lit "-1500", 0⟩ = l.value := by
  refine ⟨⟨?normalizes, (decimal_canonical_form.1 _ _ ?normalizes).2.1⟩, ?parses,
    (decimal_canonical_form.2.2.2.1 _ _ ?parses).2.2⟩
  · decide +kernel
  · decide +kernel

end Decimal

end InteractiveProxy.Metering
