import InteractiveProxy.GoText
import InteractiveProxy.SignedWord
import Mathlib.Data.Rat.Floor
import Mathlib.Tactic.FieldSimp

/-! Rounding of exact rationals to integer ledger units under a declared policy. -/
namespace InteractiveProxy.Economics

open GoText SignedWord

inductive RoundingPolicy
  | unspecified
  | halfAwayFromZero
  | halfEven
  | towardZero
  | floor
  | other (text : GoStr)
  deriving DecidableEq

def RoundingPolicy.isKnown : RoundingPolicy → Bool
  | other _ => false
  | _ => true

inductive RoundingError
  | unknownPolicy (text : GoStr)
  | overflow

def int64Checked (v : ℤ) : Except RoundingError Int64 :=
  if Fits v then .ok (Int64.ofInt v) else .error .overflow

/-- The rounded quotient before the check of its range: `quo` and `rem` are truncated towards zero.
-/
def roundParts (policy : RoundingPolicy) (num : ℤ) (den : ℕ) : ℤ :=
  let quo := num.tdiv den
  let rem := num.tmod den
  let away := if num < 0 then quo - 1 else quo + 1
  if rem = 0 then quo
  else
    match policy with
    | .floor => if num < 0 then quo - 1 else quo
    | .halfAwayFromZero => if 2 * rem.natAbs ≥ den then away else quo
    | .halfEven => if 2 * rem.natAbs > den ∨ (2 * rem.natAbs = den ∧ quo % 2 = 1) then away else quo
    | _ => quo

/-- `RoundToInt64`. A rational is never nil here and its denominator is positive. -/
def roundToInt64 (r : ℚ) (policy : RoundingPolicy) : Except RoundingError Int64 :=
  match policy with
  | .other text => .error (.unknownPolicy text)
  | .unspecified => int64Checked (roundParts .towardZero r.num r.den)
  | policy => int64Checked (roundParts policy r.num r.den)

/-- What the policies promise of the integer `n` for the rational `q`. -/
def IsRounded (policy : RoundingPolicy) (q : ℚ) (n : ℤ) : Prop :=
  match policy with
  | .floor => n = ⌊q⌋
  | .halfAwayFromZero => |q - n| ≤ 1 / 2 ∧ (|q - n| = 1 / 2 → |q| < |(n : ℚ)|)
  | .halfEven => |q - n| ≤ 1 / 2 ∧ (|q - n| = 1 / 2 → Even n)
  | .other _ => False
  | _ => |(n : ℚ)| ≤ |q| ∧ |q - n| < 1 ∧ 0 ≤ q * n

def quotient (q : ℚ) : ℤ := q.num.tdiv q.den

def rest (q : ℚ) : ℚ := q.num.tmod q.den / q.den

lemma quotient_add_rest (q : ℚ) : q = quotient q + rest q := by
  have hden : (q.den : ℚ) ≠ 0 := by exact_mod_cast q.den_ne_zero
  have hsplit : (q.num : ℚ) = q.den * quotient q + q.num.tmod q.den := by
    exact_mod_cast (Int.mul_tdiv_add_tmod q.num q.den).symm
  calc q = q.num / q.den := q.num_div_den.symm
    _ = quotient q + rest q := by
      rw [hsplit, add_div, mul_div_cancel_left₀ _ hden]
      rfl

variable (q : ℚ)

/-- Both parts have the sign of the number. -/
lemma rest_sign : (q.num < 0 ∧ rest q ≤ 0 ∧ (quotient q : ℚ) ≤ 0) ∨ ¬q.num < 0 ∧ 0 ≤ rest q ∧
    (0 : ℚ) ≤ quotient q := by
  have hden : (0 : ℤ) ≤ q.den := by positivity
  by_cases hneg : q.num < 0
  · have hnum : 0 ≤ -q.num := by omega
    have hmod := Int.tmod_nonneg q.den hnum
    have hdiv := Int.tdiv_nonneg hnum hden
    rw [Int.neg_tmod, neg_nonneg] at hmod
    rw [Int.neg_tdiv, neg_nonneg] at hdiv
    exact .inl ⟨hneg, div_nonpos_of_nonpos_of_nonneg (by exact_mod_cast hmod) (by positivity), by exact_mod_cast hdiv⟩
  · have hmod := Int.tmod_nonneg q.den (not_lt.mp hneg)
    have hdiv := Int.tdiv_nonneg (not_lt.mp hneg) hden
    exact .inr ⟨hneg, div_nonneg (by exact_mod_cast hmod) (by positivity), by exact_mod_cast hdiv⟩

lemma abs_rest : |rest q| = (q.num.tmod q.den).natAbs / q.den := by
  unfold rest
  rw [abs_div, Nat.abs_cast, Nat.cast_natAbs, Int.cast_abs]

lemma abs_rest_lt : |rest q| < 1 := by
  rw [abs_rest, div_lt_one (by exact_mod_cast q.den_pos), Int.natAbs_tmod]
  exact_mod_cast Nat.mod_lt _ q.den_pos

lemma half_lt_rest : 2 * (q.num.tmod q.den).natAbs > q.den ↔ 1 / 2 < |rest q| := by
  rw [abs_rest, lt_div_iff₀ (by exact_mod_cast q.den_pos), gt_iff_lt, ← Nat.cast_lt (α := ℚ)]
  push_cast
  constructor <;> intro h <;> linarith

lemma half_eq_rest : 2 * (q.num.tmod q.den).natAbs = q.den ↔ |rest q| = 1 / 2 := by
  rw [abs_rest, div_eq_iff (by exact_mod_cast q.den_ne_zero), ← Nat.cast_inj (R := ℚ)]
  push_cast
  constructor <;> intro h <;> linarith

lemma rest_eq_zero : q.num.tmod q.den = 0 ↔ rest q = 0 := by
  unfold rest
  simp

variable {q : ℚ}

lemma away_close (hhalf : 1 / 2 ≤ |rest q|) :
    |q - ((if q.num < 0 then quotient q - 1 else quotient q + 1 : ℤ) : ℚ)| = 1 - |rest q| ∧
      |((if q.num < 0 then quotient q - 1 else quotient q + 1 : ℤ) : ℚ)| =
      |q| + (1 - |rest q|) := by
  have hq := quotient_add_rest q
  have hlt := abs_rest_lt q
  rcases rest_sign q with ⟨hneg, hrest, hquo⟩ | ⟨hneg, hrest, hquo⟩
  · rw [if_pos hneg]
    rw [abs_of_nonpos hrest] at hhalf hlt ⊢
    push_cast
    rw [abs_of_nonneg (by linarith : 0 ≤ q - ((quotient q : ℚ) - 1)),
      abs_of_nonpos (by linarith : (quotient q : ℚ) - 1 ≤ 0), abs_of_nonpos (by linarith : q ≤ 0)]
    constructor <;> linarith
  · rw [if_neg hneg]
    rw [abs_of_nonneg hrest] at hhalf hlt ⊢
    push_cast
    rw [abs_of_nonpos (by linarith : q - ((quotient q : ℚ) + 1) ≤ 0),
      abs_of_nonneg (by linarith : 0 ≤ (quotient q : ℚ) + 1), abs_of_nonneg (by linarith : 0 ≤ q)]
    constructor <;> linarith

lemma quotient_close (q : ℚ) : |q - quotient q| = |rest q| := by
  congr 1
  linarith [quotient_add_rest q]

lemma halfAway_isRounded : IsRounded .halfAwayFromZero q
    (if 2 * (q.num.tmod q.den).natAbs ≥ q.den then (if q.num < 0 then quotient q - 1 else quotient q + 1)
      else quotient q) := by
  by_cases hhalf : 2 * (q.num.tmod q.den).natAbs ≥ q.den
  · rw [if_pos hhalf]
    have hle : 1 / 2 ≤ |rest q| := by
      rcases Nat.lt_or_eq_of_le hhalf with hlt | heq
      · exact ((half_lt_rest q).mp hlt).le
      · exact ((half_eq_rest q).mp heq.symm).ge
    obtain ⟨hclose, habs⟩ := away_close hle
    refine ⟨by rw [hclose]; linarith, fun _ => ?_⟩
    linarith [abs_rest_lt q]
  · rw [if_neg hhalf]
    have hlt : |rest q| < 1 / 2 := by
      rcases lt_trichotomy (|rest q|) (1 / 2) with h | h | h
      · exact h
      · exact absurd ((half_eq_rest q).mpr h).ge hhalf
      · exact absurd ((half_lt_rest q).mpr h).le hhalf
    unfold IsRounded
    rw [quotient_close]
    exact ⟨hlt.le, fun h => absurd h hlt.ne⟩

lemma halfEven_isRounded : IsRounded .halfEven q
    (if 2 * (q.num.tmod q.den).natAbs > q.den ∨ (2 * (q.num.tmod q.den).natAbs = q.den ∧ quotient q % 2 = 1) then
      (if q.num < 0 then quotient q - 1 else quotient q + 1) else quotient q) := by
  by_cases haway : 2 * (q.num.tmod q.den).natAbs > q.den ∨
    (2 * (q.num.tmod q.den).natAbs = q.den ∧ quotient q % 2 = 1)
  · rw [if_pos haway]
    rw [half_lt_rest, half_eq_rest] at haway
    have hle : 1 / 2 ≤ |rest q| := by
      rcases haway with h | h
      · exact h.le
      · exact h.1.ge
    obtain ⟨hclose, -⟩ := away_close hle
    refine ⟨by rw [hclose]; linarith, fun htie => ?_⟩
    have hodd : quotient q % 2 = 1 := by
      rcases haway with h | h
      · linarith
      · exact h.2
    rw [Int.even_iff]
    split_ifs <;> omega
  · rw [if_neg haway]
    rw [half_lt_rest, half_eq_rest] at haway
    simp only [not_or, not_lt, not_and] at haway
    unfold IsRounded
    rw [quotient_close]
    refine ⟨haway.1, fun htie => ?_⟩
    have := haway.2 htie
    rw [Int.even_iff]
    omega

lemma floor_isRounded (hzero : rest q ≠ 0) :
    IsRounded .floor q (if q.num < 0 then quotient q - 1 else quotient q) := by
  have hq := quotient_add_rest q
  have hlt := abs_rest_lt q
  unfold IsRounded
  rcases rest_sign q with ⟨hneg, hrest, -⟩ | ⟨hneg, hrest, -⟩
  · rw [abs_of_nonpos hrest] at hlt
    have hstrict : rest q < 0 := lt_of_le_of_ne hrest hzero
    rw [if_pos hneg, eq_comm, Int.floor_eq_iff]
    push_cast
    constructor <;> linarith
  · rw [abs_of_nonneg hrest] at hlt
    rw [if_neg hneg, eq_comm, Int.floor_eq_iff]
    constructor <;> linarith

lemma towardZero_isRounded (q : ℚ) : IsRounded .towardZero q (quotient q) := by
  have hq := quotient_add_rest q
  have hclose : |q - quotient q| < 1 := by
    rw [quotient_close]
    exact abs_rest_lt q
  rcases rest_sign q with ⟨-, hrest, hquo⟩ | ⟨-, hrest, hquo⟩
  · refine ⟨?_, hclose, mul_nonneg_of_nonpos_of_nonpos (by linarith) hquo⟩
    rw [abs_of_nonpos hquo, abs_of_nonpos (by linarith)]
    linarith
  · refine ⟨?_, hclose, mul_nonneg (by linarith) hquo⟩
    rw [abs_of_nonneg hquo, abs_of_nonneg (by linarith)]
    linarith

variable {policy : RoundingPolicy}

lemma isRounded_int (hknown : policy.isKnown) (n : ℤ) : IsRounded policy n n := by
  cases policy with
  | floor => exact (Int.floor_intCast n).symm
  | other _ => cases hknown
  | _ =>
    unfold IsRounded
    simp [mul_self_nonneg]

lemma roundParts_isRounded (hknown : policy.isKnown) (q : ℚ) :
    IsRounded policy q (roundParts policy q.num q.den) := by
  unfold roundParts
  by_cases hzero : q.num.tmod q.den = 0
  · have hq := quotient_add_rest q
    rw [(rest_eq_zero q).mp hzero, add_zero] at hq
    simp only [hzero]
    nth_rewrite 1 [hq]
    exact isRounded_int hknown (quotient q)
  · simp only [hzero]
    cases policy with
    | floor => exact floor_isRounded (mt (rest_eq_zero q).mpr hzero)
    | halfAwayFromZero => exact halfAway_isRounded
    | halfEven => exact halfEven_isRounded
    | other _ => cases hknown
    | unspecified => exact towardZero_isRounded q
    | towardZero => exact towardZero_isRounded q

lemma int64Checked_ok {v : ℤ} {n : Int64} (h : int64Checked v = .ok n) : n.toInt = v := by
  unfold int64Checked at h
  split_ifs at h with hfits
  cases h
  exact Int64.toInt_ofInt_of_le hfits.1 hfits.2

lemma roundToInt64_known (hknown : policy.isKnown) (q : ℚ) :
    roundToInt64 q policy = int64Checked (roundParts policy q.num q.den) := by
  cases policy with
  | other text => cases hknown
  | _ => rfl

lemma roundToInt64_isRounded {n : Int64} (h : roundToInt64 q policy = .ok n) :
    IsRounded policy q n.toInt := by
  cases policy with
  | other _ => cases h
  | _ =>
    rw [int64Checked_ok h]
    exact roundParts_isRounded rfl q

/-- `bits.Mul64`: the high and the low word of a product. -/
def mul64 (x y : ℕ) : ℕ × ℕ := (x * y / 2 ^ 64, x * y % 2 ^ 64)

/-- `bits.Div64` of a two-word number: the quotient and the remainder. -/
def div64 (hi lo y : ℕ) : ℕ × ℕ := ((hi * 2 ^ 64 + lo) / y, (hi * 2 ^ 64 + lo) % y)

def tokensPerMillion : ℕ := 1000000

inductive ConversionError
  | negative
  | zeroRate
  | overflow
  | rounding (e : RoundingError)

def mulTokensByRatePer1M (tokens price : Int64) : Except ConversionError Int64 :=
  if tokens < 0 ∨ price < 0 then .error .negative
  else if tokens = 0 ∨ price = 0 then .ok 0
  else
    let (hi, lo) := mul64 tokens.toInt.toNat price.toInt.toNat
    if tokensPerMillion ≤ hi then .error .overflow
    else
      let (q, _) := div64 hi lo tokensPerMillion
      if 2 ^ 63 ≤ q then .error .overflow else .ok (.ofInt q)

/-- `TokensFromMoneyPer1M` past its checks, on the words of its operands. -/
def tokensFromWords (money price : ℕ) (policy : RoundingPolicy) : Except ConversionError Int64 :=
  let (hi, lo) := mul64 money tokensPerMillion
  if price ≤ hi then .error .overflow
  else
    let (q, rem) := div64 hi lo price
    if rem = 0 ∨ policy = .towardZero ∨ policy = .floor then
      if 2 ^ 63 ≤ q then .error .overflow else .ok (.ofInt q)
    else (roundToInt64 ((money * tokensPerMillion : ℕ) / price) policy).mapError .rounding

def tokensFromMoneyPer1M (money price : Int64) (policy : RoundingPolicy) :
    Except ConversionError Int64 :=
  if money < 0 ∨ price < 0 then .error .negative
  else if price = 0 then .error .zeroRate
  else if money = 0 then .ok 0
  else
    match policy with
    | .other text => .error (.rounding (.unknownPolicy text))
    | .unspecified => tokensFromWords money.toInt.toNat price.toInt.toNat .towardZero
    | policy => tokensFromWords money.toInt.toNat price.toInt.toNat policy

variable {policy : RoundingPolicy} {q : ℚ} {m n : ℤ}

/-- The policies leave no choice: of two candidates one apart, the rational lies between them. -/
lemma IsRounded.le (hm : IsRounded policy q m) (hn : IsRounded policy q n) : n ≤ m := by
  by_contra hlt
  have hlt : (m : ℚ) + 1 ≤ n := by exact_mod_cast not_le.mp hlt
  have hsign : (0 : ℚ) ≤ m ∨ (m : ℚ) + 1 ≤ 0 := by exact_mod_cast le_or_gt 0 m
  have htie (P : ℤ → Prop) (hm : |q - m| ≤ 1 / 2 ∧ (|q - m| = 1 / 2 → P m))
      (hn : |q - n| ≤ 1 / 2 ∧ (|q - n| = 1 / 2 → P n)) : q = m + 1 / 2 ∧ P m ∧ P (m + 1) := by
    obtain ⟨-, hlow⟩ := abs_le.mp hm.1
    obtain ⟨hhigh, -⟩ := abs_le.mp hn.1
    obtain rfl : n = m + 1 := by exact_mod_cast (by linarith : (n : ℚ) = m + 1)
    obtain rfl : q = m + 1 / 2 := by linarith
    refine ⟨rfl, hm.2 ?_, hn.2 ?_⟩
    · norm_num
    · push_cast
      norm_num
  cases policy with
  | floor => exact absurd hlt (by rw [hm, hn]; linarith)
  | other text => exact hm
  | halfAwayFromZero =>
    obtain ⟨rfl, hm, hn⟩ := htie (fun k => |q| < |(k : ℚ)|) hm hn
    push_cast at hm hn
    rcases hsign with h | h
    · linarith [abs_of_nonneg h, le_abs_self ((m : ℚ) + 1 / 2)]
    · linarith [abs_of_nonpos h, neg_le_abs ((m : ℚ) + 1 / 2)]
  | halfEven =>
    obtain ⟨-, hm, hn⟩ := htie Even hm hn
    rw [Int.even_iff] at hm hn
    omega
  | unspecified | towardZero =>
    obtain ⟨-, hlow⟩ := abs_lt.mp hm.2.1
    obtain ⟨hhigh, -⟩ := abs_lt.mp hn.2.1
    rcases hsign with h | h
    · linarith [hn.1, le_abs_self (n : ℚ), abs_of_nonneg (by linarith : 0 ≤ q)]
    · linarith [hm.1, neg_le_abs (m : ℚ), abs_of_nonpos (by linarith : q ≤ 0)]

lemma floor_le_roundParts (policy : RoundingPolicy) (hq : 0 ≤ q) :
    ⌊q⌋ ≤ roundParts policy q.num q.den := by
  have hnum : 0 ≤ q.num := Rat.num_nonneg.mpr hq
  rw [Rat.floor_def', ← Int.tdiv_eq_ediv_of_nonneg hnum]
  unfold roundParts
  cases policy <;> dsimp only <;> split_ifs <;> omega

lemma roundParts_floor (hq : 0 ≤ q) (h : q.den = 1 ∨ policy = .towardZero ∨ policy = .floor) :
    roundParts policy q.num q.den = ⌊q⌋ := by
  have hnum : 0 ≤ q.num := Rat.num_nonneg.mpr hq
  rw [Rat.floor_def', ← Int.tdiv_eq_ediv_of_nonneg hnum]
  rcases h with h | rfl | rfl
  · simp [roundParts, h]
  · simp [roundParts]
  · simp [roundParts, not_lt.mpr hnum]

/-- The overflow guard and the fast path against the slow one. -/
lemma tokensFromWords_agree (hknown : policy.isKnown) (x : ℕ) {p : ℕ} (hp : 0 < p) :
    (tokensFromWords x p policy).toOption =
    (roundToInt64 ((x * tokensPerMillion : ℕ) / p) policy).toOption := by
  rw [tokensFromWords, mul64, roundToInt64_known hknown]
  generalize x * tokensPerMillion = N
  have hq : (0 : ℚ) ≤ N / p := by positivity
  have hfloor : ⌊(N / p : ℚ)⌋ = (N / p : ℕ) := Rat.floor_natCast_div_natCast N p
  have hexact (h : N % p = 0 ∨ policy = .towardZero ∨ policy = .floor) :
      roundParts policy (N / p : ℚ).num (N / p : ℚ).den = (N / p : ℕ) := by
    rw [roundParts_floor hq (h.imp_left fun h => ?_), hfloor]
    obtain ⟨k, rfl⟩ := Nat.dvd_of_mod_eq_zero h
    rw [Nat.cast_mul, mul_div_cancel_left₀ _ (by positivity)]
    simp
  have hnonneg := Int.natCast_nonneg (N / p)
  simp only [div64, Nat.div_add_mod', int64Checked]
  by_cases hbig : p ≤ N / 2 ^ 64
  · have hle := floor_le_roundParts policy hq
    have hlarge : 2 ^ 64 ≤ N / p := by
      rwa [Nat.le_div_iff_mul_le hp, mul_comm, ← Nat.le_div_iff_mul_le (by norm_num)]
    rw [if_pos hbig, if_neg (by unfold Fits; omega)]
    rfl
  rw [if_neg hbig]
  by_cases hfast : N % p = 0 ∨ policy = .towardZero ∨ policy = .floor
  · rw [if_pos hfast, hexact hfast]
    by_cases hover : 2 ^ 63 ≤ N / p
    · rw [if_pos hover, if_neg (by unfold Fits; omega)]
      rfl
    · rw [if_neg hover, if_pos (by unfold Fits; omega)]
      rfl
  · split_ifs <;> rfl

section Price
variable {money price t : Int64} (hmoney : 0 ≤ money.toInt) (hprice : 0 < price.toInt)
include hmoney hprice

lemma tokens_agree (hknown : policy.isKnown) :
    (tokensFromMoneyPer1M money price policy).toOption =
      (roundToInt64 (money.toInt * tokensPerMillion / price.toInt) policy).toOption := by
  have hneg : ¬ (money < 0 ∨ price < 0) := by
    simp only [Int64.lt_iff_toInt_lt, toInt_zero]
    omega
  have hrate : price ≠ 0 := by
    rintro rfl
    exact absurd hprice (by decide)
  obtain ⟨x, hx⟩ := Int.eq_ofNat_of_zero_le hmoney
  obtain ⟨p, hp⟩ := Int.eq_ofNat_of_zero_le hprice.le
  have hpos : 0 < p := by omega
  have hquot : (money.toInt * tokensPerMillion / price.toInt : ℚ) =
      ((x * tokensPerMillion : ℕ) : ℚ) / p := by
    rw [hx, hp]
    push_cast
    rfl
  unfold tokensFromMoneyPer1M
  rw [if_neg hrate, hquot, hx, hp]
  split_ifs with hzero
  · have hx0 : x = 0 := by
      rw [hzero, toInt_zero] at hx
      omega
    rw [← tokensFromWords_agree hknown x hpos]
    simp [hx0, tokensFromWords, mul64, div64, hpos.ne']
  · cases policy with
    | other text => cases hknown
    | unspecified =>
      exact tokensFromWords_agree (rfl : RoundingPolicy.towardZero.isKnown = true) x hpos
    | _ => exact tokensFromWords_agree rfl x hpos

omit hmoney in
lemma mulTokens_le (ht : 0 ≤ t.toInt) {x : ℕ} (hx : x < 2 ^ 63)
    (hle : t.toInt.toNat * price.toInt.toNat ≤ x * tokensPerMillion) :
    ∃ m, mulTokensByRatePer1M t price = .ok m ∧ m.toInt ≤ x := by
  have hneg : ¬ (t < 0 ∨ price < 0) := by
    simp only [Int64.lt_iff_toInt_lt, toInt_zero]
    omega
  unfold mulTokensByRatePer1M
  split_ifs
  · exact ⟨0, rfl, by simp⟩
  simp only [mul64, div64, Nat.div_add_mod']
  unfold tokensPerMillion at *
  rw [if_neg (by omega), if_neg (by omega)]
  refine ⟨_, rfl, ?_⟩
  rw [Int64.toInt_ofInt_of_le (by omega) (by omega)]
  omega

lemma priced_back (ht : tokensFromMoneyPer1M money price .towardZero = .ok t) :
    ∃ m, mulTokensByRatePer1M t price = .ok m ∧ m.toInt ≤ money.toInt := by
  have hrate : (0 : ℚ) < price.toInt := by exact_mod_cast hprice
  have hq : (0 : ℚ) ≤ money.toInt * tokensPerMillion / price.toInt := by
    positivity
  have hround := tokens_agree hmoney hprice (rfl : RoundingPolicy.towardZero.isKnown = true)
  rw [ht, roundToInt64_known rfl, int64Checked, roundParts_floor hq (.inr (.inl rfl))] at hround
  split_ifs at hround with hfits
  · have htokens : t.toInt = ⌊(money.toInt * tokensPerMillion / price.toInt : ℚ)⌋ := by
      rw [Option.some.inj hround, Int64.toInt_ofInt_of_le hfits.1 hfits.2]
    have hpos : 0 ≤ t.toInt := htokens ▸ Int.floor_nonneg.mpr hq
    have hle := (le_div_iff₀ hrate).mp (htokens ▸ Int.floor_le _)
    obtain ⟨x, hx⟩ := Int.eq_ofNat_of_zero_le hmoney
    have hmax := (fits_toInt money).2
    rw [hx] at hle hmax ⊢
    refine mulTokens_le hprice hpos (by omega) ?_
    zify
    rw [Int.toNat_of_nonneg hpos, Int.toNat_of_nonneg hprice.le]
    exact_mod_cast hle
  · cases hround

end Price

/-- `RoundToInt64` gives the one integer that the policy promises, unless it is no int64; the
conversion of money into tokens agrees with it on either path, and the whole tokens that money buys
are never priced above it. -/
theorem rounding_exact (hknown : policy.isKnown) (q : ℚ) (money price : Int64)
    (hmoney : 0 ≤ money.toInt) (hprice : 0 < price.toInt) :
    (∃ n, IsRounded policy q n ∧ (∀ m, IsRounded policy q m → m = n) ∧
        roundToInt64 q policy = if Fits n then .ok (Int64.ofInt n) else .error .overflow) ∧
      (tokensFromMoneyPer1M money price policy).toOption =
        (roundToInt64 (money.toInt * tokensPerMillion / price.toInt) policy).toOption ∧
      ∀ t, tokensFromMoneyPer1M money price .towardZero = .ok t →
        ∃ m, mulTokensByRatePer1M t price = .ok m ∧ m.toInt ≤ money.toInt := by
  have hround := roundParts_isRounded hknown q
  refine ⟨⟨_, hround, fun m hm => le_antisymm (hround.le hm) (hm.le hround), roundToInt64_known hknown q⟩,
    tokens_agree hmoney hprice hknown, fun t ht => priced_back hmoney hprice ht⟩

theorem rounding_exact_thirds : RoundingPolicy.halfEven.isKnown ∧ (0 : ℤ) ≤ (2 : Int64).toInt ∧
    (0 : ℤ) < (3 : Int64).toInt ∧ (tokensFromMoneyPer1M 2 3 .halfEven).toOption =
      (roundToInt64 ((2 : Int64).toInt * tokensPerMillion / (3 : Int64).toInt) .halfEven).toOption :=
  ⟨rfl, by decide, by decide, (rounding_exact rfl 0 2 3 (by decide) (by decide)).2.1⟩

end InteractiveProxy.Economics
