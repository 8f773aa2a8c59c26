import Mathlib.Algebra.Order.Ring.Int

/-! Signed 64-bit counters read as integers: when the machine operation agrees with the
integer one. Instants and durations as Go's `time` package has them. -/
namespace InteractiveProxy.SignedWord
open Int64

def Fits (x : ℤ) : Prop := -2 ^ 63 ≤ x ∧ x < 2 ^ 63
  deriving Decidable

lemma fits_toInt (a : Int64) : Fits a.toInt := ⟨a.le_toInt, a.toInt_lt⟩

lemma bmod_of_fits {x : ℤ} (h : Fits x) : x.bmod (2 ^ 64) = x := by
  obtain ⟨hl, hu⟩ := h
  apply Int.bmod_eq_of_le <;> omega

variable {a b : Int64}

lemma toInt_add (h : Fits (a.toInt + b.toInt)) : (a + b).toInt = a.toInt + b.toInt := by
  rw [Int64.toInt_add, bmod_of_fits h]

lemma toInt_sub (h : Fits (a.toInt - b.toInt)) : (a - b).toInt = a.toInt - b.toInt := by
  rw [Int64.toInt_sub, bmod_of_fits h]

lemma toInt_sub_of_nonneg (ha : 0 ≤ a.toInt) (hb : 0 ≤ b.toInt) :
    (a - b).toInt = a.toInt - b.toInt := by
  apply toInt_sub
  have h1 := (fits_toInt a).2
  have h2 := (fits_toInt b).2
  constructor <;> omega

lemma toInt_max (a b : Int64) : (max a b).toInt = max a.toInt b.toInt := by
  change (if a ≤ b then b else a).toInt = _
  split_ifs with h
  · rw [le_iff_toInt_le] at h
    omega
  · rw [le_iff_toInt_le] at h
    omega

lemma toInt_min (a b : Int64) : (min a b).toInt = min a.toInt b.toInt := by
  change (if a ≤ b then a else b).toInt = _
  split_ifs with h
  · rw [le_iff_toInt_le] at h
    omega
  · rw [le_iff_toInt_le] at h
    omega

@[simp] lemma toInt_zero : (0 : Int64).toInt = 0 := rfl

/-- An instant, in nanoseconds since the zero `time.Time`. -/
abbrev Time := ℤ

/-- A `time.Duration`, in nanoseconds. -/
abbrev Duration := Int64

/-- `t.Add(d)`. -/
def Time.add (t : Time) (d : Duration) : Time := t + d.toInt

/-- `t.Sub(u)`: the difference, saturated to the range of a duration. -/
def Time.sub (t u : Time) : Duration :=
  if t - u < -2 ^ 63 then minValue
  else if 2 ^ 63 ≤ t - u then maxValue
  else ofInt (t - u)

/-- The Unix epoch, in nanoseconds since the zero `time.Time`. -/
def unixEpoch : Time := 62135596800000000000

/-- `t.UnixNano()`, which wraps outside the years 1678 to 2262. -/
def Time.unixNano (t : Time) : Int64 := ofInt (t - unixEpoch)

/-- `time.Unix(0, n)`. -/
def Time.ofUnixNano (n : Int64) : Time := n.toInt + unixEpoch

/-- Instants that `UnixNano` represents. -/
def Time.Representable (t : Time) : Prop := Fits (t - unixEpoch)
  deriving Decidable

lemma Time.toInt_unixNano {t : Time} (h : t.Representable) : t.unixNano.toInt = t - unixEpoch := by
  rw [Time.unixNano, toInt_ofInt]
  exact bmod_of_fits h

lemma Time.unixNano_mono {t t' : Time} (h : t.Representable) (h' : t'.Representable)
    (hle : t ≤ t') : t.unixNano ≤ t'.unixNano := by
  rw [le_iff_toInt_le, Time.toInt_unixNano h, Time.toInt_unixNano h']
  exact Int.sub_le_sub_right hle unixEpoch

lemma Time.toInt_sub (t u : ℤ) : (Time.sub t u).toInt = max (-2 ^ 63)
    (min (t - u) (2 ^ 63 - 1)) := by
  rw [Time.sub]
  split_ifs with hlow hhigh
  · have hmin : minValue.toInt = -2 ^ 63 := rfl
    have hlow : t - u < -2 ^ 63 := hlow
    omega
  · have hmax : maxValue.toInt = 2 ^ 63 - 1 := rfl
    have hhigh : 2 ^ 63 ≤ t - u := hhigh
    omega
  · have hfits : Fits (t - u) := ⟨not_lt.mp hlow, not_le.mp hhigh⟩
    have hsub : (t - u).bmod size = t - u := bmod_of_fits hfits
    obtain ⟨hl, hu⟩ := hfits
    rw [toInt_ofInt]
    omega

lemma Time.sub_lt_iff {t u : ℤ} {d : Duration} (hd : 0 < d.toInt) :
    Time.sub t u < d ↔ t - u < d.toInt := by
  have hfits := (fits_toInt d).2
  rw [lt_iff_toInt_lt, Time.toInt_sub]
  omega

lemma toInt_mul (h : Fits (a.toInt * b.toInt)) : (a * b).toInt = a.toInt * b.toInt := by
  rw [Int64.toInt_mul, bmod_of_fits h]

end InteractiveProxy.SignedWord
