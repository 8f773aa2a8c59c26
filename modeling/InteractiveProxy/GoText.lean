import Mathlib.Data.List.Infix
import Mathlib.Tactic.Common
import Mathlib.Tactic.Linarith
import Mathlib.Tactic.Ring

/-! Go strings as byte strings, with the functions of the `strings` and `strconv` packages that
the modelled code calls. -/
namespace InteractiveProxy.GoText

open List

/-- A Go `string`: any sequence of bytes, not necessarily valid UTF-8. -/
abbrev GoStr := List UInt8

instance : LawfulBEq GoStr := inferInstance

def lit (s : String) : GoStr := s.toByteArray.data.toList

def itoa (n : ℤ) : GoStr := lit (toString n)

/-- UTF-8 encodings of the runes for which `unicode.IsSpace` holds. -/
def spaceRunes : List GoStr :=
  [[0x09], [0x0A], [0x0B], [0x0C], [0x0D], [0x20], [0xC2, 0x85], [0xC2, 0xA0], [0xE1, 0x9A, 0x80],
    [0xE2, 0x80, 0x80], [0xE2, 0x80, 0x81], [0xE2, 0x80, 0x82], [0xE2, 0x80, 0x83],
    [0xE2, 0x80, 0x84], [0xE2, 0x80, 0x85], [0xE2, 0x80, 0x86], [0xE2, 0x80, 0x87],
    [0xE2, 0x80, 0x88], [0xE2, 0x80, 0x89], [0xE2, 0x80, 0x8A], [0xE2, 0x80, 0xA8],
    [0xE2, 0x80, 0xA9], [0xE2, 0x80, 0xAF], [0xE2, 0x81, 0x9F], [0xE3, 0x80, 0x80]]

/-- Strip at most `fuel` leading white-space runes. -/
def trimLeftN : ℕ → GoStr → GoStr
  | 0, s => s
  | fuel + 1, s =>
    match spaceRunes.find? (fun r => r.isPrefixOf s) with
    | some r => trimLeftN fuel (s.drop r.length)
    | none => s

/-- Strip at most `fuel` trailing white-space runes. -/
def trimRightN : ℕ → GoStr → GoStr
  | 0, s => s
  | fuel + 1, s =>
    match spaceRunes.find? (fun r => r.isSuffixOf s) with
    | some r => trimRightN fuel (s.take (s.length - r.length))
    | none => s

-- A string has no more runes than bytes, so its length is enough fuel.
def trimLeft (s : GoStr) : GoStr := trimLeftN s.length s
def trimRight (s : GoStr) : GoStr := trimRightN s.length s

def trimSpace (s : GoStr) : GoStr := trimRight (trimLeft s)

def lowerByte (b : UInt8) : UInt8 := if 0x41 ≤ b ∧ b ≤ 0x5A then b + 0x20 else b

/-- A property of all bytes, checked value by value. -/
lemma byte_forall {P : UInt8 → Prop} (h : ∀ n < 256, P (.ofNat n)) (b : UInt8) : P b := by
  simpa using h b.toNat b.toNat_lt

/-- `strings.EqualFold s t` for a `t` in whose letters Unicode folding is ASCII folding
(no `k` and no `s`). -/
def equalFoldAscii (s t : GoStr) : Bool := s.map lowerByte == t.map lowerByte

def LeftClean (s : GoStr) : Prop := ∀ r ∈ spaceRunes, ¬ r <+: s

def RightClean (s : GoStr) : Prop := ∀ r ∈ spaceRunes, ¬ r <:+ s

lemma spaceRunes_length_pos : ∀ r ∈ spaceRunes, 0 < r.length := by decide

variable {s : GoStr} {P : GoStr → Prop}

private lemma find_prefix_none : spaceRunes.find? (fun r => r.isPrefixOf s) = none ↔
    LeftClean s := by
  simp [LeftClean]

private lemma find_suffix_none : spaceRunes.find? (fun r => r.isSuffixOf s) = none ↔
    RightClean s := by
  simp [RightClean]

section Fuel

variable (fuel : ℕ) (s : GoStr) (h : s.length ≤ fuel)

include h

lemma trimLeftN_clean : LeftClean (trimLeftN fuel s) := by
  induction fuel generalizing s with
  | zero =>
    obtain rfl := length_eq_zero_iff.mp (Nat.le_zero.mp h)
    exact (by decide : ∀ r ∈ spaceRunes, ¬ r <+: [])
  | succ fuel ih =>
    unfold trimLeftN
    cases hf : spaceRunes.find? (fun r => r.isPrefixOf s) with
    | none => exact find_prefix_none.mp hf
    | some r =>
      have hr := spaceRunes_length_pos r (mem_of_find?_eq_some hf)
      apply ih
      simp only [length_drop]
      omega

lemma trimRightN_clean : RightClean (trimRightN fuel s) := by
  induction fuel generalizing s with
  | zero =>
    obtain rfl := length_eq_zero_iff.mp (Nat.le_zero.mp h)
    exact (by decide : ∀ r ∈ spaceRunes, ¬ r <:+ [])
  | succ fuel ih =>
    unfold trimRightN
    cases hf : spaceRunes.find? (fun r => r.isSuffixOf s) with
    | none => exact find_suffix_none.mp hf
    | some r =>
      have hr := spaceRunes_length_pos r (mem_of_find?_eq_some hf)
      apply ih
      simp only [length_take]
      omega

end Fuel

/-- What holds of a string and goes on to hold without a space at the front holds of the rest of the
string. -/
lemma trimLeftN_induct (hstep : ∀ r ∈ spaceRunes, ∀ rest, P (r ++ rest) → P rest) (fuel : ℕ)
    (h : P s) : P (trimLeftN fuel s) := by
  induction fuel generalizing s with
  | zero => exact h
  | succ fuel ih =>
    unfold trimLeftN
    split
    · next r hr =>
      have hfront := find?_some hr
      obtain ⟨rest, rfl⟩ := isPrefixOf_iff_prefix.mp hfront
      rw [drop_left]
      exact ih (hstep r (mem_of_find?_eq_some hr) rest h)
    · exact h

lemma trimRightN_induct (hstep : ∀ r ∈ spaceRunes, ∀ front, P (front ++ r) → P front) (fuel : ℕ)
    (h : P s) : P (trimRightN fuel s) := by
  induction fuel generalizing s with
  | zero => exact h
  | succ fuel ih =>
    unfold trimRightN
    split
    · next r hr =>
      have hback := find?_some hr
      obtain ⟨front, rfl⟩ := isSuffixOf_iff_suffix.mp hback
      rw [length_append, Nat.add_sub_cancel, take_left]
      exact ih (hstep r (mem_of_find?_eq_some hr) front h)
    · exact h

lemma trimRightN_prefix_self (fuel : ℕ) (s : GoStr) : trimRightN fuel s <+: s :=
  trimRightN_induct (P := (· <+: s))
    (fun _ _ _ h => (prefix_append _ _).trans h) fuel (prefix_refl s)

lemma trimLeftN_suffix_self (fuel : ℕ) (s : GoStr) : trimLeftN fuel s <:+ s :=
  trimLeftN_induct (P := (· <:+ s))
    (fun _ _ _ h => (suffix_append _ _).trans h) fuel (suffix_refl s)

lemma trimSpace_subset (s : GoStr) : trimSpace s ⊆ s :=
  fun _ h => (trimLeftN_suffix_self _ _).subset ((trimRightN_prefix_self _ _).subset h)

lemma trimSpace_leftClean (s : GoStr) : LeftClean (trimSpace s) := by
  intro r hr hp
  exact trimLeftN_clean s.length s le_rfl r hr (hp.trans (trimRightN_prefix_self _ _))

lemma trimSpace_rightClean (s : GoStr) : RightClean (trimSpace s) := trimRightN_clean _ _ le_rfl

lemma trimLeft_of_clean (h : LeftClean s) : trimLeft s = s := by
  cases s with
  | nil => rfl
  | cons b s => simp only [trimLeft, length_cons, trimLeftN, find_prefix_none.mpr h]

lemma trimRight_of_clean (h : RightClean s) : trimRight s = s := by
  cases s with
  | nil => rfl
  | cons b s => simp only [trimRight, length_cons, trimRightN, find_suffix_none.mpr h]

lemma trimSpace_of_clean (hl : LeftClean s) (hr : RightClean s) : trimSpace s = s := by
  rw [trimSpace, trimLeft_of_clean hl, trimRight_of_clean hr]

@[simp] theorem trimSpace_trimSpace (s : GoStr) : trimSpace (trimSpace s) = trimSpace s :=
  trimSpace_of_clean (trimSpace_leftClean s) (trimSpace_rightClean s)

lemma mem_trimSpace {b : UInt8} (hb : ∀ r ∈ spaceRunes, b ∉ r) (h : b ∈ s) : b ∈ trimSpace s := by
  refine trimRightN_induct (fun r hr _ hmem => ?_) _ (trimLeftN_induct (fun r hr _ hmem => ?_) _ h)
  · exact (mem_append.mp hmem).resolve_right (hb r hr)
  · exact (mem_append.mp hmem).resolve_left (hb r hr)

example : trimSpace (lit " \t model \n") = lit "model" := by decide

/-- `strings.Cut` at a separator of one byte: what stands before and behind it, and whether it was
found. -/
def cut (sep : UInt8) : GoStr → GoStr × GoStr × Bool
  | [] => ([], [], false)
  | b :: rest =>
    if b = sep then ([], rest, true)
    else
      let (before, after, found) := cut sep rest
      (b :: before, after, found)

/-- `strings.Split` at a separator of one byte; an empty string gives one empty piece. -/
def splitOn (sep : UInt8) : GoStr → List GoStr
  | [] => [[]]
  | b :: rest =>
    if b = sep then [] :: splitOn sep rest
    else
      match splitOn sep rest with
      | [] => [[b]]
      | piece :: pieces => (b :: piece) :: pieces

/-- `strings.ToLower`, exact wherever the result can be a word in ASCII: of the runes outside ASCII
only U+0130 and U+212A have a lower case in ASCII. The bytes of other runes are kept. -/
def toLower : GoStr → GoStr
  | 0xC4 :: 0xB0 :: rest => 0x69 :: toLower rest
  | 0xE2 :: 0x84 :: 0xAA :: rest => 0x6B :: toLower rest
  | b :: rest => lowerByte b :: toLower rest
  | [] => []

def join (sep : GoStr) (parts : List GoStr) : GoStr := sep.intercalate parts

/-- The number of a non-empty string of decimal digits. -/
def decimal (s : GoStr) : Option ℕ :=
  if s = [] then none
  else s.foldlM (fun n b => if 0x30 ≤ b ∧ b ≤ 0x39 then some (n * 10 + (b.toNat - 0x30)) else none) 0

def maxInt64 : ℤ := 9223372036854775807

/-- `strconv.ParseInt` with base 10 and 64 bits, without the kinds of its errors. -/
def parseInt64 (s : GoStr) : Option ℤ :=
  let signed (n : ℤ) : Option ℤ := if n ≤ maxInt64 ∧ -(maxInt64 + 1) ≤ n then some n else none
  match s with
  | 0x2B :: rest => (decimal rest).bind fun n => signed n
  | 0x2D :: rest => (decimal rest).bind fun n => signed (-n)
  | _ => (decimal s).bind fun n => signed n

lemma cut_append (sep : UInt8) (s : GoStr) :
    s = (cut sep s).1 ++ if (cut sep s).2.2 then sep :: (cut sep s).2.1 else [] := by
  induction s with
  | nil => rfl
  | cons b rest ih =>
    unfold cut
    by_cases hb : b = sep
    · rw [if_pos hb, hb]
      rfl
    · rw [if_neg hb]
      rw [List.cons_append, ← ih]

variable {sep : UInt8}

lemma not_mem_cut (s : GoStr) : sep ∉ (cut sep s).1 := by
  induction s with
  | nil => simp [cut]
  | cons b rest ih =>
    unfold cut
    split_ifs with hb
    · simp
    · simpa [Ne.symm hb] using ih

lemma cut_false {s before after : GoStr} (h : cut sep s = (before, after, false)) : after = [] := by
  induction s generalizing before with
  | nil => exact (Prod.mk.inj (Prod.mk.inj h).2).1.symm
  | cons b rest ih =>
    unfold cut at h
    split_ifs at h with hb
    · cases h
    · rcases hc : cut sep rest with ⟨before', after', found⟩
      rw [hc] at h
      cases h
      exact ih hc

lemma cut_of_not_mem {s : GoStr} (h : sep ∉ s) : cut sep s = (s, [], false) := by
  induction s with
  | nil => rfl
  | cons b rest ih =>
    simp only [List.mem_cons, not_or] at h
    unfold cut
    rw [if_neg (Ne.symm h.1), ih h.2]

lemma cut_append_cons {s : GoStr} (h : sep ∉ s) (t : GoStr) :
    cut sep (s ++ sep :: t) = (s, t, true) := by
  induction s with
  | nil =>
    rw [List.nil_append]
    unfold cut
    rw [if_pos rfl]
  | cons b rest ih =>
    simp only [List.mem_cons, not_or] at h
    rw [List.cons_append]
    unfold cut
    rw [if_neg (Ne.symm h.1), ih h.2]

def isDigit (b : UInt8) : Bool := 0x30 ≤ b && b ≤ 0x39

def AllDigits (s : GoStr) : Prop := ∀ b ∈ s, isDigit b = true
  deriving Decidable

def digit (b : UInt8) : ℕ := b.toNat - 0x30

def digitByte (d : ℕ) : UInt8 := UInt8.ofNat (0x30 + d)

def natValue (s : GoStr) : ℕ := s.foldl (fun n b => n * 10 + digit b) 0

variable {b : UInt8} {t : GoStr}

lemma isDigit_iff : isDigit b ↔ 0x30 ≤ b.toNat ∧ b.toNat ≤ 0x39 := by
  simp [isDigit, UInt8.le_iff_toNat_le]

lemma digit_lt (h : isDigit b) : digit b < 10 := by
  have := isDigit_iff.mp h
  unfold digit
  omega

lemma digit_injective {b' : UInt8} (h : isDigit b) (h' : isDigit b')
    (heq : digit b = digit b') : b = b' := by
  have hb := isDigit_iff.mp h
  have hb' := isDigit_iff.mp h'
  unfold digit at heq
  exact UInt8.toNat_inj.mp (by omega)

lemma digitByte_spec {d : ℕ} (h : d < 10) : isDigit (digitByte d) ∧ digit (digitByte d) = d := by
  have hnat : (digitByte d).toNat = 0x30 + d := by
    unfold digitByte
    rw [UInt8.toNat_ofNat']
    omega
  refine ⟨isDigit_iff.mpr ?_, ?_⟩
  · omega
  · unfold digit
    omega

@[simp] lemma natValue_nil : natValue [] = 0 := rfl

lemma foldl_natValue (n : ℕ) (s : GoStr) :
    s.foldl (fun n b => n * 10 + digit b) n = n * 10 ^ s.length + natValue s := by
  induction s generalizing n with
  | nil => simp
  | cons b s ih =>
    have hcons : natValue (b :: s) = (0 * 10 + digit b) * 10 ^ s.length + natValue s :=
      ih (0 * 10 + digit b)
    rw [foldl_cons, ih, hcons, length_cons]
    ring

lemma natValue_append (s t : GoStr) :
    natValue (s ++ t) = natValue s * 10 ^ t.length + natValue t := by
  unfold natValue
  rw [foldl_append, foldl_natValue]
  rfl

lemma natValue_cons (b : UInt8) (s : GoStr) :
    natValue (b :: s) = digit b * 10 ^ s.length + natValue s := by
  have := natValue_append [b] s
  simpa [natValue] using this

lemma natValue_concat (s : GoStr) (b : UInt8) :
    natValue (s ++ [b]) = natValue s * 10 + digit b := by
  simp [natValue]

lemma natValue_replicate_zero (n : ℕ) : natValue (replicate n 0x30) = 0 := by
  induction n with
  | zero => rfl
  | succ n ih =>
    rw [replicate_succ, natValue_cons, ih]
    simp [digit]

lemma AllDigits.append {s : GoStr} (hs : AllDigits s) (ht : AllDigits t) : AllDigits (s ++ t) := by
  intro b hb
  rcases mem_append.mp hb with hb | hb
  · exact hs b hb
  · exact ht b hb

variable {s : GoStr}

lemma natValue_lt (h : AllDigits s) : natValue s < 10 ^ s.length := by
  induction s with
  | nil => simp
  | cons b s ih =>
    have hd := digit_lt (h b mem_cons_self)
    have hs := ih fun b hb => h b (mem_cons_of_mem _ hb)
    rw [natValue_cons, length_cons, pow_succ]
    nlinarith

lemma le_natValue (hb : isDigit b) (hne : b ≠ 0x30) : 10 ^ s.length ≤ natValue (b :: s) := by
  have hpos : 1 ≤ digit b := by
    by_contra hzero
    exact hne (digit_injective hb (by decide) (by simp [digit] at hzero ⊢; omega))
  rw [natValue_cons]
  nlinarith [Nat.one_le_pow s.length 10 (by norm_num)]

lemma natValue_injective_of_length (hs : AllDigits s) (ht : AllDigits t)
    (hlen : s.length = t.length) (h : natValue s = natValue t) : s = t := by
  induction s generalizing t with
  | nil => exact (length_eq_zero_iff.mp hlen.symm).symm
  | cons b s ih =>
    cases t with
    | nil => cases hlen
    | cons b' t =>
      have hlen : s.length = t.length := by simpa using hlen
      have hs' : AllDigits s := fun b hb => hs b (mem_cons_of_mem _ hb)
      have ht' : AllDigits t := fun b hb => ht b (mem_cons_of_mem _ hb)
      have hslt := natValue_lt hs'
      have htlt := natValue_lt ht'
      rw [natValue_cons, natValue_cons, hlen] at h
      rw [hlen] at hslt
      have hdigit : digit b = digit b' := by
        have hpos : 0 < 10 ^ t.length := Nat.pow_pos (by norm_num)
        have hb : (digit b * 10 ^ t.length + natValue s) / 10 ^ t.length = digit b := by
          rw [mul_comm, Nat.mul_add_div hpos, Nat.div_eq_of_lt hslt, Nat.add_zero]
        have hb' : (digit b' * 10 ^ t.length + natValue t) / 10 ^ t.length = digit b' := by
          rw [mul_comm, Nat.mul_add_div hpos, Nat.div_eq_of_lt htlt, Nat.add_zero]
        rw [← hb, ← hb', h]
      rw [hdigit] at h
      rw [digit_injective (hs b mem_cons_self) (ht b' mem_cons_self) hdigit, ih hs' ht' hlen (by omega)]

structure Numeral (s : GoStr) : Prop where
  digits : AllDigits s
  nonempty : s ≠ []
  leading : s.head? = some 0x30 → s = [0x30]

lemma Numeral.of_head (hdigits : AllDigits s) (hne : s ≠ [])
    (hhead : ¬ (s.length > 1 ∧ s.head? = some 0x30)) : Numeral s := by
  refine ⟨hdigits, hne, fun hzero => ?_⟩
  obtain ⟨rest, rfl⟩ := head?_eq_some_iff.mp hzero
  cases rest with
  | nil => rfl
  | cons b rest => exact absurd ⟨by simp, hzero⟩ hhead

lemma Numeral.not_head (h : Numeral s) : ¬ (s.length > 1 ∧ s.head? = some 0x30) := by
  rintro ⟨hlong, hzero⟩
  rw [h.leading hzero] at hlong
  exact absurd hlong (lt_irrefl _)

lemma getLast?_of_dvd (h : Numeral s) (hten : 10 ∣ natValue s) : s.getLast? = some 0x30 := by
  obtain ⟨init, b, rfl⟩ := eq_nil_or_concat s |>.resolve_left h.nonempty
  have hb := h.digits b (by simp)
  rw [concat_eq_append] at hten ⊢
  rw [natValue_concat] at hten
  have hlt := digit_lt hb
  have hzero : digit b = digit 0x30 := by
    change digit b = 0
    omega
  rw [digit_injective hb (by decide) hzero, getLast?_concat]

lemma Numeral.length_le (hs : Numeral s) {k : ℕ} (hk : 0 < k) (h : natValue s < 10 ^ k) :
    s.length ≤ k := by
  by_contra hlong
  obtain ⟨b, s, rfl⟩ := exists_cons_of_ne_nil hs.nonempty
  have hne : b ≠ 0x30 := by
    rintro rfl
    have hone := hs.leading rfl
    rw [hone, length_singleton] at hlong
    omega
  have hlow := le_natValue (s := s) (hs.digits b mem_cons_self) hne
  have hpow : 10 ^ k ≤ 10 ^ s.length := Nat.pow_le_pow_right (by norm_num) (by simp at hlong; omega)
  omega

lemma Numeral.length_pos (hs : Numeral s) : 0 < s.length := length_pos_iff.mpr hs.nonempty

lemma numeral_injective (hs : Numeral s) (ht : Numeral t) (h : natValue s = natValue t) : s = t :=
  natValue_injective_of_length hs.digits ht.digits
    (Nat.le_antisymm (hs.length_le ht.length_pos (h ▸ natValue_lt ht.digits))
      (ht.length_le hs.length_pos (h ▸ natValue_lt hs.digits))) h

/-- The digits of a number with at most `fuel` divisions by ten. -/
def formatNatN : ℕ → ℕ → GoStr
  | 0, _ => []
  | fuel + 1, n =>
    if n < 10 then [digitByte n] else formatNatN fuel (n / 10) ++ [digitByte (n % 10)]

def formatNat (n : ℕ) : GoStr := formatNatN (n + 1) n

lemma formatNatN_spec (fuel n : ℕ) (h : n < fuel) :
    Numeral (formatNatN fuel n) ∧ natValue (formatNatN fuel n) = n := by
  induction fuel generalizing n with
  | zero => omega
  | succ fuel ih =>
    unfold formatNatN
    split_ifs with hn
    · obtain ⟨hdigit, hvalue⟩ := digitByte_spec hn
      refine ⟨⟨by simpa [AllDigits] using hdigit, by simp, ?_⟩, by simp [natValue, hvalue]⟩
      intro hzero
      rw [head?_cons, Option.some.injEq] at hzero
      rw [hzero]
    · obtain ⟨hnum, hvalue⟩ := ih (n / 10) (by omega)
      obtain ⟨hdigit, hlast⟩ := digitByte_spec (Nat.mod_lt n (by norm_num : 10 > 0))
      refine ⟨⟨hnum.digits.append (by simpa [AllDigits] using hdigit), by simp, ?_⟩, ?_⟩
      · intro hzero
        rw [head?_append_of_ne_nil _ hnum.nonempty] at hzero
        rw [hnum.leading hzero] at hvalue
        simp [natValue, digit] at hvalue
        omega
      · rw [natValue_concat]
        omega

lemma formatNat_numeral (n : ℕ) : Numeral (formatNat n) := (formatNatN_spec (n + 1) n (by omega)).1

@[simp] lemma natValue_formatNat (n : ℕ) : natValue (formatNat n) = n :=
  (formatNatN_spec (n + 1) n (by omega)).2

/-- `strconv.FormatInt` in base 10, and `big.Int.String`. -/
def formatInt (n : ℤ) : GoStr := if n < 0 then 0x2D :: formatNat n.natAbs else formatNat n.natAbs

def negative (s : GoStr) : Bool := s.head? == some 0x2D

def magnitude : GoStr → GoStr
  | 0x2D :: s => s
  | s => s

def signed (neg : Bool) (s : GoStr) : GoStr := if neg then 0x2D :: s else s

def intValue (s : GoStr) : ℤ :=
  if negative s then -(natValue (magnitude s) : ℤ) else natValue (magnitude s)

/-- `big.Int.SetString` in base 10. -/
def setString (s : GoStr) : Option ℤ :=
  match s with
  | 0x2B :: s => if s ≠ [] ∧ AllDigits s then some (natValue s : ℤ) else none
  | 0x2D :: s => if s ≠ [] ∧ AllDigits s then some (-(natValue s : ℤ)) else none
  | s => if s ≠ [] ∧ AllDigits s then some (natValue s : ℤ) else none

lemma not_sign_of_digit (h : isDigit b) : b ≠ 0x2B ∧ b ≠ 0x2D := by
  constructor
  · rintro rfl
    cases h
  · rintro rfl
    cases h

lemma signed_magnitude (s : GoStr) : signed (negative s) (magnitude s) = s := by
  unfold magnitude
  split
  · rfl
  next hminus =>
  have hneg : negative s = false := by
    unfold negative
    rw [beq_eq_false_iff_ne]
    intro hhead
    obtain ⟨rest, rfl⟩ := head?_eq_some_iff.mp hhead
    exact hminus rest rfl
  simp [signed, hneg]

lemma signed_spec (neg : Bool) (h : negative s = false) :
    negative (signed neg s) = neg ∧ magnitude (signed neg s) = s := by
  cases neg with
  | true => exact ⟨rfl, rfl⟩
  | false =>
    refine ⟨h, ?_⟩
    have := signed_magnitude s
    rwa [h] at this

lemma negative_of_digits (h : AllDigits s) : negative s = false := by
  unfold negative
  rw [beq_eq_false_iff_ne]
  intro hhead
  exact (not_sign_of_digit (h 0x2D (mem_of_head? hhead))).2 rfl

lemma intValue_eq (s : GoStr) :
    intValue s = (if negative s then -1 else 1) * (natValue (magnitude s) : ℤ) := by
  unfold intValue
  split_ifs <;> simp

lemma intValue_signed (neg : Bool) (h : negative s = false) :
    intValue (signed neg s) = (if neg then -1 else 1) * (natValue s : ℤ) := by
  obtain ⟨hneg, hmag⟩ := signed_spec neg h
  rw [intValue_eq, hneg, hmag]

lemma natAbs_intValue (s : GoStr) : (intValue s).natAbs = natValue (magnitude s) := by
  unfold intValue
  split_ifs <;> simp

lemma formatInt_eq (n : ℤ) : formatInt n = signed (decide (n < 0)) (formatNat n.natAbs) := by
  unfold formatInt signed
  simp

lemma magnitude_formatInt (n : ℤ) : magnitude (formatInt n) = formatNat n.natAbs := by
  rw [formatInt_eq]
  exact (signed_spec _ (negative_of_digits (formatNat_numeral _).digits)).2

lemma intValue_formatInt (n : ℤ) : intValue (formatInt n) = n := by
  rw [formatInt_eq, intValue_signed _ (negative_of_digits (formatNat_numeral _).digits), natValue_formatNat]
  by_cases hn : n < 0
  · rw [decide_eq_true hn, if_pos rfl]
    omega
  · rw [decide_eq_false hn, if_neg Bool.false_ne_true]
    omega

lemma setString_of_digits (h : AllDigits s) (hne : s ≠ []) :
    setString s = some (natValue s : ℤ) := by
  unfold setString
  split
  · exact absurd rfl (not_sign_of_digit (h 0x2B mem_cons_self)).1
  · exact absurd rfl (not_sign_of_digit (h 0x2D mem_cons_self)).2
  · exact if_pos ⟨hne, h⟩

lemma setString_of_magnitude (h : AllDigits (magnitude s)) (hne : magnitude s ≠ []) :
    setString s = some (intValue s) := by
  have hs := signed_magnitude s
  cases hneg : negative s with
  | true =>
    rw [hneg] at hs
    rw [← hs]
    exact if_pos ⟨hne, h⟩
  | false =>
    rw [hneg] at hs
    have hself : magnitude s = s := hs
    have hvalue : intValue s = natValue (magnitude s) := by simp [intValue, hneg]
    rw [hvalue, ← setString_of_digits h hne, hself]

end InteractiveProxy.GoText
