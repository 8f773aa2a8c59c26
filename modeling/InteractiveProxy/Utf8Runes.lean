import InteractiveProxy.GoText
import Mathlib.Data.UInt

/-! Runes at the front of a byte string, as Go's `unicode/utf8` reads and writes them, and how they
stand to the encoding of a `Char`. -/
namespace InteractiveProxy.Utf8Runes
open GoText List UInt8 String

/-- For a byte that can lead a multi-byte rune: how many bytes come after the second one, and the
range of the second. -/
def runeLead (b : UInt8) : Option (ℕ × UInt8 × UInt8) :=
  if b < 0xC2 then none
  else if b ≤ 0xDF then some (0, 0x80, 0xBF)
  else if b = 0xE0 then some (1, 0xA0, 0xBF)
  else if b = 0xED then some (1, 0x80, 0x9F)
  else if b ≤ 0xEF then some (1, 0x80, 0xBF)
  else if b = 0xF0 then some (2, 0x90, 0xBF)
  else if b ≤ 0xF3 then some (2, 0x80, 0xBF)
  else if b = 0xF4 then some (2, 0x80, 0x8F)
  else none

def isContinuation (b : UInt8) : Bool := 0x80 ≤ b && b ≤ 0xBF

/-- `short` where `FullRune` is false; otherwise what `DecodeRune` finds: `bad` for a rune error of
width one, `good` with the width of the rune. -/
inductive RuneScan
  | short
  | bad
  | good (size : ℕ)

/-- `more` continuation bytes of a rune of which `read` bytes are read. -/
def scanTail : ℕ → ℕ → GoStr → RuneScan
  | 0, read, _ => .good read
  | _ + 1, _, [] => .short
  | more + 1, read, c :: rest => if isContinuation c then scanTail more (read + 1) rest else .bad

def scanRune : GoStr → RuneScan
  | [] => .short
  | a :: rest =>
    if a < 0x80 then .good 1
    else
      match runeLead a with
      | none => .bad
      | some (more, lo, hi) =>
        match rest with
        | [] => .short
        | b :: rest => if lo ≤ b && b ≤ hi then scanTail more 2 rest else .bad

/-- `utf8.AppendRune`: the encoding of the rune, or of U+FFFD where it is not a Unicode scalar
value. -/
def encodeRune (r : ℕ) : GoStr := utf8EncodeChar (if r.isValidChar then Char.ofNat r else '�')

variable {p : GoStr} {more read : ℕ}

lemma scanTail_append (h : scanTail more read p ≠ .short) (q : GoStr) :
    scanTail more read (p ++ q) = scanTail more read p := by
  induction more generalizing read p with
  | zero => simp only [scanTail]
  | succ more ih =>
    cases p with
    | nil => exact absurd rfl h
    | cons c rest =>
      simp only [scanTail, cons_append] at h ⊢
      split_ifs with hc
      · rw [if_pos hc] at h
        exact ih h
      · rfl

lemma scanRune_append (h : scanRune p ≠ .short) (q : GoStr) : scanRune (p ++ q) = scanRune p := by
  cases p with
  | nil => exact absurd rfl h
  | cons a rest =>
    simp only [scanRune, cons_append] at h ⊢
    split_ifs with ha
    · rfl
    rw [if_neg ha] at h
    cases hlead : runeLead a with
    | none => rfl
    | some lead =>
      rw [hlead] at h
      cases rest with
      | nil => exact absurd rfl h
      | cons b rest =>
        simp only [cons_append] at h ⊢
        split_ifs with hb
        · rw [if_pos hb] at h
          exact scanTail_append h q
        · rfl

lemma scanTail_size {n : ℕ} (h : scanTail more read p = .good n) :
    n = read + more ∧ more ≤ p.length := by
  induction more generalizing read p with
  | zero =>
    simp only [scanTail, RuneScan.good.injEq] at h
    omega
  | succ more ih =>
    cases p with
    | nil => cases h
    | cons c rest =>
      simp only [scanTail] at h
      split_ifs at h
      obtain ⟨hn, hlen⟩ := ih h
      simp only [length_cons]
      omega

variable {n fuel : ℕ} {b : UInt8} {s : GoStr}

lemma scanRune_size (h : scanRune p = .good n) : 1 ≤ n ∧ n ≤ p.length := by
  cases p with
  | nil => cases h
  | cons a rest =>
    simp only [scanRune] at h
    split_ifs at h
    · cases h
      simp
    split at h
    · cases h
    split at h
    · cases h
    · split_ifs at h
      obtain ⟨hn, hlen⟩ := scanTail_size h
      simp only [length_cons]
      omega

/-- The runes of a text, as a `range` loop meets them: the bytes of each, and `none` for a byte that
no rune starts with. -/
def runesN : ℕ → GoStr → List (Option GoStr)
  | 0, _ => []
  | _ + 1, [] => []
  | fuel + 1, b :: rest =>
    match scanRune (b :: rest) with
    | .good n => some ((b :: rest).take n) :: runesN fuel ((b :: rest).drop n)
    | _ => none :: runesN fuel rest

-- A text has no more runes than bytes.
def runes (s : GoStr) : List (Option GoStr) := runesN s.length s

lemma scanTail_bytes (h : scanTail more read p = .good n) : ∀ b ∈ p.take more, 0x80 ≤ b := by
  induction more generalizing read p with
  | zero => simp
  | succ more ih =>
    cases p with
    | nil => cases h
    | cons c rest =>
      simp only [scanTail] at h
      split_ifs at h with hc
      intro b hb
      rcases mem_cons.mp hb with rfl | hb
      · simp only [isContinuation, Bool.and_eq_true, decide_eq_true_eq] at hc
        exact hc.1
      · exact ih h b hb

lemma scanRune_bytes (h : scanRune p = .good n) :
    (∃ b, b < 0x80 ∧ p.take n = [b]) ∨ ∀ b ∈ p.take n, 0x80 ≤ b := by
  cases p with
  | nil => cases h
  | cons a rest =>
    simp only [scanRune] at h
    split_ifs at h with ha
    · cases h
      exact .inl ⟨a, ha, rfl⟩
    right
    split at h
    · cases h
    next more lo hi hlead =>
    split at h
    · cases h
    split_ifs at h with hb
    obtain ⟨rfl, -⟩ := scanTail_size h
    simp only [Bool.and_eq_true, decide_eq_true_eq] at hb
    have hlo : 0x80 ≤ lo := by
      unfold runeLead at hlead
      split_ifs at hlead <;> cases hlead <;> decide
    rw [show 2 + more = more + 1 + 1 by omega]
    intro c hc
    rcases mem_cons.mp hc with rfl | hc
    · exact UInt8.not_lt.mp ha
    · rcases mem_cons.mp hc with rfl | hc
      · exact UInt8.le_trans hlo hb.1
      · exact scanTail_bytes h c hc

lemma runesN_bytes {r : GoStr} (h : some r ∈ runesN fuel s) :
    (∃ b, b < 0x80 ∧ r = [b]) ∨ ∀ b ∈ r, 0x80 ≤ b := by
  induction fuel generalizing s with
  | zero => cases h
  | succ fuel ih =>
    cases s with
    | nil => cases h
    | cons b rest =>
      unfold runesN at h
      split at h
      · next n hscan =>
        rcases mem_cons.mp h with hr | h
        · rw [Option.some.inj hr]
          exact scanRune_bytes hscan
        · exact ih h
      · rcases mem_cons.mp h with hr | h
        · cases hr
        · exact ih h

lemma mem_runesN_of_ascii (hlen : s.length ≤ fuel) (hb : b < 0x80) (hmem : b ∈ s) :
    some [b] ∈ runesN fuel s := by
  induction fuel generalizing s with
  | zero =>
    rw [length_eq_zero_iff.mp (Nat.le_zero.mp hlen)] at hmem
    cases hmem
  | succ fuel ih =>
    cases s with
    | nil => cases hmem
    | cons a rest =>
      rw [length_cons] at hlen
      unfold runesN
      split
      · next n hscan =>
        rw [← take_append_drop n (a :: rest)] at hmem
        rcases mem_append.mp hmem with hfirst | hrest
        · rcases scanRune_bytes hscan with ⟨c, -, htake⟩ | hhigh
          · rw [htake] at hfirst ⊢
            rw [mem_singleton.mp hfirst]
            exact mem_cons_self
          · exact absurd hb (UInt8.not_lt.mpr (hhigh b hfirst))
        · refine mem_cons_of_mem _ (ih ?_ hrest)
          rw [length_drop, length_cons]
          have hsize := (scanRune_size hscan).1
          omega
      · next hscan =>
        rcases mem_cons.mp hmem with rfl | hrest
        · exact absurd (by simp only [scanRune, if_pos hb]) (hscan 1)
        · exact mem_cons_of_mem _ (ih (by omega) hrest)

variable {a : UInt8}

lemma ofNat_of_toNat (h : a.toNat = n) : ofNat n = a := by
  subst h
  exact UInt8.ofNat_toNat

variable {v : ℕ} {c : Char}

lemma charOfNat_val (h : v.isValidChar) : (Char.ofNat v).val.toNat = v := by
  rw [Char.ofNat, dif_pos h]
  rfl

lemma runeLead_some {lo hi : UInt8} (h : runeLead a = some (more, lo, hi)) :
    (more = 0 ∧ 0xC2 ≤ a.toNat ∧ a.toNat ≤ 0xDF ∧ lo.toNat = 0x80 ∧ hi.toNat = 0xBF) ∨
    (more = 1 ∧ 0xE0 ≤ a.toNat ∧ a.toNat ≤ 0xEF ∧ 0x80 ≤ lo.toNat ∧ hi.toNat ≤ 0xBF ∧
      (a.toNat = 0xE0 → lo.toNat = 0xA0) ∧ (a.toNat = 0xED → hi.toNat = 0x9F)) ∨
    (more = 2 ∧ 0xF0 ≤ a.toNat ∧ a.toNat ≤ 0xF4 ∧ 0x80 ≤ lo.toNat ∧ hi.toNat ≤ 0xBF ∧
      (a.toNat = 0xF0 → lo.toNat = 0x90) ∧ (a.toNat = 0xF4 → hi.toNat = 0x8F)) := by
  unfold runeLead at h
  simp only [UInt8.lt_iff_toNat_lt, UInt8.le_iff_toNat_le, ← UInt8.toNat_inj] at h
  split_ifs at h <;> simp only [Option.some.injEq] at h <;>
    obtain ⟨rfl, rfl, rfl⟩ := h <;> simp_all <;> omega

lemma isContinuation_iff : isContinuation b ↔ 0x80 ≤ b.toNat ∧ b.toNat ≤ 0xBF := by
  simp [isContinuation, le_iff_toNat_le]

private lemma char_of_val (v : ℕ) (hv : v.isValidChar) (hlow : 0x80 ≤ v) {bytes : GoStr}
    (h : ∀ c : Char, c.val.toNat = v → utf8EncodeChar c = bytes) :
    ∃ c : Char, 0x80 ≤ c.val.toNat ∧ utf8EncodeChar c = bytes :=
  ⟨Char.ofNat v, by rwa [charOfNat_val hv], h _ (charOfNat_val hv)⟩

lemma char_of_scanRune {rest : GoStr} (h : scanRune (a :: rest) = .good n) (ha : 0x80 ≤ a.toNat) :
    ∃ c : Char, 0x80 ≤ c.val.toNat ∧ utf8EncodeChar c = (a :: rest).take n := by
  simp only [scanRune] at h
  rw [if_neg (by rw [lt_iff_toNat_lt]; exact Nat.not_lt.mpr ha)] at h
  cases hlead : runeLead a with
  | none => simp [hlead] at h
  | some lead =>
    obtain ⟨more, lo, hi⟩ := lead
    rw [hlead] at h
    cases rest with
    | nil => cases h
    | cons b rest =>
      simp only [Bool.and_eq_true, decide_eq_true_eq, le_iff_toNat_le] at h
      split_ifs at h
      -- the three sizes of a rune: assemble its number and encode it again
      rcases runeLead_some hlead
        with ⟨rfl, h1, h2, h3, h4⟩ | ⟨rfl, h1, h2, h3, h4, h5, h6⟩ | ⟨rfl, h1, h2, h3, h4, h5, h6⟩
      · simp only [scanTail, RuneScan.good.injEq] at h
        subst h
        refine char_of_val ((a.toNat - 192) * 64 + (b.toNat - 128)) (.inl (by omega))
          (by omega) fun x hx => ?_
        simp only [utf8EncodeChar, hx]
        rw [if_neg (by omega), if_pos (by omega), ofNat_of_toNat (a := a) (by omega),
          ofNat_of_toNat (a := b) (by omega)]
        rfl
      · cases rest with
        | nil => cases h
        | cons c rest =>
          simp only [scanTail] at h
          split_ifs at h with hc
          rw [isContinuation_iff] at hc
          cases h
          refine char_of_val ((a.toNat - 224) * 4096 + (b.toNat - 128) * 64 + (c.toNat - 128))
            (by omega) (by omega) fun x hx => ?_
          simp only [utf8EncodeChar, hx]
          rw [if_neg (by omega), if_neg (by omega), if_pos (by omega), ofNat_of_toNat (a := a) (by omega),
            ofNat_of_toNat (a := b) (by omega), ofNat_of_toNat (a := c) (by omega)]
          rfl
      · cases rest with
        | nil => cases h
        | cons c rest =>
          cases rest with
          | nil =>
            simp only [scanTail] at h
            split_ifs at h
          | cons d rest =>
            simp only [scanTail] at h
            split_ifs at h with hc hd
            rw [isContinuation_iff] at hc hd
            cases h
            refine char_of_val ((a.toNat - 240) * 262144 + (b.toNat - 128) * 4096 + (c.toNat - 128) * 64 +
              (d.toNat - 128)) (by omega) (by omega) fun x hx => ?_
            simp only [utf8EncodeChar, hx]
            rw [if_neg (by omega), if_neg (by omega), if_neg (by omega), ofNat_of_toNat (a := a) (by omega),
              ofNat_of_toNat (a := b) (by omega), ofNat_of_toNat (a := c)
              (by omega), ofNat_of_toNat (a := d) (by omega)]
            rfl

lemma runeLead_two (h1 : 0xC2 ≤ a.toNat) (h2 : a.toNat ≤ 0xDF) :
    runeLead a = some (0, 0x80, 0xBF) := by
  simp only [runeLead, lt_iff_toNat_lt, le_iff_toNat_le, reduceToNat]
  rw [if_neg (Nat.not_lt.mpr h1), if_pos h2]

lemma runeLead_three (h1 : 0xE0 ≤ a.toNat) (h2 : a.toNat ≤ 0xEF) :
    runeLead a =
    some (1, if a.toNat = 0xE0 then 0xA0 else 0x80, if a.toNat = 0xED then 0x9F else 0xBF) := by
  simp only [runeLead, UInt8.lt_iff_toNat_lt, UInt8.le_iff_toNat_le, ← UInt8.toNat_inj, UInt8.reduceToNat]
  split_ifs <;> first | rfl | omega

lemma runeLead_four (h1 : 0xF0 ≤ a.toNat) (h2 : a.toNat ≤ 0xF4) :
    runeLead a =
    some (2, if a.toNat = 0xF0 then 0x90 else 0x80, if a.toNat = 0xF4 then 0x8F else 0xBF) := by
  simp only [runeLead, UInt8.lt_iff_toNat_lt, UInt8.le_iff_toNat_le, ← UInt8.toNat_inj, UInt8.reduceToNat]
  split_ifs <;> first | rfl | omega

private lemma toNat_ofNat (h : n < 256) : (ofNat n).toNat = n := by
  exact Nat.mod_eq_of_lt h

private lemma not_ascii (h : 128 ≤ n) (h' : n < 256) : ¬ ofNat n < 0x80 := by
  rw [lt_iff_toNat_lt, toNat_ofNat h']
  exact Nat.not_lt.mpr h

private lemma continuation_ofNat (n : ℕ) : isContinuation (ofNat (n % 64 + 128)) := by
  rw [isContinuation_iff, toNat_ofNat (by omega)]
  omega

lemma scanRune_encode (h : 0x80 ≤ c.val.toNat) (q : GoStr) :
    scanRune (utf8EncodeChar c ++ q) = .good (utf8EncodeChar c).length := by
  have hvalid : c.val.toNat.isValidChar := c.valid
  simp only [utf8EncodeChar]
  generalize c.val.toNat = v at h hvalid
  rw [if_neg (by omega)]
  split_ifs
  · simp only [cons_append, scanRune]
    rw [if_neg (not_ascii (by omega) (by omega)),
      runeLead_two (by rw [toNat_ofNat (by omega)]; omega) (by rw [toNat_ofNat (by omega)]; omega)]
    exact if_pos (continuation_ofNat v)
  · simp only [cons_append, scanRune, length_cons, length_nil]
    rw [if_neg (not_ascii (by omega) (by omega)), runeLead_three (by rw [toNat_ofNat (by omega)]; omega)
      (by rw [toNat_ofNat (by omega)]; omega)]
    simp only [toNat_ofNat (n := v / 4096 % 16 + 224) (by omega)]
    have hsecond :
        ((if v / 4096 % 16 + 224 = 0xE0 then 0xA0 else 0x80) ≤ ofNat (v / 64 % 64 + 128) &&
        ofNat (v / 64 % 64 + 128) ≤ if v / 4096 % 16 + 224 = 0xED then 0x9F else 0xBF) = true := by
      simp only [Bool.and_eq_true, decide_eq_true_eq, le_iff_toNat_le, toNat_ofNat (n := v / 64 % 64 + 128) (by omega)]
      split_ifs <;> simp only [reduceToNat] <;> omega
    rw [if_pos hsecond]
    simp only [scanTail, continuation_ofNat, if_true]
  · simp only [cons_append, scanRune, length_cons, length_nil]
    rw [if_neg (not_ascii (by omega) (by omega)), runeLead_four (by rw [toNat_ofNat (by omega)]; omega)
      (by rw [toNat_ofNat (by omega)]; omega)]
    simp only [toNat_ofNat (n := v / 262144 % 8 + 240) (by omega)]
    have hsecond :
        ((if v / 262144 % 8 + 240 = 0xF0 then 0x90 else 0x80) ≤ ofNat (v / 4096 % 64 + 128) &&
        ofNat (v / 4096 % 64 + 128) ≤ if v / 262144 % 8 + 240 = 0xF4 then 0x8F
          else 0xBF) = true := by
      simp only [Bool.and_eq_true, decide_eq_true_eq, le_iff_toNat_le,
        toNat_ofNat (n := v / 4096 % 64 + 128) (by omega)]
      split_ifs <;> simp only [reduceToNat] <;> omega
    rw [if_pos hsecond]
    simp only [scanTail, continuation_ofNat, if_true]

lemma utf8EncodeChar_lead (h : 0x80 ≤ c.val.toNat) :
    ∃ a rest, utf8EncodeChar c = a :: rest ∧ 0x80 ≤ a.toNat := by
  simp only [utf8EncodeChar]
  rw [if_neg (by omega)]
  split_ifs
  · exact ⟨_, _, rfl, by rw [toNat_ofNat (by omega)]; omega⟩
  · exact ⟨_, _, rfl, by rw [toNat_ofNat (by omega)]; omega⟩
  · exact ⟨_, _, rfl, by rw [toNat_ofNat (by omega)]; omega⟩

end InteractiveProxy.Utf8Runes
