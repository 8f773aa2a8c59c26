import InteractiveProxy.KeySort
import InteractiveProxy.SignedWord
import InteractiveProxy.Utf8Runes

/-! What `encoding/json` writes: strings, numbers, instants and flat objects, and records as lists
of pieces, bytes that are known and values that the library puts into its own form. -/
namespace InteractiveProxy.JsonEncoding

open GoText Utf8Runes SignedWord List

def hexDigit (n : ℕ) : UInt8 := if n < 10 then UInt8.ofNat (0x30 + n) else UInt8.ofNat (0x57 + n)

def escapeAscii (b : UInt8) : GoStr :=
  if b = 0x22 then [0x5C, 0x22]
  else if b = 0x5C then [0x5C, 0x5C]
  else if b = 0x08 then [0x5C, 0x62]
  else if b = 0x0C then [0x5C, 0x66]
  else if b = 0x0A then [0x5C, 0x6E]
  else if b = 0x0D then [0x5C, 0x72]
  else if b = 0x09 then [0x5C, 0x74]
  else if b < 0x20 ∨ b = 0x3C ∨ b = 0x3E ∨ b = 0x26 then
    [0x5C, 0x75, 0x30, 0x30, hexDigit (b.toNat / 16), hexDigit (b.toNat % 16)]
  else [b]

/-- One rune inside a string; the two line separators are escaped, and a byte outside every rune
becomes the replacement character. -/
def escapeRune : Option GoStr → GoStr
  | none => lit "\\ufffd"
  | some [b] => escapeAscii b
  | some r =>
    if r = [0xE2, 0x80, 0xA8] then lit "\\u2028" else if r = [0xE2, 0x80, 0xA9] then lit "\\u2029"
    else r

def escape (s : GoStr) : GoStr := (runes s).flatMap escapeRune

def quote (s : GoStr) : GoStr := 0x22 :: (escape s ++ [0x22])

def member (name : String) (value : GoStr) : GoStr :=
  0x22 :: (lit name ++ 0x22 :: 0x3A :: value)

def object (members : List GoStr) : GoStr := 0x7B :: (join [0x2C] members ++ [0x7D])

/-- A string member with `omitempty`. -/
def optionalText (name : String) (s : GoStr) : List GoStr :=
  if s = [] then [] else [member name (quote s)]

/-- A number member with `omitempty`. -/
def optionalNat (name : String) (n : ℕ) : List GoStr :=
  if n = 0 then [] else [member name (formatNat n)]

def pad (width n : ℕ) : GoStr := replicate (width - (formatNat n).length) 0x30 ++ formatNat n

def civilDate (day : ℤ) : ℤ × ℕ × ℕ :=
  -- Years here start in March, so that the leap day is the last of its year.
  let z := day + 306
  let era := z.fdiv 146097
  let dayOfEra := (z.fmod 146097).toNat
  let yearOfEra := (dayOfEra - dayOfEra / 1460 + dayOfEra / 36524 - dayOfEra / 146096) / 365
  let dayOfYear := dayOfEra - (365 * yearOfEra + yearOfEra / 4 - yearOfEra / 100)
  let shifted := (5 * dayOfYear + 2) / 153
  let month := if shifted < 10 then shifted + 3 else shifted - 9
  (yearOfEra + era * 400 + (if month ≤ 2 then 1 else 0), month, dayOfYear - (153 * shifted + 2) / 5 + 1)

def nanosPerSecond : ℤ := 1000000000

def fraction (nanos : ℕ) : GoStr :=
  if nanos = 0 then [] else 0x2E :: ((pad 9 nanos).reverse.dropWhile (· == 0x30)).reverse

/-- A date and a time of day in UTC, as the `time` package formats them. -/
def timeText (year month day second nanos : ℕ) : GoStr :=
  [pad 4 year, [0x2D], pad 2 month, [0x2D], pad 2 day, [0x54], pad 2 (second / 3600), [0x3A],
    pad 2 (second / 60 % 60), [0x3A], pad 2 (second % 60), fraction nanos, [0x5A]].flatten

/-- `Time.MarshalJSON` of an instant in UTC: an error outside the years 0 to 9999. -/
def encodeTime (t : Time) : Option GoStr :=
  let seconds := t.fdiv nanosPerSecond
  let (year, month, day) := civilDate (seconds.fdiv 86400)
  if 0 ≤ year ∧ year < 10000 then
    some (0x22 :: (timeText year.toNat month day (seconds.fmod 86400).toNat (t.fmod nanosPerSecond).toNat ++ [0x22]))
  else none

example :
    encodeTime (unixEpoch + 1700000000120000000) = some (lit "\"2023-11-14T22:13:20.12Z\"") := by
  decide +kernel

example : encodeTime 0 = some (lit "\"0001-01-01T00:00:00Z\"") := by decide +kernel

inductive LexState
  | outside
  | inside
  | escaped
  deriving DecidableEq

def isPunctuation (b : UInt8) : Bool := b == 0x7D || b == 0x3A || b == 0x2C || isDigit b

def lexStep : LexState → UInt8 → Option LexState
  | .outside, b =>
    if b = 0x22 then some .inside else if isPunctuation b then some .outside else none
  | .inside, b =>
    if b = 0x22 then some .outside else if b = 0x5C then some .escaped else some .inside
  | .escaped, _ => some .inside

def lex (state : LexState) (s : GoStr) : Option LexState := s.foldlM lexStep state

@[simp] lemma lex_cons (state : LexState) (b : UInt8) (s : GoStr) :
    lex state (b :: s) = (lexStep state b).bind fun st => lex st s := rfl

lemma lex_append (state : LexState) (s t : GoStr) :
    lex state (s ++ t) = (lex state s).bind fun st => lex st t :=
  foldlM_append

variable {s : GoStr} {members : List GoStr}

lemma lex_inside (h : ∀ b ∈ s, b ≠ 0x22 ∧ b ≠ 0x5C) : lex .inside s = some .inside := by
  induction s with
  | nil => rfl
  | cons b s ih =>
    obtain ⟨hquote, hslash⟩ := h b mem_cons_self
    rw [lex_cons, lexStep, if_neg hquote, if_neg hslash]
    exact ih fun b hb => h b (mem_cons_of_mem _ hb)

lemma lex_outside (h : ∀ b ∈ s, b ≠ 0x22 ∧ isPunctuation b) : lex .outside s = some .outside := by
  induction s with
  | nil => rfl
  | cons b s ih =>
    obtain ⟨hquote, hpunct⟩ := h b mem_cons_self
    rw [lex_cons, lexStep, if_neg hquote, if_pos hpunct]
    exact ih fun b hb => h b (mem_cons_of_mem _ hb)

lemma lex_escapeAscii : ∀ b, lex .inside (escapeAscii b) = some .inside :=
  byte_forall (by decide +kernel)

lemma lex_escapeRune {fuel : ℕ} {r : Option GoStr} (h : r ∈ runesN fuel s) :
    lex .inside (escapeRune r) = some .inside := by
  unfold escapeRune
  split
  · decide
  · exact lex_escapeAscii _
  next bytes hone =>
  split_ifs
  · decide
  · decide
  rcases runesN_bytes h with ⟨b, -, rfl⟩ | hhigh
  · exact absurd rfl (hone b)
  apply lex_inside
  intro b hb
  have := hhigh b hb
  constructor
  · rintro rfl
    exact absurd this (by decide)
  · rintro rfl
    exact absurd this (by decide)

lemma lex_flatMap {rs : List (Option GoStr)}
    (h : ∀ r ∈ rs, lex .inside (escapeRune r) = some .inside) :
    lex .inside (rs.flatMap escapeRune) = some .inside := by
  induction rs with
  | nil => rfl
  | cons r rs ih =>
    rw [flatMap_cons, lex_append, h r mem_cons_self]
    exact ih fun r hr => h r (mem_cons_of_mem _ hr)

lemma lex_quote (s : GoStr) : lex .outside (quote s) = some .outside := by
  have hbody : lex .inside (escape s) = some .inside := lex_flatMap fun r hr => lex_escapeRune hr
  change lex .inside (escape s ++ [0x22]) = _
  rw [lex_append, hbody]
  rfl

lemma lex_digits (h : AllDigits s) : lex .outside s = some .outside := by
  apply lex_outside
  intro b hb
  refine ⟨?_, by simp [isPunctuation, h b hb]⟩
  rintro rfl
  cases h _ hb

lemma lex_formatNat (n : ℕ) : lex .outside (formatNat n) = some .outside :=
  lex_digits (formatNat_numeral n).digits

lemma pad_digits (width n : ℕ) : AllDigits (pad width n) := by
  refine AllDigits.append (fun b hb => ?_) (formatNat_numeral n).digits
  rw [eq_of_mem_replicate hb]
  rfl

lemma fraction_bytes (nanos : ℕ) : ∀ b ∈ fraction nanos, b = 0x2E ∨ isDigit b := by
  intro b hb
  unfold fraction at hb
  split_ifs at hb
  · cases hb
  rcases mem_cons.mp hb with rfl | hb
  · exact .inl rfl
  · right
    have hmem := (dropWhile_suffix _).subset (mem_reverse.mp hb)
    exact pad_digits 9 nanos b (mem_reverse.mp hmem)

lemma timeText_bytes (year month day second nanos : ℕ) :
    ∀ b ∈ timeText year month day second nanos, b ≠ 0x22 ∧ b ≠ 0x5C := by
  have hdigit : ∀ b, isDigit b → b ≠ 0x22 ∧ b ≠ 0x5C := by
    intro b hb
    constructor
    · rintro rfl
      cases hb
    · rintro rfl
      cases hb
  have hpad : ∀ width n, ∀ b ∈ pad width n, b ≠ 0x22 ∧ b ≠ 0x5C :=
    fun width n b hb => hdigit b (pad_digits width n b hb)
  have hfraction : ∀ b ∈ fraction nanos, b ≠ 0x22 ∧ b ≠ 0x5C := by
    intro b hb
    rcases fraction_bytes nanos b hb with rfl | hb
    · decide
    · exact hdigit b hb
  intro b hb
  obtain ⟨part, hpart, hb⟩ := mem_flatten.mp hb
  simp only [mem_cons, not_mem_nil, or_false] at hpart
  rcases hpart with rfl | rfl | rfl | rfl | rfl | rfl | rfl | rfl | rfl | rfl | rfl | rfl | rfl
  all_goals first
    | exact hpad _ _ b hb
    | exact hfraction b hb
    | (rw [mem_singleton.mp hb]; decide)

lemma lex_encodeTime {t : Time} (h : encodeTime t = some s) : lex .outside s = some .outside := by
  unfold encodeTime at h
  dsimp only at h
  split_ifs at h
  rw [← Option.some.inj h]
  change lex .inside (_ ++ [0x22]) = _
  rw [lex_append, lex_inside (timeText_bytes _ _ _ _ _)]
  rfl

lemma lex_member {name : String} {value : GoStr} (hname : ∀ b ∈ lit name, b ≠ 0x22 ∧ b ≠ 0x5C)
    (hvalue : lex .outside value = some .outside) :
    lex .outside (member name value) = some .outside := by
  change lex .inside (lit name ++ _) = _
  rw [lex_append, lex_inside hname]
  exact hvalue

def Closed (members : List GoStr) : Prop := ∀ m ∈ members, lex .outside m = some .outside

lemma lex_join (h : Closed members) : lex .outside (join [0x2C] members) = some .outside := by
  induction members with
  | nil => rfl
  | cons m members ih =>
    have hm := h m mem_cons_self
    have hrest := ih fun m hm => h m (mem_cons_of_mem _ hm)
    cases members with
    | nil => simpa [join, intercalate] using hm
    | cons m' members =>
      have hjoin :
          join [0x2C] (m :: m' :: members) = m ++ ([0x2C] ++ join [0x2C] (m' :: members)) := by
        simp [join]
      rw [hjoin, lex_append, hm]
      exact hrest

/-- No object whose first name starts with `k` stands behind a colon inside a flat object. -/
lemma object_not_nested (h : Closed members) (u v : GoStr) :
    object members ≠ u ++ 0x3A :: 0x7B :: 0x22 :: 0x6B :: v := by
  intro heq
  cases u with
  | nil => cases heq
  | cons b u =>
    have hbody : join [0x2C] members ++ [0x7D] = u ++ 0x3A :: 0x7B :: 0x22 :: 0x6B :: v :=
      (cons.inj heq).2
    have hlex : lex .outside (join [0x2C] members ++ [0x7D]) = some .outside := by
      rw [lex_append, lex_join h]
      rfl
    rw [hbody, lex_append] at hlex
    -- Behind the colon the reader is inside a string or outside: there the brace, here the quote ends it.
    cases hstate : lex .outside u with
    | none =>
      rw [hstate] at hlex
      cases hlex
    | some state =>
      rw [hstate] at hlex
      cases state <;> cases hlex

end InteractiveProxy.JsonEncoding

namespace InteractiveProxy.JsonPieces

open GoText JsonEncoding KeySort List

/-- A piece of an encoding. A `raw` value is a `json.RawMessage`, which may be nil. -/
inductive Piece
  | bytes (s : GoStr)
  | raw (value : Option GoStr)
  | number (x : Float)

abbrev Pieces := List Piece

/-- What the library does with raw values and numbers: it takes the white space out of a raw value
that is valid JSON, and it writes a finite number. -/
structure JsonLibrary where
  compact : GoStr → Option GoStr
  number : Float → Option GoStr
  compact_nil : compact [] = none

def JsonLibrary.render (lib : JsonLibrary) : Piece → Option GoStr
  | .bytes s => some s
  | .raw none => some (lit "null")
  | .raw (some value) => lib.compact value
  | .number x => lib.number x

/-- `json.Marshal`, without the text of its error. -/
def JsonLibrary.marshal (lib : JsonLibrary) : Pieces → Option GoStr
  | [] => some []
  | p :: rest => (lib.render p).bind fun s => (lib.marshal rest).map (s ++ ·)

def null : Pieces := [.bytes (lit "null")]
def str (s : GoStr) : Pieces := [.bytes (quote s)]
def bool (b : Bool) : Pieces := [.bytes (lit (if b then "true" else "false"))]
def integer (n : ℤ) : Pieces := [.bytes (formatInt n)]
def raw (value : Option GoStr) : Pieces := [.raw value]

def pointer {α : Type} (encode : α → Pieces) : Option α → Pieces
  | none => null
  | some x => encode x

@[simp] def commas : List Pieces → Pieces
  | [] => []
  | [v] => v
  | v :: w :: rest => v ++ .bytes (lit ",") :: commas (w :: rest)

def array (values : List Pieces) : Pieces :=
  .bytes (lit "[") :: (commas values ++ [.bytes (lit "]")])

@[simp] def slice {α : Type} (encode : α → Pieces) : Option (List α) → Pieces
  | none => null
  | some xs => array (xs.map encode)

def object (members : List Pieces) : Pieces :=
  .bytes (lit "\x7b") :: (commas members ++ [.bytes (lit "\x7d")])

def member (name : GoStr) (value : Pieces) : Pieces := .bytes (quote name ++ lit ":") :: value

def mapping {α : Type} (encode : α → Pieces) : Option (List (GoStr × α)) → Pieces
  | none => null
  | some entries =>
    object ((sortBy (fun e : GoStr × α => textOrder e.1) entries).map fun e => member e.1 (encode e.2))

/-- A member with `omitempty`. -/
def optionalText (name : String) (s : GoStr) : List Pieces :=
  if s = [] then [] else [member (lit name) (str s)]

def optionalRaw (name : String) (value : Option GoStr) : List Pieces :=
  if value.getD [] = [] then [] else [member (lit name) (raw value)]

@[simp] def optionalPointer {α : Type} (name : String) (encode : α → Pieces) :
    Option α → List Pieces
  | none => []
  | some x => [member (lit name) (encode x)]

def optionalList {α : Type} (name : String) (encode : α → Pieces) (xs : List α) : List Pieces :=
  if xs.isEmpty then [] else [member (lit name) (array (xs.map encode))]

section Marshal

variable (lib : JsonLibrary)

@[simp] lemma marshal_append (a b : Pieces) :
    lib.marshal (a ++ b) = (lib.marshal a).bind fun s => (lib.marshal b).map (s ++ ·) := by
  induction a with
  | nil => simp [JsonLibrary.marshal]
  | cons p rest ih =>
    simp only [cons_append, JsonLibrary.marshal, ih]
    cases lib.render p <;> cases lib.marshal rest <;> cases lib.marshal b <;> simp

@[simp] lemma marshal_nil : lib.marshal [] = some [] := rfl

@[simp] lemma marshal_bytes (s : GoStr) (rest : Pieces) :
    lib.marshal (.bytes s :: rest) = (lib.marshal rest).map (s ++ ·) := rfl

lemma marshal_eq_none {ps : Pieces} : lib.marshal ps = none ↔ ∃ p ∈ ps, lib.render p = none := by
  induction ps with
  | nil => simp [JsonLibrary.marshal]
  | cons p rest ih =>
    rw [JsonLibrary.marshal, Option.bind_eq_none_iff]
    constructor
    · intro h
      cases hp : lib.render p with
      | none => exact ⟨p, mem_cons_self, hp⟩
      | some s =>
        obtain ⟨q, hq, hnone⟩ := ih.mp (Option.map_eq_none_iff.mp (h s hp))
        exact ⟨q, mem_cons_of_mem _ hq, hnone⟩
    · rintro ⟨q, hq, hnone⟩ s hs
      rcases mem_cons.mp hq with rfl | hq
      · rw [hnone] at hs
        cases hs
      · rw [ih.mpr ⟨q, hq, hnone⟩]
        rfl

end Marshal

variable {values : List Pieces}

lemma subset_commas {v : Pieces} (h : v ∈ values) : v ⊆ commas values := by
  induction values with
  | nil => cases h
  | cons w rest ih =>
    cases rest with
    | nil =>
      rw [mem_singleton.mp h]
      exact List.Subset.refl _
    | cons x rest =>
      intro p hp
      rcases mem_cons.mp h with rfl | h
      · exact mem_append_left _ hp
      · exact mem_append_right _ (mem_cons_of_mem _ (ih h hp))

lemma subset_slice {α : Type} {encode : α → Pieces} {xs : Option (List α)} {x : α}
    (h : x ∈ xs.getD []) : encode x ⊆ slice encode xs := by
  cases xs with
  | none => cases h
  | some xs =>
    intro p hp
    exact mem_cons_of_mem _ (mem_append_left _ (subset_commas (mem_map_of_mem h) hp))

lemma subset_object (name : GoStr) (value : Pieces) {members : List Pieces}
    (h : member name value ∈ members) : value ⊆ object members := by
  intro p hp
  exact mem_cons_of_mem _ (mem_append_left _ (subset_commas h (mem_cons_of_mem _ hp)))

lemma commas_concat (h : values ≠ []) (v : Pieces) :
    commas (values ++ [v]) = commas values ++ .bytes (lit ",") :: v := by
  induction values with
  | nil => exact absurd rfl h
  | cons u rest ih =>
    cases rest with
    | nil => rfl
    | cons x rest =>
      have hrest := ih (cons_ne_nil x rest)
      simp only [cons_append, commas, append_assoc] at hrest ⊢
      rw [hrest]

section Writers

variable {σ α : Type} {lib : JsonLibrary} {out : σ → GoStr} {start b : GoStr} {ps qs : Pieces}
  {P Q : σ → Prop} {s : σ}

/-- The outcome of a step that puts the encoding of `ps` behind `start` and ends in a state that
meets `post`, and that fails where the encoding does. -/
inductive Writes (lib : JsonLibrary) (out : σ → GoStr) (start : GoStr) (ps : Pieces)
    (post : σ → Prop) : Option σ → Prop
  | failed (h : lib.marshal ps = none) : Writes lib out start ps post none
  | done {s : σ} {b : GoStr} (h : lib.marshal ps = some b) (hout : out s = start ++ b)
    (hpost : post s) : Writes lib out start ps post (some s)

lemma Writes.of_bytes (hout : out s = start ++ b) (h : P s) :
    Writes lib out start [.bytes b] P (some s) :=
  .done (by simp) hout h

lemma Writes.of_eq (hout : out s = start) (h : P s) : Writes lib out start [] P (some s) :=
  .done (marshal_nil lib) (by rw [hout, append_nil]) h

variable {result : Option σ}

lemma Writes.congr (h : Writes lib out start ps P result) (heq : lib.marshal ps = lib.marshal qs) :
    Writes lib out start qs P result := by
  cases h with
  | failed hps => exact .failed (heq ▸ hps)
  | done hps hout hp => exact .done (heq ▸ hps) hout hp

/-- One step behind another. -/
lemma Writes.bind {f : σ → Option σ} (h : Writes lib out start ps P result)
    (hf : ∀ s, P s → Writes lib out (out s) qs Q (f s)) :
    Writes lib out start (ps ++ qs) Q (result.bind f) := by
  cases h with
  | failed hps => exact .failed (by rw [marshal_append, hps]; rfl)
  | @done s b hps hout hp =>
    rw [Option.bind_some]
    have hnext := hf s hp
    generalize f s = r at hnext
    cases hnext with
    | failed hqs => exact .failed (by rw [marshal_append, hps, hqs]; rfl)
    | @done t c hqs hout' hq =>
      exact .done (by rw [marshal_append, hps, hqs]; rfl) (by rw [hout', hout, append_assoc]) hq

lemma Writes.map_out (h : Writes lib out [] ps P result) : result.map out = lib.marshal ps := by
  cases h with
  | failed hps => rw [hps]; rfl
  | done hps hout hp => rw [hps, Option.map_some, hout]; rfl

/-- A step that cannot fail behind another. -/
lemma Writes.map {f : σ → σ} (h : Writes lib out start ps P result)
    (hf : ∀ s, P s → out (f s) = out s ++ b ∧ Q (f s)) :
    Writes lib out start (ps ++ [.bytes b]) Q (result.map f) := by
  rw [Option.map_eq_bind]
  exact h.bind fun s hs => .of_bytes (hf s hs).1 (hf s hs).2

/-- What stands in front of entry `n` of an array. -/
def separator (n : ℕ) : GoStr := if 0 < n then lit "," else []

/-- The entries of an array from entry `n` on, each with what stands in front of it. -/
def entries : ℕ → List Pieces → Pieces
  | _, [] => []
  | n, v :: rest => .bytes (separator n) :: v ++ entries (n + 1) rest

lemma Writes.foldlM {inv : ℕ → σ → Prop} {op : σ → α → Option σ} {encode : α → Pieces} {xs : List α}
    (hop : ∀ n s, ∀ x ∈ xs, inv n s → Writes lib out (out s) (.bytes (separator n) :: encode x) (inv (n + 1)) (op s x))
    {n : ℕ} (hs : inv n s) :
    Writes lib out (out s) (entries n (xs.map encode)) (inv (n + xs.length)) (xs.foldlM op s) := by
  induction xs generalizing n s with
  | nil => exact .of_eq rfl hs
  | cons x rest ih =>
    refine (hop n s x mem_cons_self hs).bind fun t ht => ?_
    have hrest := ih (fun n s y hy => hop n s y (mem_cons_of_mem x hy)) ht
    rwa [Nat.add_right_comm] at hrest

lemma marshal_entries_succ (lib : JsonLibrary) (n : ℕ) (values : List Pieces) (v : Pieces) :
    lib.marshal (v ++ entries (n + 1) values) = lib.marshal (commas (v :: values)) := by
  induction values generalizing n v with
  | nil => simp [entries]
  | cons u rest ih =>
    rw [entries, commas, cons_append, marshal_append, marshal_bytes, ih (n + 1) u]
    simp [separator]

@[simp] lemma marshal_entries (lib : JsonLibrary) (values : List Pieces) :
    lib.marshal (entries 0 values) = lib.marshal (commas values) := by
  cases values with
  | nil => rfl
  | cons v rest =>
    rw [entries, cons_append, marshal_bytes, marshal_entries_succ]
    simp [separator]

end Writers

end InteractiveProxy.JsonPieces
