import InteractiveProxy.KeyedTable
import InteractiveProxy.Utf8Runes
import Mathlib.Data.List.Sort

/-! Attribution fields of a request (`authorityattribution`) and the text under which rows that
belong to one caller are grouped. -/
namespace InteractiveProxy.Attribution
open GoText KeyedTable Utf8Runes

/-- Strings with an unknown/known-empty distinction (`scope.Value`). -/
structure ScopeValue where
  known : Bool := false
  value : GoStr := []
  deriving DecidableEq

def ScopeValue.ofString (s : GoStr) : ScopeValue := ⟨true, s⟩

/-- Attribution of one request (`authorityattribution.Dimensions`). -/
structure Dimensions where
  principal : ScopeValue := {}
  credential : ScopeValue := {}
  tenant : ScopeValue := {}
  organization : ScopeValue := {}
  workspace : ScopeValue := {}
  project : ScopeValue := {}
  department : ScopeValue := {}
  costCenter : ScopeValue := {}
  backend : ScopeValue := {}
  model : ScopeValue := {}
  route : ScopeValue := {}
  policyLabels : Table GoStr ScopeValue := ∅

/-- Bytes that `url.QueryEscape` copies: letters, digits, `-`, `_`, `.` and `~`. -/
def queryUnreserved (b : UInt8) : Bool :=
  (0x30 ≤ b && b ≤ 0x39) || (0x41 ≤ b && b ≤ 0x5A) || (0x61 ≤ b && b ≤ 0x7A) ||
    b == 0x2D || b == 0x5F || b == 0x2E || b == 0x7E

def upperHex (n : UInt8) : UInt8 := if n < 10 then 0x30 + n else 0x37 + n

def queryCode (b : UInt8) : GoStr :=
  if queryUnreserved b then [b] else if b = 0x20 then lit "+"
  else [0x25, upperHex (b / 16), upperHex (b % 16)]

def queryEscape (s : GoStr) : GoStr := s.flatMap queryCode

def encodeScopeValue (v : ScopeValue) : GoStr :=
  if v.known then lit "k:" ++ queryEscape v.value else lit "u"

/-- One `name=value|` piece of a key. -/
def keyField (name : GoStr) (v : ScopeValue) : GoStr :=
  name ++ lit "=" ++ encodeScopeValue v ++ lit "|"

/-- The eleven named fields, in the order in which the key lists them. -/
def Dimensions.named (d : Dimensions) : List (GoStr × ScopeValue) :=
  [(lit "principal", d.principal), (lit "credential", d.credential), (lit "tenant", d.tenant),
    (lit "organization", d.organization), (lit "workspace", d.workspace),
    (lit "project", d.project),
    (lit "department", d.department), (lit "cost_center", d.costCenter), (lit "backend", d.backend),
    (lit "model", d.model), (lit "route", d.route)]

def sortedLabels (d : Dimensions) : List GoStr := d.policyLabels.keys.insertionSort (· ≤ ·)

def labelFields (d : Dimensions) : GoStr :=
  (sortedLabels d).flatMap fun name =>
    keyField (lit "label." ++ name) ((d.policyLabels.lookup name).getD {})

/-- `KeyErr`; a failure names a label whose key `IsSafeLabelKey` refuses. -/
def Dimensions.keyErr (isSafeLabelKey : GoStr → Bool) (d : Dimensions) : Except GoStr GoStr :=
  match d.policyLabels.keys.find? fun name => !isSafeLabelKey name with
  | some name => .error name
  | none => .ok ((d.named.flatMap fun f => keyField f.1 f.2) ++ labelFields d).dropLast

/-- `Key`: the empty text where `KeyErr` fails. -/
def Dimensions.key (isSafeLabelKey : GoStr → Bool) (d : Dimensions) : GoStr :=
  match d.keyErr isSafeLabelKey with
  | .ok key => key
  | .error _ => []

def unlabelledKey : Dimensions → GoStr := Dimensions.key fun _ => true

open List

/-- `IsSafeLabelKey`; which runes are letters or digits is left to the tables of `unicode`. -/
def isSafeLabelKey (letterOrDigit : GoStr → Bool) (key : GoStr) : Bool :=
  key ≠ [] && (runes key).all fun r =>
    let r := r.getD (lit "\uFFFD")
    letterOrDigit r || [lit "_", lit "-", lit ".", lit ":"].contains r

/-- A scope value as it is read: the text that comes with an unknown value does not count. -/
def ScopeValue.scope (v : ScopeValue) : Option GoStr := if v.known then some v.value else none

/-- The same scope values in every field and under every label. -/
def Dimensions.Same (d d' : Dimensions) : Prop :=
  d.named.map (·.2.scope) = d'.named.map (·.2.scope) ∧
    ∀ name, (d.policyLabels.lookup name).map ScopeValue.scope =
    (d'.policyLabels.lookup name).map ScopeValue.scope

def queryByte : GoStr → UInt8
  | [0x2B] => 0x20
  | [_, h, l] => (if h < 0x3A then h - 0x30 else h - 0x37) * 16 +
    (if l < 0x3A then l - 0x30 else l - 0x37)
  | s => s.headD 0

lemma queryByte_queryCode : ∀ b, queryByte (queryCode b) = b := byte_forall (by decide +kernel)

/-- The first byte of a code tells how long it is. -/
lemma queryCode_length : ∀ b, (queryCode b).length = if (queryCode b).head? = some 0x25 then 3
  else 1 :=
  byte_forall (by decide +kernel)

lemma queryCode_plain : ∀ b, 0x7C ∉ queryCode b := byte_forall (by decide +kernel)

lemma queryCode_append {b b' : UInt8} {s t : GoStr} (h : queryCode b ++ s = queryCode b' ++ t) :
    b = b' ∧ s = t := by
  have hne : ∀ b, queryCode b ≠ [] := byte_forall (by decide +kernel)
  have hhead := congrArg head? h
  rw [head?_append_of_ne_nil _ (hne b), head?_append_of_ne_nil _ (hne b')] at hhead
  obtain ⟨hcode, hrest⟩ := append_inj h (by rw [queryCode_length b, queryCode_length b', hhead])
  exact ⟨by rw [← queryByte_queryCode b, hcode, queryByte_queryCode], hrest⟩

lemma queryEscape_injective : Function.Injective queryEscape := by
  intro s t h
  unfold queryEscape at h
  have hne : ∀ b, queryCode b ≠ [] := byte_forall (by decide +kernel)
  induction s generalizing t with
  | nil => cases t <;> simp_all
  | cons b s ih =>
    cases t with
    | nil => simp_all
    | cons b' t =>
      rw [flatMap_cons, flatMap_cons] at h
      obtain ⟨rfl, hrest⟩ := queryCode_append h
      rw [ih hrest]

/-- The text of a scope value that is read as `v`. -/
def scopeText : Option GoStr → GoStr
  | none => lit "u"
  | some s => lit "k:" ++ queryEscape s

lemma scopeText_injective : Function.Injective scopeText := by
  rintro (_ | s) (_ | t) h
  · rfl
  · cases h
  · cases h
  · rw [queryEscape_injective (append_cancel_left h)]

lemma scopeText_plain (v : Option GoStr) : 0x7C ∉ scopeText v := by
  cases v with
  | none => decide
  | some s =>
    have hlit : (0x7C : UInt8) ∉ lit "k:" := by decide
    have hescape : 0x7C ∉ s.flatMap queryCode := by simp [queryCode_plain]
    exact not_mem_append hlit hescape

/-- A field with its value as it is read. -/
def fieldScope (f : GoStr × ScopeValue) : GoStr × Option GoStr := (f.1, f.2.scope)

def fieldText (f : GoStr × Option GoStr) : GoStr := f.1 ++ 0x3D :: scopeText f.2 ++ [0x7C]

lemma keyField_eq (f : GoStr × ScopeValue) : keyField f.1 f.2 = fieldText (fieldScope f) := by
  obtain ⟨name, known, value⟩ := f
  cases known <;>
    simp [keyField, fieldText, fieldScope, ScopeValue.scope, encodeScopeValue, scopeText] <;> rfl

/-- Names without `=` and values without `|` are read back from the text one field at a time. -/
lemma fieldTexts_injective {fs gs : List (GoStr × Option GoStr)} (hfs : ∀ f ∈ fs, 0x3D ∉ f.1)
    (hgs : ∀ f ∈ gs, 0x3D ∉ f.1) (h : fs.flatMap fieldText = gs.flatMap fieldText) : fs = gs := by
  induction fs generalizing gs with
  | nil => cases gs <;> simp_all [fieldText]
  | cons f fs ih =>
    cases gs with
    | nil => simp [fieldText] at h
    | cons g gs =>
      simp only [flatMap_cons, fieldText, append_assoc, cons_append, nil_append] at h
      have hname := congrArg (cut 0x3D) h
      rw [cut_append_cons (hfs f mem_cons_self), cut_append_cons (hgs g mem_cons_self)] at hname
      have hvalue := congrArg (cut 0x7C) (Prod.mk.inj (Prod.mk.inj hname).2).1
      rw [cut_append_cons (scopeText_plain _), cut_append_cons (scopeText_plain _)] at hvalue
      have hrest := ih (fun f hf => hfs f (mem_cons_of_mem _ hf))
        (fun f hf => hgs f (mem_cons_of_mem _ hf)) (Prod.mk.inj (Prod.mk.inj hvalue).2).1
      rw [hrest, Prod.ext (Prod.mk.inj hname).1 (scopeText_injective (Prod.mk.inj hvalue).1)]

def Dimensions.fields (d : Dimensions) : List (GoStr × Option GoStr) :=
  d.named.map fieldScope ++
    (sortedLabels d).map fun name =>
    (lit "label." ++ name, ((d.policyLabels.lookup name).map ScopeValue.scope).getD none)

lemma keyErr_eq_ok {safe : GoStr → Bool} {d : Dimensions} {key : GoStr}
    (h : d.keyErr safe = .ok key) :
    (∀ name ∈ d.policyLabels, safe name) ∧ key ++ [0x7C] = d.fields.flatMap fieldText := by
  have htext : (d.named.flatMap fun f => keyField f.1 f.2) ++ labelFields d =
      d.fields.flatMap fieldText := by
    simp only [Dimensions.fields, flatMap_append, flatMap_map, labelFields, ← keyField_eq]
    congr 1
    refine flatMap_congr fun name _ => ?_
    rw [keyField_eq (_, _), fieldScope]
    cases d.policyLabels.lookup name <;> rfl
  have hlast : (d.fields.flatMap fieldText).getLast? = some 0x7C := by
    rcases eq_nil_or_concat d.fields with hnil | ⟨fs, f, hfs⟩
    · cases hnil
    · simp [hfs, fieldText, -append_assoc]
  rw [Dimensions.keyErr, htext] at h
  split at h
  · cases h
  · rename_i hsafe
    cases h
    refine ⟨fun name hname => by simpa using find?_eq_none.mp hsafe name (AList.mem_keys.mpr hname), ?_⟩
    rw [dropLast_append_getLast? _ hlast]

lemma name_plain {letterOrDigit : GoStr → Bool} (hword : letterOrDigit (lit "=") = false)
    {name : GoStr} (h : isSafeLabelKey letterOrDigit name) : 0x3D ∉ name := by
  intro hmem
  have hrune := mem_runesN_of_ascii le_rfl (by decide) hmem
  rw [isSafeLabelKey, Bool.and_eq_true, all_eq_true] at h
  have := h.2 _ hrune
  simp only [Option.getD_some] at this
  rw [show ([0x3D] : GoStr) = lit "=" from rfl, hword] at this
  exact absurd this (by decide)

lemma lookup_isSome_iff {d : Dimensions} {name : GoStr} :
    ((d.policyLabels.lookup name).map ScopeValue.scope).isSome ↔ name ∈ sortedLabels d := by
  rw [Option.isSome_map, AList.lookup_isSome, sortedLabels, mem_insertionSort, AList.mem_keys]

lemma fields_eq_iff {d d' : Dimensions} : d.fields = d'.fields ↔ d.Same d' := by
  constructor
  · intro h
    obtain ⟨hnamed, hlabels⟩ := append_inj h rfl
    have hnames : sortedLabels d = sortedLabels d' := by
      have := congrArg (map Prod.fst) hlabels
      rw [map_map, map_map] at this
      exact map_injective_iff.mpr (append_right_injective (lit "label.")) this
    have hscopes := congrArg (map Prod.snd) hnamed
    rw [map_map, map_map] at hscopes
    refine ⟨hscopes, fun name => ?_⟩
    by_cases hname : name ∈ sortedLabels d
    · obtain ⟨v, hv⟩ := Option.isSome_iff_exists.mp (lookup_isSome_iff.mpr hname)
      obtain ⟨v', hv'⟩ := Option.isSome_iff_exists.mp (lookup_isSome_iff.mpr (hnames ▸ hname))
      rw [← hnames] at hlabels
      have := (Prod.mk.inj (map_inj_left.mp hlabels name hname)).2
      rw [hv, hv'] at this ⊢
      exact congrArg some this
    · have hname' := hname
      rw [hnames] at hname'
      rw [← lookup_isSome_iff, Option.not_isSome_iff_eq_none] at hname hname'
      rw [hname, hname']
  · rintro ⟨hnamed, hlabels⟩
    have hmem : ∀ name, name ∈ sortedLabels d ↔ name ∈ sortedLabels d' := fun name => by
      rw [← lookup_isSome_iff, hlabels, lookup_isSome_iff]
    have hnames : sortedLabels d = sortedLabels d' := by
      have hnodup : ∀ d : Dimensions, (sortedLabels d).Nodup := fun d =>
        (perm_insertionSort _ _).nodup_iff.mpr d.policyLabels.nodupKeys
      exact Perm.eq_of_pairwise' (pairwise_insertionSort _ _) (pairwise_insertionSort _ _)
        ((perm_ext_iff_of_nodup (hnodup d) (hnodup d')).mpr hmem)
    rw [Dimensions.fields, Dimensions.fields, hnames]
    simp only [hlabels]
    congr 1
    simpa [Dimensions.named, fieldScope] using hnamed

/-- Two sets of dimensions have one key exactly when they hold the same scope values, whatever order
their label maps were built in. -/
theorem keyErr_eq_iff {letterOrDigit : GoStr → Bool} (hword : letterOrDigit (lit "=") = false)
    {d d' : Dimensions} {key key' : GoStr} (h : d.keyErr (isSafeLabelKey letterOrDigit) = .ok key)
    (h' : d'.keyErr (isSafeLabelKey letterOrDigit) = .ok key') : key = key' ↔ d.Same d' := by
  have hplain : ∀ {d : Dimensions}, (∀ name ∈ d.policyLabels, isSafeLabelKey letterOrDigit name) →
      ∀ f ∈ d.fields, 0x3D ∉ f.1 := by
    intro d hsafe f hf
    rcases mem_append.mp hf with hf | hf
    · obtain ⟨v, hv, rfl⟩ := mem_map.mp hf
      have hnames : ∀ name ∈ d.named.map Prod.fst, 0x3D ∉ name := by
        simp only [Dimensions.named, map_cons, map_nil]
        decide
      exact hnames v.1 (mem_map_of_mem hv)
    · obtain ⟨name, hname, rfl⟩ := mem_map.mp hf
      rw [← lookup_isSome_iff, Option.isSome_map, AList.lookup_isSome] at hname
      exact not_mem_append (by decide) (name_plain hword (hsafe name hname))
  obtain ⟨hsafe, htext⟩ := keyErr_eq_ok h
  obtain ⟨hsafe', htext'⟩ := keyErr_eq_ok h'
  rw [← fields_eq_iff, ← append_left_inj [0x7C], htext, htext']
  exact ⟨fieldTexts_injective (hplain hsafe) (hplain hsafe'), fun h => by rw [h]⟩

def lowercase (r : GoStr) : Bool := r.all fun b => 0x61 ≤ b && b ≤ 0x7A

/-- An unknown and an empty label. -/
theorem keyErr_eq_iff_labels : ∃ d d' : Dimensions, ∃ key key' : GoStr,
    d.keyErr (isSafeLabelKey lowercase) = .ok key ∧
      d'.keyErr (isSafeLabelKey lowercase) = .ok key' ∧ (key = key' ↔ d.Same d') := by
  have h : ∀ v : ScopeValue, ∃ key :
      GoStr, ({ policyLabels := AList.insert (lit "team") v ∅ } : Dimensions).keyErr
      (isSafeLabelKey lowercase) = .ok key := fun v => ⟨_, rfl⟩
  obtain ⟨key, hkey⟩ := h {}
  obtain ⟨key', hkey'⟩ := h (.ofString [])
  exact ⟨_, _, key, key', hkey, hkey', keyErr_eq_iff rfl hkey hkey'⟩

/-- The text of an unknown value is not written, so it does not tell keys apart. -/
theorem keyErr_unknown_text : ∃ d d' : Dimensions, ∃ key : GoStr,
    d.keyErr (isSafeLabelKey lowercase) = .ok key ∧ d'.keyErr (isSafeLabelKey lowercase) = .ok key ∧
      d.principal ≠ d'.principal :=
  ⟨{ principal := ⟨false, lit "a"⟩ }, {}, _, rfl, rfl, by decide⟩

end InteractiveProxy.Attribution
