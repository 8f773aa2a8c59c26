import InteractiveProxy.PathRoundTrip

/-! An alias resolves to its own workspace, at a segment boundary, and never to another's. No path
that an expansion hands out is an alias again, unless the root is the bare head of a Windows volume:
then the suffix can spell the rest. -/
namespace InteractiveProxy.PathVirtualization

open GoText

variable {sha256 : GoStr → Fin 32 → UInt8} {root path body : GoStr} {m : Mapping}
  {a base : ReservedAlias}

lemma parseAliasTag_rest {segment suffix : GoStr} (hbase : AtSeparator base.rest)
    (h : AtSeparator suffix) : AtSeparator (parseAliasTag base segment suffix).rest := by
  unfold parseAliasTag
  split
  · exact hbase
  · exact h

lemma parseMarker_rest (hbase : AtSeparator base.rest) (h : parseMarker base body = some a) :
    AtSeparator a.rest := by
  unfold parseMarker at h
  split_ifs at h
  cases h
  exact parseAliasTag_rest hbase (takeSegment_rest _)

lemma scanVolumeLookalikeHead_rest (h : scanVolumeLookalikeHead path = some (base, body)) :
    base.rest = [] := by
  unfold scanVolumeLookalikeHead scanExtendedLookalikeHead at h
  dsimp only at h
  repeat' split at h
  all_goals cases h <;> rfl

lemma parseReservedAlias_rest (h : parseReservedAlias path = some a) : AtSeparator a.rest := by
  have hnil : AtSeparator [] := by simp [AtSeparator]
  unfold parseReservedAlias at h
  rcases hclass : classifyPath path with _ | parsed
  · simp [hclass] at h
  rw [hclass] at h
  dsimp only at h
  rcases hposition : parseAliasRootPosition parsed with _ | b
  · rw [hposition] at h
    unfold parseVolumeLookalikeAlias at h
    rcases hhead : scanVolumeLookalikeHead path with _ | ⟨base, body⟩
    · simp [hhead] at h
    · rw [hhead] at h
      exact parseMarker_rest (scanVolumeLookalikeHead_rest hhead ▸ hnil) h
  · rw [hposition] at h
    cases h
    have hvolume (hrest : AtSeparator parsed.rest)
        (hread : parseVolumeReservedAlias
          { flavor := parsed.flavor, drive := aliasDrive parsed.flavor parsed.root } parsed = some a) :
        AtSeparator a.rest := by
      unfold parseVolumeReservedAlias at hread
      dsimp only at hread
      split_ifs at hread
      cases hread
      exact parseAliasTag_rest hnil hrest
    cases classifyPath_ok hclass with
    | posix | drive | extendedDrive => exact parseMarker_rest hnil hposition
    | unc hvol | extendedUNC _ _ hvol =>
      obtain ⟨-, -, -, -, -, -, -, -, -, -, hrest⟩ := uncVolume_eq_some hvol
      exact hvolume hrest hposition

lemma lower_tag {flavor : PathFlavor} {got tag : GoStr} (htag : TagText tag)
    (h : segmentEqual flavor got tag) : got.map lowerByte = tag := by
  have hlow : ∀ c, isTagChar .posix c → lowerByte c = c := byte_forall (by decide +kernel)
  have hchars := htag.chars
  have hall := segmentEqual_iff.mp h
  clear h htag
  induction hall with
  | nil => rfl
  | @cons g w got want hbyte hrest ih =>
    rw [List.forall_mem_cons] at hchars
    have hw := hlow w
    have hsame : lowerByte g = w := by
      have hsep := (isTagChar_of_posix hchars.1 .posix).2
      unfold ByteEqual equalWindowsByte at hbyte
      split_ifs at hbyte with hposix heq hseps
      · rw [hbyte, hw hchars.1]
      · rw [← heq, hw hchars.1]
      · simp [hsep] at hseps
      · rw [← of_decide_eq_true hbyte, hw hchars.1]
    rw [List.map_cons, hsame, ih hchars.2]

def EndsAtBoundary (flavor : PathFlavor) (root path : GoStr) : Prop :=
  ∃ tail, path = root ++ tail ∧ (tail = [] ∨ (∃ s ∈ root.getLast?, isFlavorSeparator flavor s) ∨
    ∃ s ∈ tail.head?, isFlavorSeparator flavor s)

structure Resolves (m : Mapping) (path : GoStr) (a : ReservedAlias) : Prop where
  expanded : m.expandPath path = (joinRootSuffix m.flavor m.realRoot a.rest, .expanded)
  flavor : a.flavor = m.flavor
  drive : a.drive = aliasDrive m.flavor m.realRoot
  tag : segmentEqual m.flavor a.tag m.workspaceTag
  boundary : EndsAtBoundary m.flavor m.realRoot (joinRootSuffix m.flavor m.realRoot a.rest)

def Refused (m : Mapping) (path : GoStr) : Prop :=
  m.expandPath path = ([], .malformedReservedAlias) ∨ m.expandPath path = ([], .workspaceMismatch)

/-- A POSIX alias of the mapping whose suffix starts with a backslash, for a root that does not end
with a slash. -/
def SplitsName (m : Mapping) (a : ReservedAlias) : Prop :=
  a.wellFormed = true ∧ m.names a ∧ m.flavor = .posix ∧ a.rest.head? = some backslash ∧
    m.realRoot.getLast? ≠ some slash

def rootIdentity (root : GoStr) : Option (PathFlavor × GoStr) :=
  (classifyPath root).toOption.map fun parsed => (parsed.flavor, canonicalRootIdentity parsed)

lemma endsAtBoundary_join (flavor : PathFlavor) (root : GoStr) {suffix : GoStr}
    (h : AtSeparator suffix) : EndsAtBoundary flavor root (joinRootSuffix flavor root suffix) ↔
      ¬(flavor = .posix ∧ suffix.head? = some backslash ∧ root.getLast? ≠ some slash) := by
  have hflavor {s : UInt8} (hs : isSeparator s) :
      isFlavorSeparator flavor s = true ↔ ¬(flavor = .posix ∧ s = backslash) := by
    have hcase : s = slash ∨ s = backslash := by simpa [isSeparator] using hs
    unfold isFlavorSeparator
    rcases hcase with rfl | rfl <;> split_ifs with hposix <;>
      simp [hposix, hs, show slash ≠ backslash by decide, show backslash ≠ slash by decide]
  have hends : (∃ s ∈ root.getLast?, isFlavorSeparator flavor s) ↔
      root.getLast?.any (isFlavorSeparator flavor) = true := by
    cases root.getLast? <;> simp
  rcases suffix with _ | ⟨s, tail⟩
  · simp [joinRootSuffix, EndsAtBoundary]
  rw [joinRootSuffix]
  split_ifs with hlast
  · refine iff_of_true ⟨tail, rfl, .inr (.inl (hends.mpr hlast))⟩ ?_
    rintro ⟨rfl, -, hslash⟩
    obtain ⟨t, ht, hsep⟩ := hends.mpr hlast
    rw [Option.mem_def.mp ht, Option.some_inj.mpr (of_decide_eq_true hsep)] at hslash
    exact hslash rfl
  · have hslash : flavor = .posix → root.getLast? ≠ some slash := by
      rintro rfl hslash
      exact hlast (by rw [hslash]; rfl)
    have htail : EndsAtBoundary flavor root (root ++ s :: tail) ↔ isFlavorSeparator flavor s := by
      constructor
      · rintro ⟨_, heq, hboundary⟩
        obtain rfl := List.append_cancel_left heq
        rcases hboundary with hnil | hroot | ⟨_, ⟨⟩, hs⟩
        · cases hnil
        · exact absurd (hends.mp hroot) hlast
        · exact hs
      · exact fun hs => ⟨_, rfl, .inr (.inr ⟨s, rfl, hs⟩)⟩
    rw [htail, hflavor (h s rfl)]
    simp only [List.head?_cons, Option.some.injEq]
    tauto

lemma expandPath_alias (hpath : parseReservedAlias path = some a) :
    m.expandPath path = m.expandReservedAlias a := by
  simp [Mapping.expandPath, hpath]

lemma Derived.expandPath_virtual {parsed : ParsedPath} (h : Derived sha256 root parsed m)
    {p : GoStr} (hp : m.virtualizePath p = some path) : (m.expandPath path).2 = .expanded := by
  unfold Mapping.virtualizePath at hp
  split_ifs at hp with hactive
  rcases hstrip : stripRootPrefix p m.flavor (matchableRoot m.realRoot) with _ | _ | ⟨sep, tail⟩
  · simp [hstrip] at hp
  · simp only [hstrip, Option.some.injEq] at hp
    have hlast : ∃ sep, isSeparator sep ∧ m.virtualRoot = m.virtualRoot.dropLast ++ [sep] := by
      have hends (front : GoStr) {sep : UInt8} (hsep : isSeparator sep)
          (hroot : m.virtualRoot = front ++ aliasSegments sep m.workspaceTag) :
          ∃ sep, isSeparator sep = true ∧ m.virtualRoot = m.virtualRoot.dropLast ++ [sep] := by
        refine ⟨sep, hsep, ?_⟩
        rw [hroot, aliasSegments, ← List.append_assoc, List.dropLast_concat]
      have hroot := (h.active hactive).1
      unfold virtualRoot at hroot
      rcases hflavor : parsed.flavor <;> rw [hflavor] at hroot
      · exact hends [slash] (by decide) hroot
      · exact hends [_, _, _] (by decide) hroot
      · exact hends uncAnchor (by decide) hroot
      · exact hends (extendedAnchor ++ [_, _, _]) (by decide) hroot
      · exact hends (extendedAnchor ++ uncMarker ++ [_]) (by decide) hroot
    obtain ⟨sep, hsep, hroot⟩ := hlast
    rw [← hp, hroot, h.expandPath_minted hactive (atSeparator_cons hsep)]
  · simp only [hstrip, Option.some.injEq] at hp
    obtain ⟨-, -, -, hsep⟩ := stripRootPrefix_eq_some hstrip
    rw [← hp, h.expandPath_minted hactive (atSeparator_cons (isSeparator_of_flavor (hsep sep rfl)))]

/-- A mapping resolves or refuses an alias unless the alias splits a name, and never takes one that
belongs to another workspace. -/
theorem alias_isolated (hm : deriveMapping sha256 root = .ok m)
    (hpath : parseReservedAlias path = some a) :
    ((Resolves m path a ∨ Refused m path) ↔ ¬SplitsName m a) ∧
    ∀ root' m', deriveMapping sha256 root' = .ok m' →
      (rootIdentity root' ≠ rootIdentity root → m'.workspaceTag ≠ m.workspaceTag) →
      rootIdentity root' ≠ rootIdentity root →
      ((∃ p, m'.virtualizePath p = some path) ∨ (m'.expandPath path).2 = .expanded) →
      m.expandPath path = ([], .workspaceMismatch) := by
  obtain ⟨parsed, hderived⟩ := deriveMapping_ok hm
  have hexpand := expandPath_alias hpath (m := m)
  unfold Mapping.expandReservedAlias at hexpand
  constructor
  · split_ifs at hexpand with hmalformed hother
    · exact iff_of_true (.inr (.inl hexpand)) fun hsplit => by rw [hsplit.1] at hmalformed; cases hmalformed
    · exact iff_of_true (.inr (.inr hexpand)) fun hsplit => by rw [hsplit.2.1] at hother; cases hother
    rw [Bool.not_eq_false] at hmalformed hother
    have hparts := hother
    simp only [Mapping.names, Bool.and_eq_true, decide_eq_true_eq] at hparts
    obtain ⟨⟨⟨hflavor, hdrive⟩, -⟩, htag⟩ := hparts
    have hboundary := endsAtBoundary_join m.flavor m.realRoot (parseReservedAlias_rest hpath)
    constructor
    · rintro (hresolves | hrefused) ⟨-, -, hsplit⟩
      · exact hboundary.mp hresolves.boundary hsplit
      · rw [Refused, hexpand] at hrefused
        simp at hrefused
    · intro hsplit
      exact .inl ⟨hexpand, hflavor, hdrive, hflavor ▸ htag, hboundary.mpr fun h => hsplit ⟨hmalformed, hother, h⟩⟩
  · intro root' m' hm' hfree hdistinct hminted
    obtain ⟨parsed', hderived'⟩ := deriveMapping_ok hm'
    have hexpanded : (m'.expandPath path).2 = .expanded := by
      rcases hminted with ⟨p, hp⟩ | hexpanded
      · exact hderived'.expandPath_virtual hp
      · exact hexpanded
    rw [expandPath_alias hpath, Mapping.expandReservedAlias] at hexpanded
    split_ifs at hexpanded with hmalformed hother
    rw [Bool.not_eq_false] at hother
    split_ifs at hexpand with hown
    · exact hexpand
    · simp only [Bool.not_eq_false, Mapping.names, Bool.and_eq_true] at hown hother
      have htag :=
        (lower_tag hderived'.tagText hother.2).symm.trans (lower_tag hderived.tagText hown.2)
      exact absurd htag (hfree hdistinct)

def byteSum (text : GoStr) (_ : Fin 32) : UInt8 := text.foldl (· + ·) 0

def ownMapping : Mapping :=
  ⟨.posix, workspaceRoot, lit "rgeytcmjrgeytcmjrgeq", lit "/.__lip_v1__/w_rgeytcmjrgeytcmjrgeq/"⟩

def otherRoot : GoStr := lit "/home/dev/projects/interactive-proxy/other-space"

def otherMapping : Mapping :=
  ⟨.posix, otherRoot, lit "cukrkfivcukrkfivcukq", lit "/.__lip_v1__/w_cukrkfivcukrkfivcukq/"⟩

theorem alias_isolated_of_workspaces :
    deriveMapping byteSum workspaceRoot = .ok ownMapping ∧
    deriveMapping byteSum otherRoot = .ok otherMapping ∧
      ownMapping.expandPath otherMapping.virtualRoot = ([], .workspaceMismatch) := by
  have hpath : parseReservedAlias otherMapping.virtualRoot =
      some ⟨.posix, 0, otherMapping.workspaceTag, [slash], true⟩ := by decide +kernel
  refine ⟨?own, ?other, (alias_isolated ?own hpath).2 _ _ ?other (fun _ => by decide +kernel) (by decide +kernel)
    (.inl ⟨otherRoot, by decide +kernel⟩)⟩
  · decide +kernel
  · decide +kernel

/-- An alias of `workspaceMapping` with a backslash after its tag. -/
def backslashAlias : GoStr := lit "/.__lip_v1__/w_aaaaaaaaaaaaaaaaaaaa\\x"

theorem backslash_suffix_leaves_root :
    deriveMapping (fun _ _ => 0) workspaceRoot = .ok workspaceMapping ∧
      ∃ a, parseReservedAlias backslashAlias = some a ∧
        workspaceMapping.expandPath backslashAlias = (workspaceRoot ++ lit "\\x", .expanded) ∧
        ¬(Resolves workspaceMapping backslashAlias a ∨ Refused workspaceMapping backslashAlias) := by
  have hparse : parseReservedAlias backslashAlias =
      some ⟨.posix, 0, lit "aaaaaaaaaaaaaaaaaaaa", lit "\\x", true⟩ := by decide +kernel
  have hexpand :
      workspaceMapping.expandPath backslashAlias = (workspaceRoot ++ lit "\\x", .expanded) := by
    decide +kernel
  refine ⟨by decide +kernel, _, hparse, hexpand, ?_⟩
  rintro (hresolves | hrefused)
  · exact (endsAtBoundary_join .posix workspaceRoot (parseReservedAlias_rest hparse)).mp hresolves.boundary
      (by decide +kernel)
  · rw [Refused, hexpand] at hrefused
    simp at hrefused

open List

variable {l x y name : GoStr} {parsed : ParsedPath}

def DriveOnly (s : GoStr) : Prop :=
  ∃ letter seps, s = letter :: driveColon :: seps ∧ isASCIILetter letter ∧
    trimLeadingSeparators seps = []

def UNCOnly (s : GoStr) : Prop :=
  hasPrefixFoldASCII s uncMarker = true ∧ trimLeadingSeparators (s.drop uncMarker.length) = []

/-- A root that stops before the first name below a volume, in one of the spellings that the parser
looks through. -/
def HeadOnly (root : GoStr) : Prop :=
  trimLeadingSeparators root = [] ∨ DriveOnly (trimLeadingSeparators root) ∨
    ∃ tail, trimLeadingSeparators root = extendedQuery :: tail ∧ AtSeparator tail ∧
      (trimLeadingSeparators tail = [] ∨ DriveOnly (trimLeadingSeparators tail) ∨ UNCOnly (trimLeadingSeparators tail))

/-- A reader of heads goes on in the same way when text is put after what it reads, and has
something left to read. -/
def Carries {β : Type} (f : GoStr → Option (β × GoStr)) (l x : GoStr) : Prop :=
  f (l ++ x) = (f l).map (fun r => (r.1, r.2 ++ x)) ∧ ∀ r ∈ f l, r.2 ≠ [] ∧ r.2 <:+ l

lemma letter_not_separator {c : UInt8} (h : isASCIILetter c) : isSeparator c = false := by
  simp [isSeparator, not_separator_of_letter h]

lemma letter_ne_query {c : UInt8} (h : isASCIILetter c) : c ≠ extendedQuery := by
  rintro rfl
  exact absurd h (by decide)

lemma marker_not_separator :
    ∀ {c}, lowerByte c = 0x75 ∨ lowerByte c = 0x6E ∨ lowerByte c = 0x63 → isSeparator c = false :=
  @byte_forall _ (by decide +kernel)

lemma driveVolumeAt_eq_none {a b c : UInt8} {t : GoStr}
    (h : isASCIILetter a → b = driveColon → isSeparator c = false) :
    driveVolumeAt (a :: b :: c :: t) = none := by
  refine if_pos ?_
  by_contra hall
  simp only [not_or, Bool.not_eq_false, not_not] at hall
  rw [h hall.1 hall.2.1] at hall
  cases hall.2.2

lemma driveVolumeAt_carries (hl : l ≠ []) (hdrive : ¬DriveOnly l) (hx : Bounded l x) :
    Carries driveVolumeAt l x := by
  rcases l with _ | ⟨a, _ | ⟨b, _ | ⟨c, t⟩⟩⟩
  · exact absurd rfl hl
  · refine ⟨?_, by simp [driveVolumeAt]⟩
    rcases x with _ | ⟨b, _ | ⟨c, t⟩⟩
    · rfl
    · rfl
    refine driveVolumeAt_eq_none fun ha hb => ?_
    subst hb
    simpa [letter_not_separator ha, show isSeparator driveColon = false by decide] using hx a rfl driveColon rfl
  · refine ⟨?_, by simp [driveVolumeAt]⟩
    rcases x with _ | ⟨c, t⟩
    · rfl
    refine driveVolumeAt_eq_none fun ha hb => ?_
    subst hb
    exact absurd ⟨a, [], rfl, ha, rfl⟩ hdrive
  · simp only [Carries, cons_append, driveVolumeAt]
    split_ifs with hno
    · simp
    simp only [not_or, Bool.not_eq_false, not_not] at hno
    obtain ⟨ha, rfl, -⟩ := hno
    have hleft : trimLeadingSeparators (c :: t) ≠ [] :=
      fun hnil => hdrive ⟨a, c :: t, rfl, ha, hnil⟩
    refine ⟨?_, ?_⟩
    · rw [← cons_append, trimLeadingSeparators_append hleft]
      rfl
    · rintro _ ⟨⟩
      exact ⟨hleft, (trimLeadingSeparators_suffix _).trans (suffix_append [a, driveColon] _)⟩

lemma hasPrefix_append (hl : l ≠ []) (hx : Bounded l x) :
    hasPrefixFoldASCII (l ++ x) uncMarker = hasPrefixFoldASCII l uncMarker := by
  unfold hasPrefixFoldASCII
  rcases l with _ | ⟨a, _ | ⟨b, _ | ⟨c, t⟩⟩⟩
  · exact absurd rfl hl
  · rcases x with _ | ⟨b, _ | ⟨c, t⟩⟩
    · rfl
    · simp [uncMarker]
    have hmeet := hx a rfl b rfl
    have hno : ¬(lowerByte a = 0x75 ∧ lowerByte b = 0x6E) := fun h => by
      simp [marker_not_separator (.inl h.1), marker_not_separator (.inr (.inl h.2))] at hmeet
    simp [uncMarker]
    exact fun ha hb _ => hno ⟨ha, hb⟩
  · rcases x with _ | ⟨c, t⟩
    · rfl
    have hmeet := hx b rfl c rfl
    have hno : ¬(lowerByte b = 0x6E ∧ lowerByte c = 0x63) := fun h => by
      simp [marker_not_separator (.inr (.inl h.1)), marker_not_separator (.inr (.inr h.2))] at hmeet
    simp [uncMarker]
    exact fun _ hb hc => hno ⟨hb, hc⟩
  · rfl

lemma scanExtendedLookalikeHead_carries (hnil : trimLeadingSeparators l ≠ [])
    (hhead : AtSeparator l → ¬DriveOnly (trimLeadingSeparators l) ∧ ¬UNCOnly (trimLeadingSeparators l))
    (hx : Bounded l x) : Carries scanExtendedLookalikeHead l x := by
  rcases l with _ | ⟨sep, t⟩
  · exact absurd rfl hnil
  simp only [Carries, cons_append, scanExtendedLookalikeHead]
  by_cases hsep : isSeparator sep = false
  · simp [hsep]
  simp only [hsep]
  obtain ⟨hdrive, hunc⟩ := hhead (by rintro _ ⟨⟩; simpa using hsep)
  have hsuffix := trimLeadingSeparators_suffix (sep :: t)
  have hnext := trimLeadingSeparators_append hnil x
  rw [cons_append] at hnext
  rw [hnext]
  obtain ⟨hcarry, hleft⟩ := driveVolumeAt_carries hnil hdrive (hx.suffix hsuffix)
  rw [hcarry]
  rcases hvolume : driveVolumeAt (trimLeadingSeparators (sep :: t)) with _ | ⟨drive, body⟩
  · simp only [hasPrefix_append hnil (hx.suffix hsuffix)]
    by_cases hmarker : hasPrefixFoldASCII (trimLeadingSeparators (sep :: t)) uncMarker = false
    · simp [hmarker]
    rw [Bool.not_eq_false] at hmarker
    simp only [hmarker]
    have hlong : uncMarker.length ≤ (trimLeadingSeparators (sep :: t)).length := by
      have hlength := congrArg length (of_decide_eq_true hmarker)
      simp only [length_map, length_take] at hlength
      omega
    rw [drop_append_of_le_length hlong]
    rcases hdrop : (trimLeadingSeparators (sep :: t)).drop uncMarker.length with _ | ⟨s, rest⟩
    · exact absurd ⟨hmarker, by rw [hdrop]; rfl⟩ hunc
    have hrest : trimLeadingSeparators (s :: rest) ≠ [] := fun h => hunc ⟨hmarker, by rw [hdrop, h]⟩
    simp only [cons_append]
    by_cases hs : isSeparator s = false
    · simp [hs]
    simp only [hs]
    refine ⟨?_, ?_⟩
    · rw [← cons_append, trimLeadingSeparators_append hrest]
      rfl
    · rintro _ ⟨⟩
      refine ⟨hrest, (trimLeadingSeparators_suffix _).trans ?_⟩
      rw [← hdrop]
      exact (drop_suffix _ _).trans hsuffix
  · refine ⟨rfl, ?_⟩
    rintro _ ⟨⟩
    obtain ⟨hbody, hfrom⟩ := hleft _ hvolume
    exact ⟨hbody, hfrom.trans hsuffix⟩

lemma scanVolumeLookalikeHead_carries (hhead : ¬HeadOnly l) (hx : Bounded l x) :
    Carries scanVolumeLookalikeHead l x := by
  simp only [HeadOnly, not_or] at hhead
  obtain ⟨hnil, hdrive, hquery⟩ := hhead
  have hsuffix := trimLeadingSeparators_suffix l
  have htrim := trimLeadingSeparators_append hnil x
  rcases l with _ | ⟨first, t⟩
  · exact absurd rfl hnil
  simp only [Carries, cons_append, scanVolumeLookalikeHead] at htrim ⊢
  split_ifs
  · simp
  rw [htrim]
  rcases hbody : trimLeadingSeparators (first :: t) with _ | ⟨c, tail⟩
  · exact absurd hbody hnil
  rw [hbody] at hsuffix hdrive hquery
  simp only [cons_append]
  split_ifs with hc
  · subst hc
    have hparts : AtSeparator tail → ¬DriveOnly (trimLeadingSeparators tail) ∧
        ¬UNCOnly (trimLeadingSeparators tail) :=
      fun hsep => ⟨fun h => hquery ⟨tail, rfl, hsep, .inr (.inl h)⟩, fun h => hquery ⟨tail, rfl, hsep, .inr (.inr h)⟩⟩
    have hne : trimLeadingSeparators tail ≠ [] := by
      intro hall
      refine hquery ⟨tail, rfl, fun s hs => ?_, .inl hall⟩
      exact dropWhile_eq_nil_iff.mp hall s (mem_of_head? hs)
    have hfrom : tail <:+ first :: t := (suffix_cons _ _).trans hsuffix
    obtain ⟨hcarry, hleft⟩ := scanExtendedLookalikeHead_carries hne hparts (hx.suffix hfrom)
    exact ⟨hcarry, fun r hr => ⟨(hleft r hr).1, (hleft r hr).2.trans hfrom⟩⟩
  · obtain ⟨hcarry, hleft⟩ := driveVolumeAt_carries (cons_ne_nil c tail) hdrive (hx.suffix hsuffix)
    rw [cons_append] at hcarry
    rw [hcarry]
    rcases hvolume : driveVolumeAt (c :: tail) with _ | ⟨drive, body⟩
    · simp
    · refine ⟨rfl, ?_⟩
      rintro _ ⟨⟩
      obtain ⟨hne, hfrom⟩ := hleft _ hvolume
      exact ⟨hne, hfrom.trans hsuffix⟩

lemma parseMarker_append (hl : l ≠ []) (hx : Bounded l x) :
    parseMarker base (l ++ x) = none ↔ parseMarker base l = none := by
  simp only [parseMarker, takeSegment_append hl hx]
  split_ifs <;> simp

lemma parseReservedAlias_append (h : Spelled root parsed)
    (hordinary : parseReservedAlias root = none)
    (hhead : ¬HeadOnly root) (hx : Bounded root x) : parseReservedAlias (root ++ x) = none := by
  have happend := (h.append hx).classifyPath
  have hroot := h.classifyPath
  simp only [parseReservedAlias, hroot, happend] at hordinary ⊢
  rcases hposition : parseAliasRootPosition parsed with _ | b
  swap
  · simp [hposition] at hordinary
  simp only [hposition] at hordinary
  have hsame : parseAliasRootPosition ⟨parsed.flavor, parsed.root, parsed.rest ++ x⟩ = none := by
    have hsegment (base : ReservedAlias) (hsuffix : parsed.rest <:+ root)
        (hbelow : trimLeadingSeparators parsed.rest = [] → HeadOnly root)
        (hnone : parseMarker base (trimLeadingSeparators parsed.rest) = none) :
        parseMarker base (trimLeadingSeparators (parsed.rest ++ x)) = none := by
      have hne := mt hbelow hhead
      rw [trimLeadingSeparators_append hne,
        parseMarker_append hne (hx.suffix ((trimLeadingSeparators_suffix _).trans hsuffix))]
      exact hnone
    have hsuffix : parsed.rest <:+ root := ⟨parsed.root, h.text.symm⟩
    cases h with
    | posix rest => exact hsegment _ hsuffix (fun hall => .inl hall) hposition
    | @drive letter sep hletter hsep rest =>
      refine hsegment _ hsuffix (fun hall => .inr (.inl ⟨letter, _, ?_, hletter, hall⟩)) hposition
      simp [trimLeadingSeparators, letter_not_separator hletter]
    | @extendedDrive letter sep hletter hsep rest =>
      refine hsegment _ hsuffix (fun hall => .inr (.inr ⟨_, rfl, by rintro _ ⟨⟩; rfl,
        .inr (.inl ⟨letter, _, ?_, hletter, hall⟩)⟩))
        hposition
      simp [trimLeadingSeparators, letter_not_separator hletter, show isSeparator backslash = true by decide]
    | unc | extendedUNC =>
      simp only [parseAliasRootPosition, parseVolumeReservedAlias] at hposition ⊢
      split_ifs at hposition ⊢
      rfl
  simp only [hsame]
  obtain ⟨hcarry, hleft⟩ := scanVolumeLookalikeHead_carries hhead hx
  simp only [parseVolumeLookalikeAlias, hcarry] at hordinary ⊢
  rcases hscan : scanVolumeLookalikeHead root with _ | ⟨base, body⟩
  · rfl
  · rw [hscan] at hordinary
    obtain ⟨hne, hfrom⟩ := hleft _ hscan
    exact (parseMarker_append hne (hx.suffix hfrom)).mpr hordinary

/-- After a root's last name come separators, some of them from the suffix, and then the name that
the suffix brings. -/
def Completes (root y name : GoStr) : Prop :=
  ∀ front last seps, root = front ++ last :: seps → isSeparator last = false →
    trimLeadingSeparators seps = [] →
    ∃ s t, seps ++ y = s :: t ∧ isSeparator s ∧ trimLeadingSeparators (s :: t) = name

lemma Completes.suffix (h : Completes root y name) (hsuffix : l <:+ root) : Completes l y name := by
  obtain ⟨more, rfl⟩ := hsuffix
  rintro front last seps rfl
  exact h (more ++ front) last seps (by simp)

lemma joinRootSuffix_name (flavor : PathFlavor) (root : GoStr)
    (hname : trimLeadingSeparators name = name) :
    ∃ y, joinRootSuffix flavor root (slash :: name) = root ++ y ∧ Bounded root y ∧
      trimLeadingSeparators y = name ∧ Completes root y name := by
  have hsep : isSeparator slash := by decide
  have hall {seps : GoStr} (h : trimLeadingSeparators seps = []) : ∀ c ∈ seps, isSeparator c :=
    dropWhile_eq_nil_iff.mp h
  rw [joinRootSuffix]
  split_ifs with hlast
  · obtain ⟨a, ha, hflavor⟩ : ∃ a, root.getLast? = some a ∧ isFlavorSeparator flavor a = true := by
      cases hget : root.getLast? with
      | none => simp [hget] at hlast
      | some a => exact ⟨a, rfl, by simpa [hget] using hlast⟩
    have hends : isSeparator a := isSeparator_of_flavor hflavor
    refine ⟨name, rfl, ?_, hname, fun front last seps hroot hend hseps => ?_⟩
    · intro a' ha' b _
      rw [ha] at ha'
      cases ha'
      exact .inl hends
    · rcases seps with _ | ⟨s, t⟩
      · rw [hroot, getLast?_concat] at ha
        cases ha
        rw [hend] at hends
        cases hends
      · refine ⟨s, t ++ name, rfl, hall hseps s (by simp), ?_⟩
        rw [← cons_append, trimLeadingSeparators_all hseps, hname]
  · refine ⟨slash :: name, rfl, fun _ _ _ hb => .inr (by cases hb; exact hsep), ?_, fun front last seps _ _ hseps => ?_⟩
    · exact hname
    have htrim : trimLeadingSeparators (seps ++ slash :: name) = name := by
      rw [trimLeadingSeparators_all hseps]
      exact hname
    rcases seps with _ | ⟨s, t⟩
    · exact ⟨slash, name, rfl, hsep, htrim⟩
    · exact ⟨s, t ++ slash :: name, rfl, hall hseps s (by simp), htrim⟩

lemma driveVolumeAt_only (h : DriveOnly body) (hy : Completes body y name) :
    ∃ drive, driveVolumeAt (body ++ y) = some (drive, name) := by
  obtain ⟨letter, seps, rfl, hletter, hseps⟩ := h
  obtain ⟨s, t, heq, hs, htrim⟩ := hy [letter] driveColon seps rfl (by decide) hseps
  simp [heq, driveVolumeAt, hletter, hs, htrim]

lemma scanExtendedLookalikeHead_only (hl : AtSeparator l)
    (hhead : DriveOnly (trimLeadingSeparators l) ∨ UNCOnly (trimLeadingSeparators l))
    (hy : Completes l y name) :
    ∃ base, scanExtendedLookalikeHead (l ++ y) = some (base, name) := by
  have hnil : trimLeadingSeparators l ≠ [] := by
    rcases hhead with ⟨_, _, heq, -⟩ | ⟨hmarker, -⟩
    · simp [heq]
    · intro hnil
      rw [hnil] at hmarker
      cases hmarker
  have hnext := hy.suffix (trimLeadingSeparators_suffix l)
  have happ := trimLeadingSeparators_append hnil y
  obtain ⟨s, t, rfl⟩ := exists_cons_of_ne_nil (show l ≠ [] by rintro rfl; exact hnil rfl)
  have hs := hl s rfl
  rw [cons_append] at happ ⊢
  rcases hhead with hdrive | ⟨hmarker, hseps⟩
  · obtain ⟨drive, hvolume⟩ := driveVolumeAt_only hdrive hnext
    exact ⟨{ flavor := .windowsExtendedDrive, drive }, by simp [scanExtendedLookalikeHead, hs, happ, hvolume]⟩
  rcases hname : trimLeadingSeparators (s :: t) with _ | ⟨u, _ | ⟨n, _ | ⟨c, seps⟩⟩⟩ <;>
    rw [hname] at hmarker hseps happ hnext <;> simp [hasPrefixFoldASCII, uncMarker] at hmarker
  obtain ⟨hu, hn, hc⟩ := hmarker
  have hcolon : n ≠ driveColon := by
    rintro rfl
    exact absurd hn (by decide)
  obtain ⟨s', t', heq, hs', htrim⟩ :=
    hnext [u, n] c seps rfl (marker_not_separator (.inr (.inr hc))) hseps
  have hmark : hasPrefixFoldASCII (u :: n :: c :: s' :: t') uncMarker := by
    simp [hasPrefixFoldASCII, uncMarker, hu, hn, hc]
  have hdrive : driveVolumeAt (u :: n :: c :: s' :: t') = none := by simp [driveVolumeAt, hcolon]
  have happ' : trimLeadingSeparators (s :: (t ++ y)) = u :: n :: c :: s' :: t' := by
    rw [happ, ← heq]
    rfl
  simp only [scanExtendedLookalikeHead, hs, happ', hdrive, hmark]
  simp [uncMarker, hs', htrim]

@[simp] def completion (root : GoStr) : GoStr :=
  match trimLeadingSeparators root with
  | c :: tail =>
    if c = extendedQuery ∧ trimLeadingSeparators tail = [] then lit "C:/" ++ reservedNamespaceV1
    else reservedNamespaceV1
  | [] => reservedNamespaceV1

lemma Spelled.first (h : Spelled root parsed) : (∃ first t, root = first :: t ∧ isSeparator first) ∨
    ∃ letter t, root = letter :: driveColon :: t ∧
      parsed = ⟨.windowsDrive, [letter, driveColon], t⟩ ∧ isASCIILetter letter := by
  cases h with
  | posix => exact .inl ⟨_, _, rfl, rfl⟩
  | drive hletter => exact .inr ⟨_, _, rfl, rfl, hletter⟩
  | unc => exact .inl ⟨_, _, rfl, rfl⟩
  | extendedDrive | extendedUNC => exact .inl ⟨backslash, _, rfl, rfl⟩

lemma headOnly_scan {first : UInt8} {t : GoStr} (hsep : isSeparator first)
    (hnil : trimLeadingSeparators (first :: t) ≠ []) (hhead : HeadOnly (first :: t))
    (hy : Completes (first :: t) y (completion (first :: t))) :
    ∃ base, scanVolumeLookalikeHead (first :: t ++ y) = some (base, reservedNamespaceV1) := by
  have htext := trimLeadingSeparators_append hnil y
  have hsuffix := trimLeadingSeparators_suffix (first :: t)
  rcases hhead with hall | hdrive | ⟨tail, hquery, htail, hhead⟩
  · exact absurd hall hnil
  · obtain ⟨letter, seps, hbody, hletter, -⟩ := id hdrive
    have hnot := letter_ne_query hletter
    rw [show completion (first :: t) = reservedNamespaceV1 by simp [hbody, hnot]] at hy
    obtain ⟨drive, hvolume⟩ := driveVolumeAt_only hdrive (hy.suffix hsuffix)
    rw [hbody, cons_append] at htext
    rw [hbody] at hvolume
    refine ⟨{ flavor := .windowsDrive, drive }, ?_⟩
    simp only [scanVolumeLookalikeHead, cons_append, hsep, Bool.true_eq_false, if_false, htext, hnot] at hvolume ⊢
    rw [hvolume]
  · rw [hquery, cons_append] at htext
    have hscan :
        ∃ base, scanExtendedLookalikeHead (tail ++ y) = some (base, reservedNamespaceV1) := by
      by_cases hall : trimLeadingSeparators tail = []
      · rw [show completion (first :: t) = lit "C:/" ++ reservedNamespaceV1 by simp [hquery, hall]] at hy
        obtain ⟨s, t', heq, hs, htrim⟩ :=
          hy.suffix hsuffix [] extendedQuery tail hquery (by decide) hall
        refine ⟨{ flavor := .windowsExtendedDrive, drive := 0x43 }, ?_⟩
        simp only [scanExtendedLookalikeHead, heq, hs, htrim]
        rfl
      · rw [show completion (first :: t) = reservedNamespaceV1 by simp [hquery, hall]] at hy
        exact scanExtendedLookalikeHead_only htail (hhead.resolve_left hall)
          (hy.suffix ((suffix_cons _ _).trans (hquery ▸ hsuffix)))
    obtain ⟨base, hscan⟩ := hscan
    exact ⟨base, by simp [scanVolumeLookalikeHead, hsep, htext, hscan]⟩

lemma headOnly_reserved (h : Spelled root parsed) (hhead : HeadOnly root) (hmeet : Bounded root y)
    (htrim : trimLeadingSeparators y = completion root) (hy : Completes root y (completion root)) :
    parseReservedAlias (root ++ y) ≠ none := by
  have hmarker (base : ReservedAlias) : parseMarker base reservedNamespaceV1 ≠ none := by
    simp [parseMarker, show takeSegment reservedNamespaceV1 = (reservedNamespaceV1, []) by rfl, segmentEqual_refl]
  have hposition (hread : parseAliasRootPosition ⟨parsed.flavor, parsed.root, parsed.rest ++ y⟩ ≠ none) :
      parseReservedAlias (root ++ y) ≠ none := by
    obtain ⟨a, ha⟩ := Option.ne_none_iff_exists'.mp hread
    simp [parseReservedAlias, (h.append hmeet).classifyPath, ha]
  by_cases hall : trimLeadingSeparators root = []
  · -- Nothing but separators: only a POSIX root is absolute then.
    have hmem : ∀ c ∈ root, isSeparator c := dropWhile_eq_nil_iff.mp hall
    cases h with
    | posix rest =>
      refine hposition ?_
      have hbody : trimLeadingSeparators (rest ++ y) = reservedNamespaceV1 := by
        rw [trimLeadingSeparators_all (show trimLeadingSeparators rest = [] from hall), htrim]
        simp [hall]
      simp only [parseAliasRootPosition, parseSegmentReservedAlias, hbody]
      exact hmarker _
    | drive hletter => simp [letter_not_separator hletter] at hmem
    | unc hvolume =>
      obtain ⟨server, _, _, rfl, rfl, hne, _, hfree, _⟩ := uncVolume_eq_some hvolume
      obtain ⟨c, hc⟩ := exists_mem_of_ne_nil _ hne
      have hsep := hmem c (by simp [hc])
      rw [hfree c hc] at hsep
      cases hsep
    | extendedDrive | extendedUNC => exact absurd (hmem extendedQuery (by simp)) (by decide)
  · rcases h.first with ⟨first, t, rfl, hsep⟩ | ⟨letter, t, rfl, rfl, hletter⟩
    · obtain ⟨base, hscan⟩ := headOnly_scan hsep hall hhead hy
      simp only [parseReservedAlias, (h.append hmeet).classifyPath, parseVolumeLookalikeAlias, hscan]
      cases parseAliasRootPosition ⟨parsed.flavor, parsed.root, parsed.rest ++ y⟩ with
      | none => exact hmarker base
      | some a => simp
    · refine hposition ?_
      have hnot := letter_ne_query hletter
      have hself :
          trimLeadingSeparators (letter :: driveColon :: t) = letter :: driveColon :: t := by
        rw [trimLeadingSeparators, dropWhile_cons_of_neg (by simp [letter_not_separator hletter])]
      rw [show completion (letter :: driveColon :: t) = reservedNamespaceV1 by simp [hself, hnot]] at hy
      rw [HeadOnly, hself] at hhead
      rcases hhead with hnil | ⟨_, seps, heq, -, hseps⟩ | ⟨_, heq, -⟩
      · cases hnil
      · cases heq
        obtain ⟨s, t', heq, -, htrim'⟩ := hy [letter] driveColon t rfl (by decide) hseps
        simp only [parseAliasRootPosition, parseSegmentReservedAlias, heq, htrim']
        exact hmarker _
      · cases heq
        exact absurd rfl hnot

def Usable (r : GoStr × ExpandResult) : Prop := r.2 = .expanded ∨ r.2 = .notApplicable

/-- No usable expansion is a reserved alias again, exactly when the root is not a bare head. -/
theorem expanded_not_reserved_iff (hm : deriveMapping sha256 root = .ok m) :
    (∀ path, Usable (m.expandPath path) → parseReservedAlias (m.expandPath path).1 = none) ↔
      m.virtualRoot = [] ∨ ¬HeadOnly root := by
  obtain ⟨parsed, hderived⟩ := deriveMapping_ok hm
  constructor
  · intro hsafe
    by_contra hleak
    rw [not_or, not_not] at hleak
    have hname : trimLeadingSeparators (completion root) = completion root := by
      unfold completion
      split
      · split_ifs <;> rfl
      · rfl
    obtain ⟨y, hjoin, hmeet, htrim, hy⟩ := joinRootSuffix_name m.flavor root hname
    have hat : AtSeparator (slash :: completion root) := atSeparator_cons rfl
    have hexpand := hderived.expandPath_minted hleak.1 hat
    rw [hderived.realRoot, hjoin] at hexpand
    have hnone := hsafe (m.virtualRoot.dropLast ++ slash :: completion root)
      (.inl (by rw [hexpand]))
    rw [hexpand] at hnone
    exact headOnly_reserved hderived.spelled hleak.2 hmeet htrim hy hnone
  · intro hcase path husable
    have hjoin {suffix : GoStr} (hactive : m.virtualRoot ≠ []) (hsep : AtSeparator suffix) :
        parseReservedAlias (joinRootSuffix m.flavor m.realRoot suffix) = none := by
      have hhead := hcase.resolve_left hactive
      rw [hderived.realRoot]
      rcases suffix with _ | ⟨s, tail⟩
      · exact hderived.ordinary
      rw [joinRootSuffix]
      split_ifs with hlast
      · refine parseReservedAlias_append hderived.spelled hderived.ordinary hhead fun a ha _ _ => .inl ?_
        rw [Option.mem_def.mp ha] at hlast
        exact isSeparator_of_flavor hlast
      · exact parseReservedAlias_append hderived.spelled hderived.ordinary hhead (hsep.bounded _)
    unfold Mapping.expandPath at husable ⊢
    rcases hparse : parseReservedAlias path with _ | a
    · split_ifs with hactive
      · exact hparse
      · rcases hstrip : stripRootPrefix path m.flavor (matchableRoot m.virtualRoot) with _ | suffix
        · exact hparse
        · obtain ⟨-, -, -, hsuffix⟩ := stripRootPrefix_eq_some hstrip
          exact hjoin hactive fun s hs => isSeparator_of_flavor (hsuffix s hs)
    · simp only [hparse, Mapping.expandReservedAlias] at husable ⊢
      split_ifs at husable ⊢ with hmalformed hother
      · simp [Usable] at husable
      · simp [Usable] at husable
      · refine hjoin ?_ (parseReservedAlias_rest hparse)
        simp only [Bool.not_eq_false, Mapping.names, Bool.and_eq_true, decide_eq_true_eq] at hother
        exact hother.1.2

theorem expanded_not_reserved_of_workspace :
    deriveMapping (fun _ _ => 0) workspaceRoot = .ok workspaceMapping ∧
      ∀ path, Usable (workspaceMapping.expandPath path) →
        parseReservedAlias (workspaceMapping.expandPath path).1 = none := by
  refine ⟨?derives, (expanded_not_reserved_iff ?derives).mpr (.inr ?_)⟩
  · decide +kernel
  rintro (h | ⟨letter, seps, h, -⟩ | ⟨tail, h, -⟩)
  · exact absurd h (by decide +kernel)
  · exact absurd (congrArg (fun s : GoStr => s[1]?) h) (by simp; decide +kernel)
  · exact absurd (congrArg head? h) (by simp; decide +kernel)

def driveHeadRoot : GoStr := replicate 40 slash ++ lit "C:"

def driveHeadMapping : Mapping := { workspaceMapping with realRoot := driveHeadRoot }

theorem drive_head_leaks_alias :
    deriveMapping (fun _ _ => 0) driveHeadRoot = .ok driveHeadMapping ∧
      driveHeadMapping.expandPath (lit "/.__lip_v1__/w_aaaaaaaaaaaaaaaaaaaa/.__lip_v1__/x") =
        (driveHeadRoot ++ lit "/.__lip_v1__/x", .expanded) ∧
      parseReservedAlias (driveHeadRoot ++ lit "/.__lip_v1__/x") =
      some { flavor := .windowsDrive, drive := 0x43 } := by
  decide +kernel

end InteractiveProxy.PathVirtualization
