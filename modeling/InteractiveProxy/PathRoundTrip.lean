import InteractiveProxy.PathMapping
import Mathlib.Data.Fintype.Pi
import Mathlib.Data.List.Forall2

/-! Virtual paths are shorter than the paths they stand for, and expand to them: what a segment, a
run of separators and a classified volume become when text is put after them at a segment boundary.
-/
namespace InteractiveProxy.PathVirtualization

open GoText List

variable {l x tail volume rest body : GoStr} {s : UInt8} {parsed : ParsedPath}

/-- The text is empty or starts with a separator, so that it can stand behind a whole segment. -/
def AtSeparator (x : GoStr) : Prop := ∀ s ∈ x.head?, isSeparator s = true

def Bounded (l x : GoStr) : Prop :=
  ∀ a ∈ l.getLast?, ∀ b ∈ x.head?, isSeparator a ∨ isSeparator b

lemma AtSeparator.bounded (h : AtSeparator x) (l : GoStr) : Bounded l x :=
  fun _ _ b hb => .inr (h b hb)

lemma Bounded.suffix {l' : GoStr} (h : Bounded l x) (hsuffix : l' <:+ l) : Bounded l' x := by
  obtain ⟨front, rfl⟩ := hsuffix
  intro a ha b hb
  refine h a ?_ b hb
  rw [getLast?_append, Option.mem_def.mp ha]
  rfl

lemma takeSegment_append_sep (hl : ∀ c ∈ l, isSeparator c = false) (hx : AtSeparator x) :
    takeSegment (l ++ x) = (l, x) := by
  have hfree : ∀ c ∈ l, (!isSeparator c) := fun c hc => by rw [hl c hc]; rfl
  rw [takeSegment, takeWhile_append_of_pos hfree, dropWhile_append_of_pos hfree]
  cases x with
  | nil => simp
  | cons s x => simp [hx s rfl]

lemma takeSegment_eq (l : GoStr) : (takeSegment l).1 ++ (takeSegment l).2 = l :=
  takeWhile_append_dropWhile

lemma takeSegment_free (l : GoStr) : ∀ c ∈ (takeSegment l).1, isSeparator c = false := by
  intro c hc
  simpa using mem_takeWhile_imp hc

lemma takeSegment_rest (l : GoStr) : AtSeparator (takeSegment l).2 := by
  intro s hs
  have hhead := head?_dropWhile_not (fun c => !isSeparator c) l
  rw [show (l.dropWhile fun c => !isSeparator c).head? = some s from hs] at hhead
  simpa using hhead

lemma takeSegment_append (hl : l ≠ []) (h : Bounded l x) :
    takeSegment (l ++ x) = ((takeSegment l).1, (takeSegment l).2 ++ x) := by
  have hsplit :
    l ++ x = (takeSegment l).1 ++ ((takeSegment l).2 ++ x) := by rw [← append_assoc, takeSegment_eq]
  rw [hsplit]
  refine takeSegment_append_sep (takeSegment_free l) ?_
  rcases hrest : (takeSegment l).2 with _ | ⟨s, rest⟩
  · -- No separator in `l`, so the boundary is in front of `x`.
    intro b hb
    have hwhole : (takeSegment l).1 = l := by simpa [hrest] using takeSegment_eq l
    have hlast : l.getLast hl ∈ (takeSegment l).1 := by rw [hwhole]; exact getLast_mem hl
    refine (h _ (getLast?_eq_getLast_of_ne_nil hl) b hb).resolve_left ?_
    simp [takeSegment_free l _ hlast]
  · rintro _ ⟨⟩
    exact takeSegment_rest l s (by rw [hrest]; rfl)

lemma trimLeadingSeparators_append (h : trimLeadingSeparators l ≠ []) (x : GoStr) :
    trimLeadingSeparators (l ++ x) = trimLeadingSeparators l ++ x := by
  unfold trimLeadingSeparators at *
  rw [List.dropWhile_append, if_neg (by simpa using h)]

lemma trimLeadingSeparators_all (h : trimLeadingSeparators l = []) (x : GoStr) :
    trimLeadingSeparators (l ++ x) = trimLeadingSeparators x := by
  unfold trimLeadingSeparators at *
  rw [List.dropWhile_append, h]
  rfl

lemma trimLeadingSeparators_suffix (l : GoStr) : trimLeadingSeparators l <:+ l :=
  dropWhile_suffix _

lemma uncVolume_eq_some (h : uncVolume body = some (volume, rest)) :
    ∃ server sep name, volume = server ++ sep :: name ∧ body = volume ++ rest ∧ server ≠ [] ∧
      name ≠ [] ∧ (∀ c ∈ server, isSeparator c = false) ∧ isSeparator sep ∧
      (∀ c ∈ name, isSeparator c = false) ∧ AtSeparator rest := by
  unfold uncVolume at h
  have hbody := takeSegment_eq body
  have hserver := takeSegment_free body
  have hsep := takeSegment_rest body
  rcases hcut : takeSegment body with ⟨server, _ | ⟨sep, share⟩⟩
  · simp [hcut] at h
  simp only [hcut, Option.ite_none_left_eq_some, not_or] at h
  obtain ⟨⟨hne, hname⟩, rfl, rfl⟩ := h
  rw [hcut] at hbody hserver hsep
  exact ⟨server, sep, _, rfl, by rw [← hbody, append_assoc, cons_append, takeSegment_eq], hne,
    hname, hserver, hsep sep rfl, takeSegment_free share, takeSegment_rest share⟩

lemma uncVolume_of {server name : GoStr} {sep : UInt8}
    (hserver : ∀ c ∈ server, isSeparator c = false)
    (hne : server ≠ []) (hsep : isSeparator sep) (hname : ∀ c ∈ name, isSeparator c = false)
    (hne' : name ≠ [])
    (hrest : AtSeparator rest) :
    uncVolume (server ++ sep :: (name ++ rest)) = some (server ++ sep :: name, rest) := by
  rw [uncVolume, takeSegment_append_sep hserver (by rintro s ⟨⟩; exact hsep)]
  simp [takeSegment_append_sep hname hrest, hne, hne']

lemma uncVolume_append (h : uncVolume body = some (volume, rest)) (hx : Bounded body x) :
    uncVolume (body ++ x) = some (volume, rest ++ x) := by
  obtain ⟨server, sep, name, rfl, rfl, hne, hname, hserver, hsep, hfree, hrest⟩ :=
    uncVolume_eq_some h
  rw [show server ++ sep :: name ++ rest ++ x = server ++ sep :: (name ++ (rest ++ x)) by simp]
  refine uncVolume_of hserver hne hsep hfree hname ?_
  have hmeet : Bounded (name ++ rest) x := hx.suffix ⟨server ++ [sep], by simp⟩
  have hcut := takeSegment_append (by simp [hname]) hmeet
  rw [takeSegment_append_sep hfree hrest, append_assoc] at hcut
  have := takeSegment_rest (name ++ (rest ++ x))
  rwa [hcut] at this

/-- The paths that `classifyPath` accepts, with what it makes of them. -/
inductive Spelled : GoStr → ParsedPath → Prop
  | posix (rest : GoStr) : Spelled (slash :: rest) ⟨.posix, [slash], rest⟩
  | drive {letter sep : UInt8} (hletter : isASCIILetter letter)
      (hsep : isSeparator sep) (rest : GoStr) :
      Spelled (letter :: driveColon :: sep :: rest)
        ⟨.windowsDrive, [letter, driveColon], sep :: rest⟩
  | unc {body volume rest : GoStr} (hvolume : uncVolume body = some (volume, rest))
      (hextended : ¬[extendedQuery, backslash] <+: body) (hdevice : ¬[0x2E, backslash] <+: body) :
      Spelled (backslash :: backslash :: body) ⟨.windowsUNC, uncAnchor ++ volume, rest⟩
  | extendedDrive {letter sep : UInt8} (hletter : isASCIILetter letter)
      (hsep : isSeparator sep) (rest : GoStr) :
      Spelled (extendedAnchor ++ letter :: driveColon :: sep :: rest)
        ⟨.windowsExtendedDrive, extendedAnchor ++ [letter, driveColon], sep :: rest⟩
  | extendedUNC {u n c sep : UInt8} {body volume rest : GoStr}
      (hmarker : [u, n, c].map lowerByte = uncMarker.map lowerByte)
      (hsep : isSeparator sep) (hvolume : uncVolume body = some (volume, rest)) :
      Spelled (extendedAnchor ++ u :: n :: c :: sep :: body)
        ⟨.windowsExtendedUNC, extendedAnchor ++ [u, n, c] ++ sep :: volume, rest⟩

lemma classifyExtendedPath_ok (h : classifyExtendedPath body = .ok parsed) :
    Spelled (extendedAnchor ++ body) parsed := by
  unfold classifyExtendedPath at h
  split_ifs at h with hnil hunc
  · rcases hdrop : body.drop uncMarker.length with _ | ⟨sep, tail⟩
    · simp [hdrop] at h
    simp only [hdrop] at h
    split_ifs at h with hsep
    rcases hvolume : uncVolume tail with _ | ⟨volume, rest⟩
    · simp [hvolume] at h
    simp only [hvolume] at h
    cases h
    rcases body with _ | ⟨u, _ | ⟨n, _ | ⟨c, body⟩⟩⟩ <;> simp [uncMarker] at hdrop
    subst hdrop
    exact .extendedUNC (by simpa [hasPrefixFoldASCII, uncMarker] using hunc)
      (by simpa using hsep) hvolume
  · rcases body with _ | ⟨letter, _ | ⟨colon, _ | ⟨sep, rest⟩⟩⟩ <;> simp only [reduceCtorEq] at h
    · split_ifs at h
    split_ifs at h with hletter hsep
    cases h
    rw [not_or, not_not] at hletter
    obtain ⟨hletter, rfl⟩ := hletter
    exact .extendedDrive (by simpa using hletter) (by simpa using hsep) rest

variable {path : GoStr} {c : UInt8}

lemma classifyPath_ok (h : classifyPath path = .ok parsed) : Spelled path parsed := by
  rcases path with _ | ⟨first, tail⟩
  · cases h
  unfold classifyPath at h
  dsimp only at h
  split_ifs at h with hslash hback
  · cases h
    subst hslash
    exact .posix tail
  · subst hback
    rcases tail with _ | ⟨second, body⟩
    · cases h
    unfold classifyWindowsPath at h
    dsimp only at h
    split_ifs at h with hsecond hextended hdevice
    · rw [not_not] at hsecond
      subst hsecond
      obtain ⟨rest, rfl⟩ := isPrefixOf_iff_prefix.mp hextended
      exact classifyExtendedPath_ok (by simpa using h)
    · rw [not_not] at hsecond
      subst hsecond
      rcases hvolume : uncVolume body with _ | ⟨volume, rest⟩
      · simp [hvolume] at h
      simp only [hvolume] at h
      cases h
      rw [not_or] at hdevice
      exact .unc hvolume (mt isPrefixOf_iff_prefix.mpr hextended)
        (mt isPrefixOf_iff_prefix.mpr hdevice.2)
  · rcases tail with _ | ⟨colon, _ | ⟨sep, rest⟩⟩ <;> simp only [reduceCtorEq] at h
    · split_ifs at h
    split_ifs at h with hletter hsep
    cases h
    rw [not_or, not_not] at hletter
    obtain ⟨hletter, rfl⟩ := hletter
    exact .drive (by simpa using hletter) (by simpa using hsep) rest

lemma not_separator_of_letter (h : isASCIILetter c) : c ≠ slash ∧ c ≠ backslash := by
  constructor <;> rintro rfl <;> exact absurd h (by decide)

lemma Spelled.classifyPath (h : Spelled path parsed) : classifyPath path = .ok parsed := by
  cases h with
  | posix rest => rfl
  | drive hletter hsep rest =>
    simp [classifyPath, not_separator_of_letter hletter, hletter, hsep]
  | @unc body volume rest hvolume hextended hdevice =>
    obtain ⟨server, sep, name, rfl, rfl, hne, -⟩ := uncVolume_eq_some hvolume
    have hlong : server ++ sep :: name ++ rest ≠ [0x2E] := by
      intro hone
      have := congrArg length hone
      have := length_pos_iff.mpr hne
      simp only [length_append, length_cons, length_nil] at *
      omega
    rw [← isPrefixOf_iff_prefix] at hextended hdevice
    simp only [classifyPath, classifyWindowsPath, show backslash ≠ slash by decide, if_false,
      if_true, ne_eq, not_true, hextended, hlong, hdevice, hvolume, Bool.false_eq_true, or_self]
  | @extendedDrive letter sep hletter hsep rest =>
    have hmarker : hasPrefixFoldASCII (letter :: driveColon :: sep :: rest) uncMarker = false := by
      simp [hasPrefixFoldASCII, uncMarker, show lowerByte driveColon ≠ lowerByte 0x4E by decide]
    simp [classifyPath, show backslash ≠ slash by decide, hmarker, hletter, hsep]
  | @extendedUNC u n c sep body volume rest hmarker hsep hvolume =>
    have hmarker' : hasPrefixFoldASCII (u :: n :: c :: sep :: body) uncMarker := by
      simpa [hasPrefixFoldASCII, uncMarker] using hmarker
    simp [classifyPath, show backslash ≠ slash by decide, hmarker', hsep, hvolume, show uncMarker.length = 3 from rfl]

lemma Spelled.text (h : Spelled path parsed) : path = parsed.root ++ parsed.rest := by
  cases h with
  | posix | drive | extendedDrive => simp
  | unc hvolume | extendedUNC _ _ hvolume =>
    obtain ⟨_, _, _, rfl, rfl, -⟩ := uncVolume_eq_some hvolume
    simp [uncAnchor]

lemma Spelled.append {flavor : PathFlavor} (h : Spelled path ⟨flavor, volume, rest⟩)
    (hx : Bounded path x) : Spelled (path ++ x) ⟨flavor, volume, rest ++ x⟩ := by
  cases h with
  | posix => exact .posix _
  | drive hletter hsep => exact .drive hletter hsep _
  | @unc body volume _ hvolume hextended hdevice =>
    have hlong : 2 ≤ body.length := by
      obtain ⟨_, _, _, rfl, rfl, hne, -⟩ := uncVolume_eq_some hvolume
      have := length_pos_iff.mpr hne
      simp only [length_append, length_cons]
      omega
    have hfront (a b : UInt8) (h : [a, b] <+: body ++ x) : [a, b] <+: body :=
      prefix_of_prefix_length_le h (prefix_append _ _) hlong
    exact .unc (uncVolume_append hvolume (hx.suffix (suffix_append [_, _] body)))
      (mt (hfront _ _) hextended) (mt (hfront _ _) hdevice)
  | extendedDrive hletter hsep =>
    exact .extendedDrive hletter hsep _
  | extendedUNC hmarker hsep hvolume =>
    exact .extendedUNC hmarker hsep
      (uncVolume_append hvolume (hx.suffix (suffix_append (extendedAnchor ++ [_, _, _, _]) _)))

variable {sha256 : GoStr → Fin 32 → UInt8} {root tag : GoStr} {m : Mapping} {flavor : PathFlavor}

structure TagText (tag : GoStr) : Prop where
  length : tag.length = workspaceTagChars
  chars : ∀ c ∈ tag, isTagChar .posix c

lemma base32_digits (bits : List Bool) : ∃ n < 5, ∃ ds : List (Fin 5 → Bool),
    bits ++ replicate n false = ds.flatMap ofFn ∧
    base32 bits = ds.map fun d => base32Digit (ofFn d) := by
  fun_induction base32 bits with
  | case1 a b c d e rest ih =>
    obtain ⟨n, hn, ds, hbits, hdigits⟩ := ih
    exact ⟨n, hn, [a, b, c, d, e].get :: ds, congrArg ([a, b, c, d, e] ++ ·) hbits, congrArg (_ :: ·) hdigits⟩
  | case2 => exact ⟨0, by decide, [], rfl, rfl⟩
  | case3 short hshort hne =>
    rcases short with _ | ⟨a, _ | ⟨b, _ | ⟨c, _ | ⟨d, _ | ⟨e, rest⟩⟩⟩⟩⟩
    · exact absurd rfl hne
    · exact ⟨4, by decide, [[a, false, false, false, false].get], rfl, rfl⟩
    · exact ⟨3, by decide, [[a, b, false, false, false].get], rfl, rfl⟩
    · exact ⟨2, by decide, [[a, b, c, false, false].get], rfl, rfl⟩
    · exact ⟨1, by decide, [[a, b, c, d, false].get], rfl, rfl⟩
    · exact absurd rfl (hshort a b c d e rest)

lemma base32_length (bits : List Bool) : (base32 bits).length = (bits.length + 4) / 5 := by
  obtain ⟨n, hn, ds, hbits, hdigits⟩ := base32_digits bits
  have hlength := congrArg length hbits
  rw [hdigits, length_map]
  simp only [length_append, length_replicate, length_flatMap, length_ofFn, map_const', sum_replicate_nat] at hlength
  omega

lemma base32_chars (bits : List Bool) : ∀ c ∈ base32 bits, isTagChar .posix (lowerByte c) := by
  obtain ⟨n, hn, ds, -, hdigits⟩ := base32_digits bits
  rw [hdigits, forall_mem_map]
  exact fun d _ => (by decide : ∀ d : Fin 5 → Bool, isTagChar .posix (lowerByte (base32Digit (ofFn d))) = true) d

lemma workspaceTag_text (flavor : PathFlavor) (identity : GoStr) :
    TagText (workspaceTag sha256 flavor identity) := by
  constructor
  · simp [workspaceTag, base32_length, bitsOf, workspaceTagChars]
  · intro c hc
    obtain ⟨d, hd, rfl⟩ := mem_map.mp hc
    exact base32_chars _ d hd

lemma isTagChar_of_posix (h : isTagChar .posix c) (flavor : PathFlavor) :
    isTagChar flavor c ∧ isSeparator c = false := by
  have hnot : ∀ c, isTagChar .posix c → isSeparator c = false := byte_forall (by decide +kernel)
  refine ⟨?_, hnot c h⟩
  unfold isTagChar at h ⊢
  split_ifs at h ⊢
  · rfl
  · rfl
  · simp at h

def ByteEqual (flavor : PathFlavor) (g w : UInt8) : Prop :=
  if flavor = .posix then g = w else equalWindowsByte w g = true

lemma segmentEqual_iff {got want : GoStr} :
    segmentEqual flavor got want ↔ List.Forall₂ (ByteEqual flavor) got want := by
  unfold segmentEqual
  by_cases hflavor : flavor = .posix
  · have hrel : ByteEqual flavor = Eq := by funext g w; simp [ByteEqual, hflavor]
    rw [hrel, forall₂_eq_eq_eq]
    by_cases hlength : got.length = want.length
    · simp [hflavor, hlength]
    · simp only [ne_eq, hlength, not_false_iff, if_true, Bool.false_eq_true, false_iff]
      exact fun heq => hlength (heq ▸ rfl)
  · have hrel : ByteEqual flavor = flip fun w g => equalWindowsByte w g = true := by
      funext g w
      simp [ByteEqual, hflavor, flip]
    rw [hrel, show List.Forall₂ (flip fun w g => equalWindowsByte w g = true) got want ↔
      List.Forall₂ (fun w g => equalWindowsByte w g = true) want got from ⟨.flip, .flip⟩,
      forall₂_iff_zip]
    by_cases hlength : got.length = want.length
    · simp [hflavor, hlength]
    · simp [hlength, Ne.symm hlength]

lemma ByteEqual.refl (c : UInt8) : ByteEqual flavor c c := by
  simp [ByteEqual, equalWindowsByte]

lemma segmentEqual_refl (flavor : PathFlavor) (s : GoStr) : segmentEqual flavor s s :=
  segmentEqual_iff.mpr (forall₂_same.mpr fun c _ => .refl c)

lemma reservedWorkspaceTag_of (htag : TagText tag) :
    reservedWorkspaceTag flavor (tagPrefix ++ tag) = some tag := by
  have hall : tag.all (isTagChar flavor) :=
    all_eq_true.mpr fun c hc => (isTagChar_of_posix (htag.chars c hc) flavor).1
  simp [reservedWorkspaceTag, htag.length, segmentEqual_refl, hall]

lemma tagSegment_free (htag : TagText tag) : ∀ c ∈ tagPrefix ++ tag, isSeparator c = false := by
  intro c hc
  rcases mem_append.mp hc with hc | hc
  · exact (by decide +kernel : ∀ c ∈ tagPrefix, isSeparator c = false) c hc
  · exact (isTagChar_of_posix (htag.chars c hc) .posix).2

lemma marker_free : ∀ c ∈ reservedNamespaceV1, isSeparator c = false := by decide +kernel

variable {sep : UInt8}

lemma parseMarker_of (base : ReservedAlias) (htag : TagText tag) (hsep : isSeparator sep)
    (hx : AtSeparator x) :
    parseMarker base (reservedNamespaceV1 ++ sep :: (tagPrefix ++ tag ++ x)) =
      some { base with tag, rest := x, wellFormed := true } := by
  have hskip : trimLeadingSeparators (sep :: (tagPrefix ++ tag ++ x)) = tagPrefix ++ tag ++ x := by
    simp [trimLeadingSeparators, hsep, tagPrefix, show isSeparator 0x77 = false by decide]
  rw [parseMarker, takeSegment_append_sep marker_free (by rintro s ⟨⟩; exact hsep), segmentEqual_refl]
  simp only [hskip, takeSegment_append_sep (tagSegment_free htag) hx, parseAliasTag,
    reservedWorkspaceTag_of htag, Bool.true_eq_false, if_false]

lemma upper_letter (c : UInt8) : isASCIILetter c →
    isASCIILetter (toUpperASCII c) ∧ toUpperASCII (toUpperASCII c) = toUpperASCII c := by
  revert c
  exact byte_forall (by decide +kernel)

lemma dropLast_aliasSegments (tag x front : GoStr) (sep : UInt8) :
    (front ++ aliasSegments sep tag).dropLast ++ x =
    front ++ (reservedNamespaceV1 ++ sep :: (tagPrefix ++ tag ++ x)) := by
  rw [aliasSegments, ← append_assoc, dropLast_concat]
  simp

lemma parseReservedAlias_segment (h : Spelled path ⟨flavor, volume, rest⟩)
    (hflavor : flavor ≠ .windowsUNC ∧ flavor ≠ .windowsExtendedUNC) (htag : TagText tag)
    (hsep : isSeparator sep)
    (hx : AtSeparator x)
    (hrest : trimLeadingSeparators rest = reservedNamespaceV1 ++ sep :: (tagPrefix ++ tag ++ x)) :
    parseReservedAlias path = some ⟨flavor, aliasDrive flavor volume, tag, x, true⟩ := by
  have hposition : parseAliasRootPosition ⟨flavor, volume, rest⟩ =
      some ⟨flavor, aliasDrive flavor volume, tag, x, true⟩ := by
    rw [← parseMarker_of ⟨flavor, aliasDrive flavor volume, [], [], false⟩ htag hsep hx, ← hrest]
    cases flavor <;> first | rfl | simp at hflavor
  simp only [parseReservedAlias, h.classifyPath, hposition]

lemma parseReservedAlias_volume (h : Spelled path ⟨flavor, volume, x⟩)
    (hflavor : flavor = .windowsUNC ∨ flavor = .windowsExtendedUNC) (htag : TagText tag)
    (hbody : validatedUNCBody flavor volume = reservedNamespaceV1 ++ backslash :: (tagPrefix ++ tag)) :
    parseReservedAlias path = some ⟨flavor, 0, tag, x, true⟩ := by
  have hback : isSeparator backslash := by decide
  have hshare : (takeSegment (trimLeadingSeparators (backslash :: (tagPrefix ++ tag)))).1 =
      tagPrefix ++ tag := by
    have hskip : trimLeadingSeparators (backslash :: (tagPrefix ++ tag)) = tagPrefix ++ tag := by
      simp [trimLeadingSeparators, hback, tagPrefix, show isSeparator 0x77 = false by decide]
    have hcut := takeSegment_append_sep (x := []) (tagSegment_free htag) (by simp [AtSeparator])
    rw [append_nil] at hcut
    rw [hskip, hcut]
  have hposition : parseAliasRootPosition ⟨flavor, volume, x⟩ = some ⟨flavor, 0, tag, x, true⟩ := by
    have hread : parseVolumeReservedAlias ⟨flavor, 0, [], [], false⟩ ⟨flavor, volume, x⟩ =
        some ⟨flavor, 0, tag, x, true⟩ := by
      simp [parseVolumeReservedAlias, hbody,
        takeSegment_append_sep marker_free
        (show AtSeparator (backslash :: (tagPrefix ++ tag)) by rintro s ⟨⟩; exact hback),
        segmentEqual_refl, hshare, parseAliasTag, reservedWorkspaceTag_of htag]
    rcases hflavor with rfl | rfl <;> exact hread
  simp only [parseReservedAlias, h.classifyPath, hposition]

lemma parseReservedAlias_minted (h : Spelled root parsed) (htag : TagText tag)
    (hx : AtSeparator x) : parseReservedAlias ((virtualRoot parsed tag).dropLast ++ x) =
      some ⟨parsed.flavor, aliasDrive parsed.flavor root, tag, x, true⟩ := by
  have hback : isSeparator backslash := by decide
  have hskip : trimLeadingSeparators (backslash :: (reservedNamespaceV1 ++ backslash :: (tagPrefix ++ tag ++ x))) =
      reservedNamespaceV1 ++ backslash :: (tagPrefix ++ tag ++ x) := rfl
  have hname : tagPrefix ++ tag ≠ [] := by simp [tagPrefix]
  have hvolume := uncVolume_of marker_free (by decide) hback (tagSegment_free htag) hname hx
  cases h with
  | posix rest =>
    have htext := dropLast_aliasSegments tag x [slash] slash
    have hread := parseReservedAlias_segment (.posix _)
      (by decide) htag (show isSeparator slash = true by decide) hx
      (show trimLeadingSeparators (reservedNamespaceV1 ++ _) = _ from rfl)
    exact (congrArg parseReservedAlias htext).trans hread
  | @drive letter sep hletter hsep rest =>
    obtain ⟨hupper, hagain⟩ := upper_letter letter hletter
    have htext :=
      dropLast_aliasSegments tag x [toUpperASCII letter, driveColon, backslash] backslash
    have hread := parseReservedAlias_segment (.drive hupper hback _) (by decide) htag hback hx hskip
    refine (congrArg parseReservedAlias htext).trans (hread.trans ?_)
    simp [aliasDrive, hagain]
  | unc =>
    have htext := dropLast_aliasSegments tag x uncAnchor backslash
    have hread :=
      parseReservedAlias_volume (.unc hvolume (by simp [reservedNamespaceV1, extendedQuery])
      (by simp [reservedNamespaceV1, backslash])) (.inl rfl) htag rfl
    exact (congrArg parseReservedAlias htext).trans hread
  | @extendedDrive letter sep hletter hsep rest =>
    obtain ⟨hupper, hagain⟩ := upper_letter letter hletter
    have htext := dropLast_aliasSegments tag x
      (extendedAnchor ++ [toUpperASCII letter, driveColon, backslash]) backslash
    have hread := parseReservedAlias_segment (.extendedDrive hupper hback _)
      (by decide) htag hback hx hskip
    refine (congrArg parseReservedAlias htext).trans (hread.trans ?_)
    simp [aliasDrive, hagain]
  | extendedUNC =>
    have htext :=
      dropLast_aliasSegments tag x (extendedAnchor ++ uncMarker ++ [backslash]) backslash
    have hread := parseReservedAlias_volume (.extendedUNC (c := 0x43) rfl hback hvolume) (.inr rfl)
      htag rfl
    exact (congrArg parseReservedAlias htext).trans hread

/-- What a derived mapping has to do with its root. -/
structure Derived (sha256 : GoStr → Fin 32 → UInt8) (root : GoStr) (parsed : ParsedPath)
    (m : Mapping) : Prop where
  spelled : Spelled root parsed
  ordinary : parseReservedAlias root = none
  flavor : m.flavor = parsed.flavor
  realRoot : m.realRoot = root
  workspaceTag : m.workspaceTag = workspaceTag sha256 parsed.flavor (canonicalRootIdentity parsed)
  active : m.virtualRoot ≠ [] →
    m.virtualRoot = virtualRoot parsed m.workspaceTag ∧
    m.virtualRoot.length < (matchableRoot root).length

lemma deriveMapping_ok (h : deriveMapping sha256 root = .ok m) :
    ∃ parsed, Derived sha256 root parsed m := by
  unfold deriveMapping at h
  rcases hclass : classifyPath root with _ | parsed
  · simp [hclass] at h
  have hspelled := classifyPath_ok hclass
  simp only [hclass, ← hspelled.text] at h
  split_ifs at h with hreserved hactive
  · cases h
    rw [Bool.and_eq_true, decide_eq_true_eq, decide_eq_true_eq] at hactive
    exact ⟨parsed, hspelled, by simpa using hreserved, rfl, rfl, rfl, fun _ => ⟨rfl, hactive.2⟩⟩
  · cases h
    exact ⟨parsed, hspelled, by simpa using hreserved, rfl, rfl, rfl, fun h => absurd rfl h⟩

lemma Derived.tagText (h : Derived sha256 root parsed m) : TagText m.workspaceTag :=
  h.workspaceTag ▸ workspaceTag_text _ _

def DoubledEnd (flavor : PathFlavor) (root : GoStr) : Prop :=
  ∃ front s t, root = front ++ [s, t] ∧ isFlavorSeparator flavor s ∧ isFlavorSeparator flavor t

lemma Spelled.matchableRoot (h : Spelled root parsed) :
    ∃ trail, root = matchableRoot root ++ trail ∧ (∀ c ∈ trail, isFlavorSeparator parsed.flavor c) ∧
      (1 < (PathVirtualization.matchableRoot root).length →
        ∀ a ∈ (PathVirtualization.matchableRoot root).getLast?, isFlavorSeparator parsed.flavor a =
        false) := by
  have hroot : PathVirtualization.matchableRoot root =
      parsed.root ++ parsed.rest.rdropWhile (isFlavorSeparator parsed.flavor) := by
    simp [PathVirtualization.matchableRoot, h.classifyPath]
  refine ⟨parsed.rest.rtakeWhile (isFlavorSeparator parsed.flavor), ?_, ?_, ?_⟩
  · rw [hroot, append_assoc, rdropWhile, rtakeWhile, ← reverse_append, takeWhile_append_dropWhile, reverse_reverse]
    exact h.text
  · exact fun c hc => mem_rtakeWhile_imp hc
  · rw [hroot]
    intro hlong a ha
    by_cases hnil : parsed.rest.rdropWhile (isFlavorSeparator parsed.flavor) = []
    · -- Only the volume is left.
      rw [hnil, append_nil] at hlong ha
      have hsegment (name : GoStr) (hname : name ≠ []) (hfree : ∀ c ∈ name, isSeparator c = false)
          (hsuffix : name <:+ parsed.root) : isSeparator a = false := by
        obtain ⟨front, hfront⟩ := hsuffix
        rw [← hfront, getLast?_append_of_ne_nil _ hname] at ha
        exact hfree a (mem_of_getLast? ha)
      cases h with
      | posix => simp at hlong
      | drive => exact hsegment [driveColon] (by simp) (by decide +kernel) ⟨[_], rfl⟩
      | extendedDrive =>
        exact hsegment [driveColon] (by simp) (by decide +kernel) ⟨extendedAnchor ++ [_], rfl⟩
      | unc hvolume =>
        obtain ⟨server, sep, name, rfl, -, -, hname, -, -, hfree, -⟩ := uncVolume_eq_some hvolume
        exact hsegment name hname hfree ⟨uncAnchor ++ server ++ [sep], by simp⟩
      | @extendedUNC u n c s _ _ _ _ _ hvolume =>
        obtain ⟨server, sep, name, rfl, -, -, hname, -, -, hfree, -⟩ := uncVolume_eq_some hvolume
        exact hsegment name hname hfree ⟨extendedAnchor ++ [u, n, c, s] ++ server ++ [sep], by simp⟩
    · rw [getLast?_append_of_ne_nil _ hnil, getLast?_eq_getLast_of_ne_nil hnil] at ha
      cases ha
      simpa using rdropWhile_last_not (isFlavorSeparator parsed.flavor) parsed.rest hnil

lemma byteEqual_separators {a b : UInt8} (ha : isFlavorSeparator flavor a)
    (hb : isFlavorSeparator flavor b) : ByteEqual flavor a b := by
  unfold isFlavorSeparator at ha hb
  unfold ByteEqual
  split_ifs at ha hb ⊢
  · exact (of_decide_eq_true ha).trans (of_decide_eq_true hb).symm
  · simp [equalWindowsByte, ha, hb]

lemma joinRootSuffix_matchableRoot (h : Spelled root parsed)
    (hlong : 1 < (matchableRoot root).length)
    (hend : ¬DoubledEnd parsed.flavor root) {front : GoStr}
    (hfront : List.Forall₂ (ByteEqual parsed.flavor) front (matchableRoot root))
    (hsep : isFlavorSeparator parsed.flavor sep) :
    List.Forall₂ (ByteEqual parsed.flavor) (front ++ sep :: tail)
      (joinRootSuffix parsed.flavor root (sep :: tail)) := by
  obtain ⟨trail, hroot, htrail, hlast⟩ := h.matchableRoot
  have hsame (s : GoStr) : List.Forall₂ (ByteEqual parsed.flavor) s s :=
    forall₂_same.mpr fun c _ => .refl c
  rw [joinRootSuffix]
  rcases eq_nil_or_concat' trail with rfl | ⟨more, t, rfl⟩
  · rw [append_nil] at hroot
    rw [← hroot] at hlast hlong hfront
    have hname : root.getLast?.any (isFlavorSeparator parsed.flavor) = false := by
      cases hget : root.getLast? with
      | none => rfl
      | some a => exact hlast hlong a hget
    simp only [hname]
    exact rel_append hfront (hsame _)
  · rcases eq_nil_or_concat' more with rfl | ⟨more, s, rfl⟩
    · have hsep' : root.getLast?.any (isFlavorSeparator parsed.flavor) := by
        rw [hroot, nil_append, getLast?_concat]
        exact htrail t (by simp)
      rw [if_pos hsep']
      nth_rewrite 1 [hroot]
      rw [append_assoc]
      exact rel_append hfront (.cons (byteEqual_separators hsep (htrail t (by simp))) (hsame _))
    · refine absurd ⟨matchableRoot root ++ more, s, t, ?_, htrail s (by simp), htrail t (by simp)⟩ hend
      nth_rewrite 1 [hroot]
      simp

lemma isSeparator_of_flavor (h : isFlavorSeparator flavor sep) : isSeparator sep := by
  unfold isFlavorSeparator at h
  split_ifs at h <;> simp_all [isSeparator]

lemma atSeparator_cons (h : isSeparator sep) : AtSeparator (sep :: tail) := by
  rintro _ ⟨⟩
  exact h

lemma Derived.expandPath_minted (h : Derived sha256 root parsed m) (hactive : m.virtualRoot ≠ [])
    (hx : AtSeparator x) :
    m.expandPath (m.virtualRoot.dropLast ++ x) =
    (joinRootSuffix m.flavor m.realRoot x, .expanded) := by
  have hparse := parseReservedAlias_minted h.spelled h.tagText hx
  rw [← (h.active hactive).1] at hparse
  have hnames :
      m.names ⟨parsed.flavor, aliasDrive parsed.flavor root, m.workspaceTag, x, true⟩ := by
    simp [Mapping.names, h.flavor, h.realRoot, hactive, segmentEqual_refl]
  simp [Mapping.expandPath, hparse, Mapping.expandReservedAlias, hnames]

lemma stripRootPrefix_eq_some {suffix : GoStr}
    (h : stripRootPrefix path flavor root = some suffix) :
    ∃ front, path = front ++ suffix ∧ List.Forall₂ (ByteEqual flavor) front root ∧
      ∀ s ∈ suffix.head?, isFlavorSeparator flavor s := by
  unfold stripRootPrefix at h
  split_ifs at h with hshort hequal
  rw [Bool.not_eq_false, segmentEqual_iff] at hequal
  refine ⟨path.take root.length, ?_, hequal, ?_⟩ <;> rcases hdrop :
    path.drop root.length with _ | ⟨s, tail⟩ <;>
    simp only [hdrop, Option.ite_none_right_eq_some, Option.some.injEq] at h
  · rw [← h, ← hdrop, take_append_drop]
  · rw [← h.2, ← hdrop, take_append_drop]
  · subst h
    exact fun s hs => by cases hs
  · rw [← h.2]
    rintro _ ⟨⟩
    exact h.1

/-- A virtual path is shorter than the path it stands for and expands to it, but for a path that is
the root itself. -/
theorem virtualize_round_trip (hm : deriveMapping sha256 root = .ok m)
    (hend : ¬DoubledEnd m.flavor root) {p v : GoStr} (hv : m.virtualizePath p = some v) :
    v.length < p.length ∧ (segmentEqual m.flavor p (matchableRoot root) = false →
      ∃ q, m.expandPath v = (q, .expanded) ∧ segmentEqual m.flavor p q) := by
  obtain ⟨parsed, hderived⟩ := deriveMapping_ok hm
  unfold Mapping.virtualizePath at hv
  split_ifs at hv with hactive
  obtain ⟨hvirtual, hshorter⟩ := hderived.active hactive
  rw [hderived.realRoot] at hv
  rcases hstrip : stripRootPrefix p m.flavor (matchableRoot root) with _ | suffix
  · simp [hstrip] at hv
  obtain ⟨front, rfl, hfront, hsuffix⟩ := stripRootPrefix_eq_some hstrip
  have hlength := hfront.length_eq
  rcases suffix with _ | ⟨sep, tail⟩
  · simp only [hstrip, Option.some.injEq] at hv
    subst hv
    refine ⟨by rw [append_nil]; omega, fun hbare => ?_⟩
    rw [append_nil, segmentEqual_iff.mpr hfront] at hbare
    cases hbare
  · simp only [hstrip, Option.some.injEq] at hv
    subst hv
    have hpos := length_pos_iff.mpr hactive
    refine ⟨by simp only [length_append, length_dropLast]; omega, fun _ => ?_⟩
    have hsep := hsuffix sep rfl
    refine ⟨_, hderived.expandPath_minted hactive (atSeparator_cons (isSeparator_of_flavor hsep)), ?_⟩
    rw [hderived.flavor] at hend hfront hsep
    rw [hderived.realRoot, hderived.flavor, segmentEqual_iff]
    exact joinRootSuffix_matchableRoot hderived.spelled (by omega) hend hfront hsep

def workspaceRoot : GoStr := lit "/home/dev/projects/interactive-proxy/workspace"

def workspaceMapping : Mapping :=
  ⟨.posix, workspaceRoot, lit "aaaaaaaaaaaaaaaaaaaa", lit "/.__lip_v1__/w_aaaaaaaaaaaaaaaaaaaa/"⟩

theorem virtualize_round_trip_of_workspace :
    deriveMapping (fun _ _ => 0) workspaceRoot = .ok workspaceMapping ∧ ∃ v,
      workspaceMapping.virtualizePath (workspaceRoot ++ lit "/main.go") = some v ∧
        v.length < (workspaceRoot ++ lit "/main.go").length ∧
          ∃ q, workspaceMapping.expandPath v = (q, .expanded) ∧
            segmentEqual .posix (workspaceRoot ++ lit "/main.go") q := by
  have hend : ¬DoubledEnd workspaceMapping.flavor workspaceRoot := by
    rintro ⟨front, s, t, hroot, -, ht⟩
    have hlast := congrArg getLast? hroot
    rw [show front ++ [s, t] = (front ++ [s]) ++ [t] by simp, getLast?_concat,
      show workspaceRoot.getLast? = some 0x65 by decide +kernel] at hlast
    cases hlast
    exact absurd ht (by decide)
  have hv : workspaceMapping.virtualizePath (workspaceRoot ++ lit "/main.go") =
      some (lit "/.__lip_v1__/w_aaaaaaaaaaaaaaaaaaaa/main.go") := by decide +kernel
  refine ⟨?derives, _, hv, (virtualize_round_trip ?derives hend hv).1,
    (virtualize_round_trip ?derives hend hv).2 (by decide +kernel)⟩
  decide +kernel

end InteractiveProxy.PathVirtualization
