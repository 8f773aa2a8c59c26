import InteractiveProxy.AliasLeaks

/-! The tag of a workspace stands for the paths that its mapping virtualizes: it spells twelve bytes
of a digest of the root's identity, and the identity is the matched root up to what the flavor does
not distinguish. -/
namespace InteractiveProxy.PathVirtualization

open GoText List

def unbase32 (c : UInt8) : List Bool :=
  let value := if 0x61 ≤ c then c.toNat - 0x61 else c.toNat - 0x32 + 26
  (range 5).map fun i => value.testBit (4 - i)

lemma unbase32_base32 (bits : List Bool) :
    ∃ n, ((base32 bits).map lowerByte).flatMap unbase32 = bits ++ replicate n false := by
  obtain ⟨n, hn, ds, hbits, hdigits⟩ := base32_digits bits
  have hdigit : ∀ d :
    Fin 5 → Bool, unbase32 (lowerByte (base32Digit (ofFn d))) = ofFn d := by decide
  refine ⟨n, ?_⟩
  rw [hbits, hdigits]
  simp only [map_map, flatMap_map, Function.comp_apply, hdigit]

/-- The bits of a digest that the tag spells. -/
def truncated (digest : Fin 32 → UInt8) : List Bool :=
  (ofFn fun i : Fin 12 => digest (i.castLE (Nat.le_of_ble_eq_true rfl))).flatMap bitsOf

/-- The text whose digest gives the tag of a root. -/
def tagPayload (root : GoStr) : GoStr :=
  match classifyPath root with
  | .error _ => []
  | .ok parsed =>
    lit "lip:path-virtualization:v1" ++ 0 :: flavorID parsed.flavor ++ 0 :: canonicalRootIdentity parsed

variable {sha256 : GoStr → Fin 32 → UInt8} {root root' : GoStr} {parsed parsed' : ParsedPath}
  {m m' : Mapping} {flavor : PathFlavor}

lemma Derived.tag_eq (h : Derived sha256 root parsed m) :
    m.workspaceTag = (base32 (truncated (sha256 (tagPayload root)))).map lowerByte := by
  rw [h.workspaceTag, tagPayload, h.spelled.classifyPath]
  rfl

lemma Derived.truncated_eq (h : Derived sha256 root parsed m) (h' : Derived sha256 root' parsed' m')
    (htag : m.workspaceTag = m'.workspaceTag) :
    truncated (sha256 (tagPayload root)) = truncated (sha256 (tagPayload root')) := by
  obtain ⟨n, hn⟩ := unbase32_base32 (truncated (sha256 (tagPayload root)))
  obtain ⟨n', hn'⟩ := unbase32_base32 (truncated (sha256 (tagPayload root')))
  rw [← h.tag_eq, htag, h'.tag_eq, hn'] at hn
  exact (append_inj hn (by simp [truncated, bitsOf])).1.symm

lemma Derived.identity_eq (h : Derived sha256 root parsed m)
    (h' : Derived sha256 root' parsed' m') : tagPayload root = tagPayload root' ↔
      parsed.flavor = parsed'.flavor ∧
      canonicalRootIdentity parsed = canonicalRootIdentity parsed' := by
  rw [tagPayload, tagPayload, h.spelled.classifyPath, h'.spelled.classifyPath]
  dsimp only
  rw [append_assoc, append_assoc, append_cancel_left_eq]
  rcases parsed.flavor <;> rcases parsed'.flavor <;> simp [flavorID]

/-- A text up to what the flavor does not distinguish. -/
def canonical (flavor : PathFlavor) (s : GoStr) : GoStr :=
  if flavor = .posix then s else normalizeWindowsIdentity s

def windowsByte (c : UInt8) : UInt8 := lowerByte (if c = slash then backslash else c)

lemma windowsByte_separator : ∀ c, windowsByte c = backslash ↔ isSeparator c :=
  byte_forall (by decide +kernel)

lemma equalWindowsByte_iff {a b : UInt8} :
    equalWindowsByte a b ↔ windowsByte a = windowsByte b := by
  simp only [equalWindowsByte, windowsByte, isSeparator, lowerByte, slash, backslash]
  grind

lemma forall₂_byteEqual {got want : GoStr} :
    Forall₂ (ByteEqual flavor) got want ↔ canonical flavor got = canonical flavor want := by
  unfold canonical
  split_ifs with hposix
  · have hrel : ByteEqual flavor = Eq := by funext g w; simp [ByteEqual, hposix]
    rw [hrel, forall₂_eq_eq_eq]
  · have hrel : ByteEqual flavor = fun g w => windowsByte g = windowsByte w := by
      funext g w
      rw [ByteEqual, if_neg hposix, equalWindowsByte_iff, eq_iff_iff, eq_comm]
    change _ ↔ got.map windowsByte = want.map windowsByte
    rw [hrel, ← forall₂_eq_eq_eq, forall₂_map_left_iff, forall₂_map_right_iff]

lemma rdropWhile_behind {p : UInt8 → Bool} {l trail : GoStr} {volumeLen : ℕ}
    (hvolume : volumeLen ≤ l.length)
    (htrail : ∀ c ∈ trail, p c) (hlast : ∀ a ∈ l.getLast?, p a = false) :
    (l ++ trail).take volumeLen ++ ((l ++ trail).drop volumeLen).rdropWhile p = l := by
  have hdrop : (l.drop volumeLen ++ trail).rdropWhile p = l.drop volumeLen := by
    rw [rdropWhile, reverse_append, dropWhile_append_of_pos (by simpa using htrail)]
    refine rdropWhile_eq_self_iff.mpr fun hne => ?_
    rw [getLast_drop, hlast _ (getLast?_eq_getLast_of_ne_nil _)]
    exact Bool.false_ne_true
  rw [take_append_of_le_length hvolume, drop_append_of_le_length hvolume, hdrop, take_append_drop]

/-- The identity is the root that is matched, up to what the flavor does not distinguish. -/
lemma Derived.identity (h : Derived sha256 root parsed m) (hactive : m.virtualRoot ≠ []) :
    canonicalRootIdentity parsed = canonical m.flavor (matchableRoot m.realRoot) := by
  obtain ⟨trail, htext, htrail, hlast⟩ := h.spelled.matchableRoot
  have hlong : 12 < (matchableRoot root).length := by
    obtain ⟨hvirtual, hlt⟩ := h.active hactive
    refine lt_of_le_of_lt ?_ hlt
    rw [hvirtual]
    unfold virtualRoot
    split <;> simp [aliasSegments, reservedNamespaceV1] <;> omega
  have hvolume : parsed.root.length ≤ (matchableRoot root).length := by
    simp [matchableRoot, h.spelled.classifyPath]
  have hdrive : parsed.flavor = .windowsDrive ∨
      parsed.flavor = .windowsExtendedDrive → parsed.root.length ≤ 6 := by
    cases h.spelled <;> simp [extendedAnchor]
  replace hlast := hlast (by omega)
  rw [h.realRoot, h.flavor, canonicalRootIdentity, canonical, ← h.spelled.text]
  generalize matchableRoot root = matched at *
  rw [htext]
  by_cases hposix : parsed.flavor = .posix
  · rw [if_pos hposix, if_pos hposix]
    simp only [isFlavorSeparator, hposix, if_true] at htrail hlast
    have htrim := rdropWhile_behind (Nat.zero_le _) htrail hlast
    rw [take_zero, drop_zero, nil_append] at htrim
    dsimp only
    rw [htrim, if_neg (length_pos_iff.mp (by omega))]
  · rw [if_neg hposix, if_neg hposix]
    simp only [isFlavorSeparator, hposix, if_false] at htrail hlast
    have hbytes : normalizeWindowsIdentity (matched ++ trail) =
        matched.map windowsByte ++ trail.map windowsByte :=
      map_append
    dsimp only
    rw [hbytes]
    refine rdropWhile_behind ?_ ?_ ?_
    · rw [length_map]
      split_ifs with hflavor
      · have := hdrive hflavor
        omega
      · exact hvolume
    · simpa [windowsByte_separator] using htrail
    · simpa [← Bool.not_eq_true, windowsByte_separator] using hlast

lemma stripRootPrefix_congr (h : canonical flavor root = canonical flavor root') (path : GoStr) :
    stripRootPrefix path flavor root = stripRootPrefix path flavor root' := by
  have hlength := (forall₂_byteEqual.mpr h).length_eq
  have hequal (got : GoStr) : segmentEqual flavor got root = segmentEqual flavor got root' := by
    rw [Bool.eq_iff_iff, segmentEqual_iff, segmentEqual_iff, forall₂_byteEqual, forall₂_byteEqual, h]
  simp only [stripRootPrefix, ← length_eq_zero_iff, hlength, hequal]

/-- Two roots of which each starts with the other are one root. -/
lemma canonical_eq_of_stripRootPrefix (h : (stripRootPrefix root flavor root').isSome)
    (h' : (stripRootPrefix root' flavor root).isSome) :
    canonical flavor root = canonical flavor root' := by
  obtain ⟨suffix, hsuffix⟩ := Option.isSome_iff_exists.mp h
  obtain ⟨suffix', hsuffix'⟩ := Option.isSome_iff_exists.mp h'
  obtain ⟨front, hroot, hfront, -⟩ := stripRootPrefix_eq_some hsuffix
  obtain ⟨front', hroot', hfront', -⟩ := stripRootPrefix_eq_some hsuffix'
  have hlength := congrArg length hroot
  have hlength' := congrArg length hroot'
  rw [length_append, hfront.length_eq] at hlength
  rw [length_append, hfront'.length_eq] at hlength'
  obtain rfl := length_eq_zero_iff.mp (by omega : suffix.length = 0)
  rw [hroot, append_nil]
  exact forall₂_byteEqual.mp hfront

lemma virtualizePath_isSome (hactive : m.virtualRoot ≠ []) (path : GoStr) :
    (m.virtualizePath path).isSome =
    (stripRootPrefix path m.flavor (matchableRoot m.realRoot)).isSome := by
  rw [Mapping.virtualizePath, if_neg hactive]
  rcases stripRootPrefix path m.flavor (matchableRoot m.realRoot) with _ | _ | _ <;> rfl

lemma Derived.stripRootPrefix_self (h : Derived sha256 root parsed m)
    (hactive : m.virtualRoot ≠ []) :
    (stripRootPrefix (matchableRoot m.realRoot) m.flavor (matchableRoot m.realRoot)).isSome := by
  have hlong := (h.active hactive).2
  rw [h.realRoot]
  have hne : matchableRoot root ≠ [] := length_pos_iff.mp (by omega)
  simp [stripRootPrefix, hne, segmentEqual_refl]

/-- Two active mappings have the same tag exactly if their flavor and the paths that they virtualize
are the same. -/
theorem workspaceTag_eq_iff (hm : deriveMapping sha256 root = .ok m)
    (hm' : deriveMapping sha256 root' = .ok m')
    (hactive : m.virtualRoot ≠ []) (hactive' : m'.virtualRoot ≠ [])
    (hfree : truncated (sha256 (tagPayload root)) = truncated (sha256 (tagPayload root')) →
      tagPayload root = tagPayload root') :
    m.workspaceTag = m'.workspaceTag ↔
      m.flavor = m'.flavor ∧
      ∀ path, (m.virtualizePath path).isSome = (m'.virtualizePath path).isSome := by
  obtain ⟨parsed, h⟩ := deriveMapping_ok hm
  obtain ⟨parsed', h'⟩ := deriveMapping_ok hm'
  have htag : m.workspaceTag = m'.workspaceTag ↔ tagPayload root = tagPayload root' :=
    ⟨fun heq => hfree (h.truncated_eq h' heq), fun heq => by rw [h.tag_eq, h'.tag_eq, heq]⟩
  rw [htag, h.identity_eq h', ← h.flavor, ← h'.flavor, h.identity hactive, h'.identity hactive', and_congr_right_iff]
  intro hflavor
  simp only [virtualizePath_isSome hactive, virtualizePath_isSome hactive', ← hflavor]
  refine ⟨fun heq path => by rw [stripRootPrefix_congr heq], fun hsame => ?_⟩
  refine canonical_eq_of_stripRootPrefix ?_ ?_
  · rw [← hsame]
    exact h.stripRootPrefix_self hactive
  · rw [hsame, hflavor]
    exact h'.stripRootPrefix_self hactive'

/-- The same root, spelled with a slash behind it. -/
def slashedMapping : Mapping := { ownMapping with realRoot := workspaceRoot ++ [slash] }

theorem workspaceTag_eq_iff_of_workspaces :
    (∃ path, (ownMapping.virtualizePath path).isSome ≠ (otherMapping.virtualizePath path).isSome) ∧
      ∀ path, (ownMapping.virtualizePath path).isSome =
      (slashedMapping.virtualizePath path).isSome := by
  have hown : deriveMapping byteSum workspaceRoot = .ok ownMapping := by decide +kernel
  have hother : deriveMapping byteSum otherRoot = .ok otherMapping := by decide +kernel
  have hslashed :
    deriveMapping byteSum (workspaceRoot ++ [slash]) = .ok slashedMapping := by decide +kernel
  constructor
  · by_contra hnone
    have hsame := (workspaceTag_eq_iff hown hother (by decide) (by decide) fun h => absurd h (by decide +kernel)).mpr
      ⟨rfl, fun path => not_not.mp fun h => hnone ⟨path, h⟩⟩
    exact absurd hsame (by decide)
  · exact ((workspaceTag_eq_iff hown hslashed (by decide) (by decide) fun _ => by decide +kernel).mp rfl).2

end InteractiveProxy.PathVirtualization
