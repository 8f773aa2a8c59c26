import InteractiveProxy.AllocationRecord

/-! The parts of an allocation record: taking their normal forms again changes nothing, and what
passes the checks of references and targets passes them in any order and is sorted to the same
lists. -/
namespace InteractiveProxy.Economics

open GoText Utf8Runes GuardedRun SignedWord Metering KeySort JsonEncoding List SubjectRef

def Graphic (s : GoStr) : Prop := ∀ b ∈ s, 0x21 ≤ b ∧ b < 0x7F

variable {s : GoStr}

lemma trimSpace_of_graphic (h : Graphic s) : trimSpace s = s := by
  have hspace : ∀ r ∈ spaceRunes, ∀ b ∈ r, ¬ (0x21 ≤ b ∧ b < 0x7F) := by decide +kernel
  have hends : ∀ r ∈ spaceRunes, r ≠ [] := by decide
  have hnone : ∀ r ∈ spaceRunes, ¬ r ⊆ s := by
    intro r hr hsub
    obtain ⟨b, rest, rfl⟩ := exists_cons_of_ne_nil (hends r hr)
    exact hspace _ hr b mem_cons_self (h b (hsub mem_cons_self))
  exact trimSpace_of_clean (fun r hr hfront => hnone r hr hfront.subset)
    fun r hr hback => hnone r hr hback.subset

lemma runesN_of_ascii {fuel : ℕ} (hlen : s.length ≤ fuel) (h : ∀ b ∈ s, b < 0x80) :
    runesN fuel s = s.map fun b => some [b] := by
  induction fuel generalizing s with
  | zero =>
    rw [length_eq_zero_iff.mp (Nat.le_zero.mp hlen)]
    rfl
  | succ fuel ih =>
    cases s with
    | nil => rfl
    | cons b rest =>
      have hscan : scanRune (b :: rest) = .good 1 := if_pos (h b mem_cons_self)
      unfold runesN
      rw [hscan]
      rw [map_cons, ← ih (by simpa using hlen) fun b hb => h b (mem_cons_of_mem _ hb)]
      rfl

lemma safe_of_graphic (table : PrintTable) (h : Graphic s) :
    (runes s).any (unsafeRune table) = false := by
  have hascii : ∀ b ∈ s, b < 0x80 := fun b hb => UInt8.lt_trans (h b hb).2 (by decide)
  rw [runes, runesN_of_ascii le_rfl hascii, any_eq_false]
  intro r hr
  obtain ⟨b, hb, rfl⟩ := mem_map.mp hr
  obtain ⟨hlow, hhigh⟩ := h b hb
  have hprint : table.isPrint [b] := table.ascii b (UInt8.le_trans (by decide) hlow) hhigh
  have hcontrol : ¬ b < 0x20 := UInt8.not_lt.mpr (UInt8.le_trans (by decide) hlow)
  have hdelete : b ≠ 0x7F := by
    rintro rfl
    exact absurd hhigh (by decide)
  simp [unsafeRune, hprint, hcontrol, hdelete]

/-- The texts that `ValidateSafeRef` lets through. -/
def SafeRef (table : PrintTable) (value : GoStr) : Prop :=
  trimSpace value ≠ [] ∧ (runes (trimSpace value)).any (unsafeRune table) = false

variable {table : PrintTable} {n : ℤ} {t' : AllocationTarget} {subject source : SubjectRef}
  {value : GoStr}

lemma validateSafeRef_iff {field : GoStr} :
    validateSafeRef table field value = .ok () ↔ SafeRef table value := by
  unfold validateSafeRef SafeRef
  simp [seq_eq_ok, reject_eq_ok]

lemma normalizeCurrency_ok {currency c : GoStr} (h : normalizeCurrency currency = .ok c) :
    normalizeCurrency c = .ok c := by
  unfold normalizeCurrency at h
  split_ifs at h with hempty hupper
  cases h
  unfold normalizeCurrency
  rw [trimSpace_trimSpace, if_neg hempty, if_pos hupper]

lemma setString_some (hplus : s.head? ≠ some 0x2B) (h : setString s = some n) :
    AllDigits (magnitude s) ∧ magnitude s ≠ [] ∧ n = intValue s := by
  have hdigits : magnitude s ≠ [] ∧ AllDigits (magnitude s) := by
    unfold setString at h
    split at h
    · exact absurd rfl hplus
    · split_ifs at h with hd
      exact hd
    next hp hm =>
    split_ifs at h
    have hmag : magnitude s = s := by
      unfold magnitude
      split
      · exact absurd rfl (hm _)
      · rfl
    rwa [hmag]
  refine ⟨hdigits.2, hdigits.1, ?_⟩
  rw [setString_of_magnitude hdigits.2 hdigits.1] at h
  exact (Option.some.inj h).symm

lemma magnitude_length_le (s : GoStr) : (magnitude s).length ≤ s.length := by
  conv_rhs => rw [← signed_magnitude s]
  unfold signed
  split_ifs <;> simp

lemma graphic_of_digits (h : AllDigits s) : Graphic s := by
  intro b hb
  have hdigit := isDigit_iff.mp (h b hb)
  exact ⟨le_trans (by decide) hdigit.1, lt_of_le_of_lt hdigit.2 (by decide)⟩

lemma formatInt_length_le {m : ℤ} (hdigits : AllDigits (magnitude s)) (hne : magnitude s ≠ [])
    (hn : n = intValue s) (hm : 0 ≤ m) (hle : m ≤ n) : (formatInt m).length ≤ s.length := by
  have hformat : formatInt m = formatNat m.natAbs := by
    unfold formatInt
    rw [if_neg (by omega)]
  rw [hformat]
  apply le_trans _ (magnitude_length_le s)
  apply (formatNat_numeral _).length_le (length_pos_iff.mpr hne)
  rw [natValue_formatNat]
  apply lt_of_le_of_lt _ (natValue_lt hdigits)
  rw [← natAbs_intValue]
  omega

namespace AllocationFraction

variable {e : AllocationError} {least : ℤ}

lemma readInteger_ok (h : readInteger s least e = .ok n) : setString s = some n ∧ least ≤ n := by
  unfold readInteger at h
  split at h
  · next m hm =>
    split_ifs at h with hlt
    cases h
    exact ⟨hm, not_lt.mp hlt⟩
  · cases h

variable {f g : AllocationFraction}

lemma normalize_ok (h : f.normalize = .ok g) :
    ∃ n d : ℤ, n = intValue f.numerator ∧ d = intValue f.denominator ∧ 0 ≤ n ∧ 0 < d ∧
      AllDigits (magnitude f.numerator) ∧ magnitude f.numerator ≠ [] ∧
      AllDigits (magnitude f.denominator) ∧ magnitude f.denominator ≠ [] ∧
      f.numerator.length + f.denominator.length ≤ maxValuationRationalDigits ∧
      g = ⟨formatInt (n / n.gcd d), formatInt (d / n.gcd d)⟩ := by
  unfold normalize at h
  simp only [seq_eq_ok, reject_eq_ok, not_or, not_lt] at h
  obtain ⟨-, hlen, ⟨hplusn, hplusd⟩, h⟩ := h
  obtain ⟨n, hn, h⟩ := bind_eq_ok.mp h
  obtain ⟨d, hd, h⟩ := bind_eq_ok.mp h
  obtain ⟨hsn, hnonneg⟩ := readInteger_ok hn
  obtain ⟨hsd, hpos⟩ := readInteger_ok hd
  obtain ⟨hdn, hnen, hvn⟩ := setString_some hplusn hsn
  obtain ⟨hdd, hned, hvd⟩ := setString_some hplusd hsd
  exact ⟨n, d, hvn, hvd, hnonneg, hpos, hdn, hnen, hdd, hned, hlen, (Except.ok.inj h).symm⟩

lemma formatInt_digits (h : 0 ≤ n) : AllDigits (formatInt n) ∧ formatInt n ≠ [] := by
  unfold formatInt
  rw [if_neg (by omega)]
  exact ⟨(formatNat_numeral _).digits, (formatNat_numeral _).nonempty⟩

lemma readInteger_formatInt (h : least ≤ n) : readInteger (formatInt n) least e = .ok n := by
  have hmag : magnitude (formatInt n) = formatNat n.natAbs := magnitude_formatInt n
  have hnum := formatNat_numeral n.natAbs
  unfold readInteger
  rw [setString_of_magnitude (hmag ▸ hnum.digits) (hmag ▸ hnum.nonempty), intValue_formatInt]
  exact if_neg (not_lt.mpr h)

lemma normalize_formatInt {d : ℤ} (hn : 0 ≤ n) (hd : 0 < d) (hgcd : n.gcd d = 1)
    (hlen : (formatInt n).length + (formatInt d).length ≤ maxValuationRationalDigits) :
    normalize ⟨formatInt n, formatInt d⟩ = .ok ⟨formatInt n, formatInt d⟩ := by
  obtain ⟨hdn, hnen⟩ := formatInt_digits hn
  obtain ⟨hdd, hned⟩ := formatInt_digits hd.le
  have hplus : ∀ s : GoStr, AllDigits s → s.head? ≠ some 0x2B := by
    intro s hs hhead
    exact (not_sign_of_digit (hs 0x2B (mem_of_head? hhead))).1 rfl
  unfold normalize
  simp only [seq_eq_ok, reject_eq_ok, not_or, not_not, not_lt]
  refine ⟨⟨trimSpace_of_graphic (graphic_of_digits hdn), trimSpace_of_graphic (graphic_of_digits hdd), hnen, hned⟩,
    hlen, ⟨hplus _ hdn, hplus _ hdd⟩, ?_⟩
  rw [readInteger_formatInt hn, readInteger_formatInt (show (1 : ℤ) ≤ d from hd)]
  change Except.ok (AllocationFraction.mk (formatInt (n / n.gcd d)) (formatInt (d / n.gcd d))) = _
  rw [hgcd]
  simp

lemma normalize_normalize (h : f.normalize = .ok g) : g.normalize = .ok g ∧ g.value = f.value := by
  obtain ⟨n, d, hn, hd, hnonneg, hpos, hdn, hnen, hdd, hned, hlen, rfl⟩ := normalize_ok h
  have hgcd : 0 < n.gcd d := Int.gcd_pos_of_ne_zero_right n hpos.ne'
  have hgcd' : (0 : ℤ) < n.gcd d := by exact_mod_cast hgcd
  have hdvdn : ((n.gcd d : ℕ) : ℤ) ∣ n := Int.gcd_dvd_left ..
  have hdvdd : ((n.gcd d : ℕ) : ℤ) ∣ d := Int.gcd_dvd_right ..
  have hn' : 0 ≤ n / n.gcd d := Int.ediv_nonneg hnonneg hgcd'.le
  have hd' : 0 < d / n.gcd d := Int.ediv_pos_of_pos_of_dvd hpos hgcd'.le hdvdd
  have hlen' : (formatInt (n / n.gcd d)).length + (formatInt (d / n.gcd d)).length ≤
      maxValuationRationalDigits := by
    have h1 := formatInt_length_le hdn hnen hn hn' (Int.ediv_le_self _ hnonneg)
    have h2 := formatInt_length_le hdd hned hd hd'.le (Int.ediv_le_self _ hpos.le)
    omega
  refine ⟨normalize_formatInt hn' hd' ?_ hlen', ?_⟩
  · exact Int.gcd_div_gcd_div_gcd hgcd
  · unfold value
    rw [intValue_formatInt, intValue_formatInt, ← hn, ← hd]
    have hcast : ((n.gcd d : ℤ) : ℚ) ≠ 0 := by exact_mod_cast hgcd'.ne'
    rw [Int.cast_div hdvdn hcast, Int.cast_div hdvdd hcast, div_div_div_cancel_right₀ hcast]

lemma rat_ok {q : ℚ} (h : f.rat = .ok q) : q = f.value := by
  obtain ⟨g, hg, h⟩ := bind_eq_ok.mp h
  cases h
  exact (normalize_normalize hg).2

lemma rat_of_normal (h : f.normalize = .ok f) : f.rat = .ok f.value := by
  unfold rat
  rw [h]
  rfl

end AllocationFraction

lemma toLower_not_upper (s : GoStr) : ∀ b ∈ toLower s, ¬ (0x41 ≤ b ∧ b ≤ 0x5A) := by
  have hlower : ∀ b, ¬ (0x41 ≤ lowerByte b ∧ lowerByte b ≤ 0x5A) := byte_forall (by decide +kernel)
  fun_induction toLower s with
  | case1 rest ih | case2 rest ih => exact forall_mem_cons.mpr ⟨by decide, ih⟩
  | case3 b rest _ _ ih => exact forall_mem_cons.mpr ⟨hlower b, ih⟩
  | case4 => exact nofun

lemma toLower_of_hex (hhex : ∀ b ∈ s, isHexDigit b)
    (hupper : ∀ b ∈ s, ¬ (0x41 ≤ b ∧ b ≤ 0x5A)) : toLower s = s := by
  fun_induction toLower s with
  | case1 rest ih | case2 rest ih => exact absurd (hhex _ mem_cons_self) (by decide)
  | case3 b rest _ _ ih =>
    rw [ih (fun b hb => hhex b (mem_cons_of_mem _ hb)) fun b hb => hupper b (mem_cons_of_mem _ hb),
      lowerByte, if_neg (hupper b mem_cons_self)]
  | case4 => rfl

lemma graphic_of_hex (h : ∀ b ∈ s, isHexDigit b) : Graphic s := by
  have hbyte : ∀ b, isHexDigit b → 0x21 ≤ b ∧ b < 0x7F := byte_forall (by decide +kernel)
  exact fun b hb => hbyte b (h b hb)

lemma sha256Hex_bytes (h : isSha256Hex s) : (∀ b ∈ s, isHexDigit b) ∧ s ≠ [] := by
  obtain ⟨hlen, hall⟩ := Bool.and_eq_true_iff.mp h
  refine ⟨all_eq_true.mp hall, ?_⟩
  rintro rfl
  cases hlen

lemma AllocationPolicyRef.normalize_normalize {p q : AllocationPolicyRef}
    (h : p.normalize table = .ok q) : q.normalize table = .ok q := by
  unfold normalize at h
  simp only [seq_eq_ok, reject_eq_ok, wrap_eq_ok, validateSafeRef_iff, Bool.not_eq_false] at h
  obtain ⟨hmethod, hversion, -, hhex, hout⟩ := h
  cases hout
  obtain ⟨hbytes, hne⟩ := sha256Hex_bytes hhex
  have hlower : toLower (toLower p.hash) = toLower p.hash :=
    toLower_of_hex hbytes (toLower_not_upper _)
  have hsafe : SafeRef table (toLower p.hash) := by
    have hgraphic := graphic_of_hex hbytes
    unfold SafeRef
    rw [trimSpace_of_graphic hgraphic]
    exact ⟨hne, safe_of_graphic table hgraphic⟩
  unfold normalize
  simp only [seq_eq_ok, reject_eq_ok, wrap_eq_ok, validateSafeRef_iff, Bool.not_eq_false, hlower]
  exact ⟨hmethod, hversion, hsafe, hhex, rfl⟩

namespace AllocationSource

lemma wrap_normalize {e : DecimalError → AllocationError} {d n : Decimal}
    (h : wrap e d.normalize = .ok n) : wrap e n.normalize = .ok n := by
  rw [wrap_eq_ok] at h ⊢
  exact Decimal.normalize_of_canonical (Decimal.normalize_value h).1

variable {s out : AllocationSource}

lemma normalizeAmount_ok {amount : Decimal} (h : s.normalizeAmount amount = .ok out) :
    ∃ n c, amount.normalize = .ok n ∧ normalizeCurrency c = .ok c ∧
      out = { s with sourceAmount := some n, currency := c } ∧
      ∀ policy, ({ out with policy }).normalizeAmount n = .ok { out with policy } := by
  unfold normalizeAmount at h
  simp only [seq_eq_ok, reject_eq_ok] at h
  obtain ⟨hbasis, h⟩ := h
  obtain ⟨n, hn, h⟩ := bind_eq_ok.mp h
  obtain ⟨c, hc, h⟩ := bind_eq_ok.mp h
  simp only [seq_eq_ok, reject_eq_ok] at h
  obtain ⟨hunit, hout⟩ := h
  cases hout
  have hc' := normalizeCurrency_ok (wrap_eq_ok.mp hc)
  refine ⟨n, c, wrap_eq_ok.mp hn, hc', rfl, fun policy => ?_⟩
  unfold normalizeAmount
  simp only [seq_eq_ok, reject_eq_ok]
  refine ⟨hbasis, bind_eq_ok.mpr ⟨n, wrap_normalize hn, bind_eq_ok.mpr ⟨c, wrap_eq_ok.mpr hc', ?_⟩⟩⟩
  simp only [seq_eq_ok, reject_eq_ok]
  exact ⟨hunit, rfl⟩

lemma normalizeQuantity_ok {quantity : Decimal} (h : s.normalizeQuantity table quantity = .ok out) :
    ∃ n, quantity.normalize = .ok n ∧ SafeRef table s.unit ∧
    out = { s with sourceQuantity := some n } ∧
      ∀ policy, ({ out with policy }).normalizeQuantity table n = .ok { out with policy } := by
  obtain ⟨n, hn, h⟩ := bind_eq_ok.mp h
  simp only [seq_eq_ok, reject_eq_ok] at h
  obtain ⟨hcurrency, hunit, hscale, hout⟩ := h
  cases hout
  refine ⟨n, wrap_eq_ok.mp hn, validateSafeRef_iff.mp (wrap_eq_ok.mp hunit), rfl, fun policy => ?_⟩
  refine bind_eq_ok.mpr ⟨n, wrap_normalize hn, ?_⟩
  simp only [seq_eq_ok, reject_eq_ok]
  exact ⟨hcurrency, hunit, hscale, rfl⟩

structure NormalTexts (table : PrintTable) (s : AllocationSource) : Prop where
  currency : s.sourceAmount ≠ none → normalizeCurrency s.currency = .ok s.currency
  unit : s.sourceAmount = none → SafeRef table s.unit

lemma normalizeValue_ok (h : s.normalizeValue table = .ok out) :
    (∃ a q c, out = { s with sourceAmount := a, sourceQuantity := q, currency := c }) ∧
      (∀ policy, ({ out with policy }).normalizeValue table = .ok { out with policy }) ∧
      NormalTexts table out ∧
      ∀ amount, s.sourceAmount = some amount → ∃ n, amount.normalize = .ok n ∧
        out.sourceAmount = some n := by
  unfold normalizeValue at h
  split at h
  · cases h
  · cases h
  · next amount ha hq =>
    obtain ⟨n, c, hn, hc, rfl, hagain⟩ := normalizeAmount_ok h
    refine ⟨⟨some n, s.sourceQuantity, c, rfl⟩, fun policy => ?_, ⟨fun _ => hc, fun hnone => (nomatch hnone)⟩, ?_⟩
    · rw [hq] at hagain ⊢
      exact hagain policy
    · intro amount' ha'
      rw [ha] at ha'
      cases ha'
      exact ⟨n, hn, rfl⟩
  · next quantity ha hq =>
    obtain ⟨n, hn, hunit, rfl, hagain⟩ := normalizeQuantity_ok h
    refine ⟨⟨s.sourceAmount, some n, s.currency, rfl⟩, fun policy => ?_,
      ⟨fun hsome => absurd ha hsome, fun _ => hunit⟩, ?_⟩
    · rw [ha] at hagain ⊢
      exact hagain policy
    · intro amount' ha'
      rw [ha] at ha'
      cases ha'

section Normal

variable (h : s.normalize table = .ok out)

include h

lemma normalize_ok : ∃ v policy, normalizeValue table { s with
        revision := if s.revision = 0 then 1
          else s.revision, sourceSubject := s.sourceSubject.canonical } = .ok v ∧
      v.policy.normalize table = .ok policy ∧ out = { v with policy } ∧
      SafeRef table s.id ∧ s.version ≠ 0 ∧ s.sourceSubject.validate table = .ok () ∧
      ownsCost s.sourceSubject.kind = true ∧ allocatable s.sourceBasis = true ∧
        v.operation.isKnown = true ∧
      v.roundingScope.isKnown = true ∧
      ¬ (v.roundingPolicy.isKnown = false ∨ (v.roundingPolicy = .unspecified ∧ v.sourceAmount ≠ none)) ∧
      v.roundingResidualPolicy.isKnown = true ∧ v.signCheck = .ok () := by
  unfold normalize at h
  simp only [seq_eq_ok, reject_eq_ok, wrap_eq_ok, validateSafeRef_iff, Bool.not_eq_false] at h
  obtain ⟨hid, hversion, hsubject, hkind, hbasis, h⟩ := h
  obtain ⟨v, hv, h⟩ := bind_eq_ok.mp h
  obtain ⟨p, hp, h⟩ := bind_eq_ok.mp h
  simp only [seq_eq_ok, reject_eq_ok, Bool.not_eq_false] at h
  obtain ⟨hoperation, hscope, hpolicy, hresidual, hsign, hout⟩ := h
  cases hout
  exact ⟨v, p, hv, hp, rfl, hid, hversion, hsubject, hkind, hbasis, hoperation, hscope, hpolicy, hresidual, hsign⟩

lemma normalize_normalize : out.normalize table = .ok out := by
  obtain ⟨v, p, hv, hp, rfl, hid, hversion, hsubject, hkind, hbasis, hoperation, hscope, hpolicy, hresidual, hsign⟩ :=
    normalize_ok h
  obtain ⟨⟨a, q, c, rfl⟩, hagain, -, -⟩ := normalizeValue_ok hv
  have hrevision : (if (if s.revision = 0 then 1 else s.revision) = 0 then 1
      else if s.revision = 0 then 1
      else s.revision) = if s.revision = 0 then 1 else s.revision := by
    split_ifs <;> omega
  unfold normalize
  simp only [seq_eq_ok, reject_eq_ok, wrap_eq_ok, validateSafeRef_iff, Bool.not_eq_false]
  refine ⟨hid, hversion, (validate_canonical table _).trans hsubject, hkind, hbasis, ?_⟩
  simp only [hrevision, canonical_canonical]
  refine bind_eq_ok.mpr ⟨_, hagain p, bind_eq_ok.mpr ⟨p, AllocationPolicyRef.normalize_normalize hp, ?_⟩⟩
  simp only [seq_eq_ok, reject_eq_ok, Bool.not_eq_false]
  exact ⟨hoperation, hscope, hpolicy, hresidual, hsign, rfl⟩

lemma normalize_facts : NormalTexts table out ∧ out.sourceSubject.validate table = .ok () ∧
      SafeRef table out.id ∧ out.roundingPolicy = s.roundingPolicy ∧
      ∀ amount, s.sourceAmount = some amount → ∃ n, amount.normalize = .ok n ∧
      out.sourceAmount = some n := by
  obtain ⟨v, p, hv, -, rfl, hid, -, hsubject, -⟩ := normalize_ok h
  obtain ⟨⟨a, q, c, rfl⟩, -, htexts, hamount⟩ := normalizeValue_ok hv
  exact ⟨⟨htexts.currency, htexts.unit⟩, (validate_canonical table _).trans hsubject, hid, rfl, hamount⟩

end Normal

end AllocationSource

def AllocationTarget.cleared (t : AllocationTarget) : AllocationTarget :=
  { t with roundedAmount := none, roundingResidualNano := 0 }

lemma not_contradicts_self (source target : GoStr) (h : ¬ contradicts source target) :
    ¬ contradicts source (orElse target source) := by
  unfold contradicts orElse at *
  split_ifs <;> tauto

lemma orElse_orElse (value default : GoStr) :
    orElse (orElse value default) default = orElse value default := by
  unfold orElse
  split_ifs <;> simp_all

lemma identity_orElse {n : ℕ} {default : GoStr} (hvalue : value ≠ [] → IdentityText table n value)
    (hdefault : default ≠ [] → IdentityText table n default) :
    orElse value default ≠ [] → IdentityText table n (orElse value default) := by
  unfold orElse
  split_ifs with h
  · exact hdefault
  · exact fun _ => hvalue h

lemma identityText_of_scope {s : SubjectRef} (h : s.validate table = .ok ()) :
    (s.tenantID ≠ [] → IdentityText table maxSchemaIDBytes s.tenantID) ∧
      (s.periodID ≠ [] → IdentityText table maxSchemaIDBytes s.periodID) ∧
      (s.accountID ≠ [] → IdentityText table maxSchemaIDBytes s.accountID) := by
  obtain ⟨-, -, -, hall, -⟩ := validate_iff.mp h
  refine ⟨hall ("subject tenant_id", s.tenantID) ?_, hall ("subject period_id", s.periodID) ?_,
    hall ("subject account_id", s.accountID) ?_⟩
  all_goals simp [texts, scopeTexts]

lemma normalizeTargetSubject_again {t : AllocationTarget} (hsource : source.validate table = .ok ())
    (h : normalizeTargetSubject table t source = .ok subject) (htarget : t'.target = subject)
    (haccount : t'.accountID = source.accountID) :
    normalizeTargetSubject table t' source = .ok subject := by
  unfold normalizeTargetSubject at h
  simp only [seq_eq_ok, reject_eq_ok, wrap_eq_ok] at h
  obtain ⟨hvalid, hkind, hstore, htenant, hperiod, hacct, -, hout⟩ := h
  cases hout
  rw [← validate_canonical] at hvalid
  obtain ⟨ht, hp, ha⟩ := identityText_of_scope hvalid
  obtain ⟨ht', hp', ha'⟩ := identityText_of_scope hsource
  unfold normalizeTargetSubject
  rw [htarget, haccount]
  simp only [seq_eq_ok, reject_eq_ok, wrap_eq_ok]
  refine ⟨validate_relocate hvalid ?_ fun hne => by rwa [orElse, if_neg hne], hkind, hstore,
    not_contradicts_self _ _ htenant, not_contradicts_self _ _ hperiod,
    not_contradicts_self _ _ hacct,
    fun hne => hne.2 rfl, ?_⟩
  · simp only [forall_mem_cons, not_mem_nil, false_imp_iff, implies_true, and_true]
    exact ⟨identity_orElse ht ht', identity_orElse hp hp', identity_orElse ha ha'⟩
  · simp only [SubjectRef.canonical, relocate, orElse_orElse, Timestamp.canonical_canonical]
    rfl

lemma targetSubject_again {t : AllocationTarget} (hsource : source.validate table = .ok ())
    (h : targetSubject table t source = .ok subject) (htarget : t'.target = subject)
    (haccount : t'.accountID = source.accountID)
    (hkind : t'.unallocated = t.unallocated ∧ t'.informational = t.informational) :
    targetSubject table t' source = .ok subject := by
  unfold targetSubject at h ⊢
  rw [hkind.1, hkind.2]
  by_cases hun : t.unallocated
  · rw [if_pos hun] at h ⊢
    simp only [seq_eq_ok] at h ⊢
    obtain ⟨hempty, hout⟩ := h
    cases hout
    rw [htarget]
    exact ⟨hempty, rfl⟩
  · rw [if_neg hun] at h ⊢
    exact normalizeTargetSubject_again hsource h htarget haccount

section Target

variable {t out : AllocationTarget} {s : AllocationSource} (htexts : s.NormalTexts table)
include htexts

lemma normalizeTargetUnit_ok (h : normalizeTargetUnit table t s = .ok out) :
    ∃ currency unit, out = { t with currency, unit } ∧ ∀ t' : AllocationTarget,
      t'.currency = currency → t'.unit = unit → normalizeTargetUnit table t' s = .ok t' := by
  unfold normalizeTargetUnit at h
  by_cases hmoney : s.sourceAmount ≠ none
  · rw [if_pos hmoney] at h
    obtain ⟨c, -, h⟩ := bind_eq_ok.mp h
    simp only [seq_eq_ok, reject_eq_ok, not_or, not_not] at h
    obtain ⟨⟨hunit, -⟩, hout⟩ := h
    cases hout
    refine ⟨s.currency, t.unit, rfl, fun t' hcurrency hunit' => ?_⟩
    have hown : targetCurrency t' = .ok s.currency := by
      unfold targetCurrency
      rw [hcurrency]
      split_ifs with hempty
      · rw [hempty]
      · exact wrap_eq_ok.mpr (htexts.currency hmoney)
    unfold normalizeTargetUnit
    rw [if_pos hmoney]
    refine bind_eq_ok.mpr ⟨s.currency, hown, ?_⟩
    simp only [seq_eq_ok, reject_eq_ok, not_or, not_not]
    refine ⟨⟨hunit'.trans hunit, fun hne => hne.2 rfl⟩, ?_⟩
    rw [← hcurrency]
    rfl
  · rw [if_neg hmoney] at h
    simp only [seq_eq_ok, reject_eq_ok, not_or, not_not] at h
    obtain ⟨-, ⟨hcurrency, -⟩, hout⟩ := h
    cases hout
    refine ⟨t.currency, s.unit, rfl, fun t' hcurrency' hunit' => ?_⟩
    have hown : checkTargetUnit table t' = .ok () := by
      unfold checkTargetUnit
      split_ifs
      · rfl
      · rw [hunit']
        exact wrap_eq_ok.mpr (validateSafeRef_iff.mpr (htexts.unit (not_not.mp hmoney)))
    unfold normalizeTargetUnit
    rw [if_neg hmoney]
    simp only [seq_eq_ok, reject_eq_ok, not_or, not_not]
    refine ⟨hown, ⟨hcurrency'.trans hcurrency, fun hne => hne.2 hunit'⟩, ?_⟩
    rw [← hunit']
    rfl

lemma normalizeAllocationTarget_ok (h : normalizeAllocationTarget table t s = .ok out) :
    ∃ weight subject currency unit, SafeRef table t.targetID ∧ t.weight.normalize = .ok weight ∧
      targetSubject table t s.sourceSubject = .ok subject ∧
      out = { t with
        weight, share := weight, roundedAmount := none, roundingResidualNano := 0, target :=
        subject, currency, unit,
        accountID := s.sourceSubject.accountID, periodID := s.sourceSubject.periodID } ∧
      ∀ t' : AllocationTarget, t'.currency = currency → t'.unit = unit →
        normalizeTargetUnit table t' s = .ok t' := by
  unfold normalizeAllocationTarget at h
  simp only [seq_eq_ok, wrap_eq_ok, validateSafeRef_iff] at h
  obtain ⟨hid, h⟩ := h
  obtain ⟨weight, hweight, h⟩ := bind_eq_ok.mp h
  simp only [seq_eq_ok] at h
  obtain ⟨-, h⟩ := h
  obtain ⟨subject, hsubject, h⟩ := bind_eq_ok.mp h
  simp only [seq_eq_ok] at h
  obtain ⟨-, -, h⟩ := h
  obtain ⟨currency, unit, rfl, hunit⟩ := normalizeTargetUnit_ok htexts h
  exact ⟨weight, subject, currency, unit, hid, hweight, hsubject, rfl, hunit⟩

lemma normalizeAllocationTarget_again (hsource : s.sourceSubject.validate table = .ok ())
    (h : normalizeAllocationTarget table t s = .ok out) (hcleared : t'.cleared = out)
    (hmoney : s.sourceAmount = none → t' = out) :
    normalizeAllocationTarget table t' s = .ok out := by
  obtain ⟨weight, subject, currency, unit, hid, hweight, hsubject, rfl, hunit⟩ :=
    normalizeAllocationTarget_ok htexts h
  obtain ⟨amount, residual, rfl⟩ : ∃ amount residual, t' = { t with
      weight, share := weight, roundedAmount := amount, roundingResidualNano := residual,
        target := subject, currency,
      unit, accountID := s.sourceSubject.accountID, periodID := s.sourceSubject.periodID } :=
    ⟨t'.roundedAmount, t'.roundingResidualNano, by rw [AllocationTarget.mk.injEq]; cases t'; cases hcleared; simp⟩
  unfold normalizeAllocationTarget
  simp only [seq_eq_ok, wrap_eq_ok, validateSafeRef_iff]
  refine ⟨hid, bind_eq_ok.mpr ⟨weight, (AllocationFraction.normalize_normalize hweight).1, ?_⟩⟩
  simp only [seq_eq_ok, reject_eq_ok]
  refine ⟨?_, bind_eq_ok.mpr ⟨subject, targetSubject_again hsource hsubject rfl rfl ⟨rfl, rfl⟩, ?_⟩⟩
  · rintro ⟨hnone, hrounded⟩
    have hclear := hmoney hnone
    simp only [AllocationTarget.mk.injEq, true_and] at hclear
    exact hrounded.elim (fun h => h hclear.1) fun h => h hclear.2
  · simp only [seq_eq_ok, reject_eq_ok]
    exact ⟨fun hne => hne.2 rfl, fun hne => hne.2 rfl, hunit _ rfl rfl⟩

lemma normalizeAllocationTarget_share (h : normalizeAllocationTarget table t s = .ok out) :
    out.weight.normalize = .ok out.weight ∧ out.share = out.weight ∧ out.cleared = out := by
  obtain ⟨weight, subject, currency, unit, -, hweight, -, rfl, -⟩ :=
    normalizeAllocationTarget_ok htexts h
  exact ⟨(AllocationFraction.normalize_normalize hweight).1, rfl, rfl⟩

variable {ts out : List AllocationTarget} {subjects ids : List GoStr} {total sum : ℚ}

lemma normalizeTargets_cons :
    normalizeTargets table s ids subjects sum (t :: ts) = .ok (out, total) ↔ ∃ target rest,
      normalizeAllocationTarget table t s = .ok target ∧ target.targetID ∉ ids ∧
      subjectKey target ∉ subjects ∧
        normalizeTargets table s (target.targetID :: ids) (subjectKey target :: subjects)
          (sum + target.weight.value) ts = .ok (rest, total) ∧ out = target :: rest := by
  have hsame {target : AllocationTarget} (h : normalizeAllocationTarget table t s = .ok target) :
      { target with share := target.weight } = target := by
    obtain ⟨-, hshare, -⟩ := normalizeAllocationTarget_share htexts h
    cases target
    cases hshare
    rfl
  simp only [normalizeTargets, bind_eq_ok]
  constructor
  · rintro ⟨target, htarget, ⟨⟩, hid, ⟨⟩, hsubject, fraction, hfraction, ⟨rest, _⟩, hrest, h⟩
    cases h
    rw [AllocationFraction.rat_ok hfraction] at hrest
    exact ⟨target, rest, htarget, reject_eq_ok.mp hid, reject_eq_ok.mp hsubject, hrest, by rw [hsame htarget]⟩
  · rintro ⟨target, rest, htarget, hid, hsubject, hrest, rfl⟩
    have hweight := (normalizeAllocationTarget_share htexts htarget).1
    exact ⟨target, htarget, (), reject_eq_ok.mpr hid, (), reject_eq_ok.mpr hsubject, _,
      AllocationFraction.rat_of_normal hweight, _, hrest, by rw [hsame htarget]; rfl⟩

lemma normalizeTargets_iff : normalizeTargets table s ids subjects sum ts = .ok (out, total) ↔
      ts.mapM (fun t => normalizeAllocationTarget table t s) = .ok out ∧
        total = sum + (out.map (·.weight.value)).sum ∧
        (∀ t ∈ out, t.targetID ∉ ids ∧ subjectKey t ∉ subjects) ∧
        (out.map (·.targetID)).Nodup ∧ (out.map subjectKey).Nodup := by
  induction ts generalizing ids subjects sum total out with
  | nil =>
    rw [mapM_eq_ok, forall₂_nil_left_iff]
    constructor
    · intro h
      cases h
      simp
    · rintro ⟨rfl, rfl, -⟩
      simp [normalizeTargets]
  | cons t ts ih =>
    rw [normalizeTargets_cons htexts, mapM_eq_ok, forall₂_cons_left_iff]
    simp only [ih, mapM_eq_ok]
    constructor
    · rintro ⟨target, rest, htarget, hid, hsubject, ⟨hmap, rfl, hnew, hids, hsubjects⟩, rfl⟩
      refine ⟨⟨target, rest, htarget, hmap, rfl⟩, by simp [add_assoc], ?_, ?_, ?_⟩ <;> grind
    · rintro ⟨⟨target, rest, htarget, hmap, rfl⟩, rfl, hnew, hids, hsubjects⟩
      refine ⟨target, rest, htarget, ?_, ?_, ⟨hmap, by simp [add_assoc], ?_, ?_, ?_⟩, rfl⟩ <;> grind

end Target

open ObservationRef

variable {duplicate : AllocationError}

lemma checkDistinct_iff {α κ : Type} [DecidableEq κ]
    {before after : α → Except AllocationError Unit} {key : α → κ} {seen : List κ} {xs : List α} :
    checkDistinct before after key duplicate seen xs = .ok () ↔
      (∀ a ∈ xs, (before a = .ok () ∧ after a = .ok ()) ∧ key a ∉ seen) ∧ (xs.map key).Nodup := by
  refine walk_iff (checkDistinct before after key duplicate) key id (fun seen a => key a :: seen)
    (fun _ _ => rfl) (fun _ => rfl) (fun seen a rest => ?_) seen xs
  simp only [checkDistinct, seq_eq_ok, reject_eq_ok, id, and_assoc, and_left_comm]

lemma checkDistinct_perm {α κ : Type} [DecidableEq κ]
    {before after : α → Except AllocationError Unit} {key : α → κ}
    {seen : List κ} {xs ys : List α} (hperm : xs.Perm ys)
    (h : checkDistinct before after key duplicate seen xs = .ok ()) :
    checkDistinct before after key duplicate seen ys = .ok () := by
  rw [checkDistinct_iff] at h ⊢
  exact ⟨fun a ha => h.1 a (hperm.mem_iff.mpr ha), (hperm.map key).nodup_iff.mp h.2⟩

def ObservationRef.identity (r : ObservationRef) : GoStr × GoStr × ℕ :=
  (r.storeID, r.observationID, r.revision)

variable {table : PrintTable} {refs : List ObservationRef}

lemma validateObservationRefCollection_iff {store : GoStr} {seen : List ObservationRef} {i : ℕ} :
    validateObservationRefCollection table store seen i refs = .ok () ↔
      (∀ r ∈ refs, (r.validate table = .ok () ∧ ¬ (store ≠ [] ∧ r.storeID ≠ store)) ∧
        r.identity ∉ seen.map identity) ∧ (refs.map identity).Nodup := by
  refine walk_iff (fun s => validateObservationRefCollection table store s.1 s.2) identity
    (·.1.map identity)
    (fun s r => (r :: s.1, s.2 + 1)) (fun _ _ => rfl) (fun _ => rfl) (fun s r rest => ?_)
    (seen, i) refs
  have hfind : (s.1.find? fun x => x.storeID = r.storeID ∧ x.observationID = r.observationID ∧
      x.revision = r.revision) = none ↔ r.identity ∉ s.1.map identity := by
    rw [find?_eq_none, mem_map, not_exists]
    simp [identity]
  simp only [validateObservationRefCollection, seq_eq_ok, reject_eq_ok, wrap_eq_ok, ← hfind, and_assoc]
  cases s.1.find? _ with
  | none => simp
  | some prior =>
    dsimp only
    split_ifs <;> simp

structure Permuted (r r' : AllocationRecord) : Prop where
  source : r'.toAllocationSource = r.toAllocationSource
  roundedSourceAmount : r'.roundedSourceAmount = r.roundedSourceAmount
  roundingResidualNano : r'.roundingResidualNano = r.roundingResidualNano
  createdAt : r'.createdAt = r.createdAt
  observations : r.sourceObservationRefs.Perm r'.sourceObservationRefs
  valuations : r.sourceValuationRefs.Perm r'.sourceValuationRefs
  supersedes : r.supersedes.Perm r'.supersedes
  targets : r.targets.Perm r'.targets

lemma checkLists_of_perm {r r' : AllocationRecord}
    (hsource : r'.toAllocationSource = r.toAllocationSource)
    (hobservations : r.sourceObservationRefs.Perm r'.sourceObservationRefs)
    (hvaluations : r.sourceValuationRefs.Perm r'.sourceValuationRefs)
    (hsupersedes : r.supersedes.Perm r'.supersedes)
    (htargets : r'.targets.length = r.targets.length)
    (hrounded : r.sourceAmount = none → r.roundedSourceAmount = none → r.roundingResidualNano = 0 →
      r'.roundedSourceAmount = none ∧ r'.roundingResidualNano = 0)
    (h : checkLists table r = .ok ()) : checkLists table r' = .ok () := by
  obtain ⟨source, rounded, residual, observations, valuations, supersedes, targets, created⟩ := r
  obtain ⟨source', rounded', residual', observations', valuations', supersedes', targets', created'⟩ := r'
  obtain rfl : source' = source := hsource
  unfold checkLists normalizeAllocationRefs at h ⊢
  simp only [seq_eq_ok, reject_eq_ok] at h ⊢
  obtain ⟨hcorrection, hcount, hlimit, hcollection, ⟨hkeys, hvals, hsups⟩, hquantity⟩ := h
  refine ⟨?_, ?_, ?_, ?_, ⟨checkDistinct_perm hobservations hkeys,
    checkDistinct_perm hvaluations hvals, checkDistinct_perm hsupersedes hsups⟩, ?_⟩
  · rintro ⟨hop, rfl⟩
    exact hcorrection ⟨hop, hsupersedes.eq_nil⟩
  · rwa [← length_eq_zero_iff, htargets, length_eq_zero_iff]
  · rwa [← hobservations.length_eq, ← hvaluations.length_eq, ← hsupersedes.length_eq]
  · rw [validateObservationRefCollection_iff] at hcollection ⊢
    exact ⟨fun ref href => hcollection.1 ref (hobservations.mem_iff.mpr href),
      (hobservations.map _).nodup_iff.mp hcollection.2⟩
  · rintro ⟨hnone, hmoney⟩
    rw [not_and, not_or, not_not, not_not] at hquantity
    obtain ⟨rfl, rfl⟩ := hrounded hnone (hquantity hnone).1 (hquantity hnone).2
    simp at hmoney

/-- References whose keys differ have different places in the order. -/
lemma eq_of_sortKey {ρ : Type} {store id : ρ → GoStr} {version : ρ → ℕ} {refs : List ρ}
    (h : (refs.map fun r => store r ++ lit ":" ++ id r ++ lit ":" ++ formatNat (version r)).Nodup) :
    ∀ a ∈ refs, ∀ b ∈ refs, toLex (textOrder (store a), toLex (textOrder (id a), version a)) =
      toLex (textOrder (store b), toLex (textOrder (id b), version b)) → a = b := by
  intro a ha b hb hkey
  apply eq_of_key_of_nodup h a ha b hb
  obtain ⟨hstore, hkey⟩ := Prod.ext_iff.mp (toLex_inj.mp hkey)
  obtain ⟨hid, hversion⟩ := Prod.ext_iff.mp (toLex_inj.mp hkey)
  rw [textOrder_injective hstore, textOrder_injective hid, show version a = version b from hversion]

lemma sortRefs_of_perm {r r' : AllocationRecord} (h : checkLists table r = .ok ())
    (hperm : Permuted r r') : sortRefs r' = { sortRefs r with targets := r'.targets } := by
  unfold checkLists normalizeAllocationRefs at h
  simp only [seq_eq_ok, checkDistinct_iff, validateObservationRefCollection_iff] at h
  obtain ⟨-, -, -, -, ⟨⟨-, hobservations⟩, ⟨-, hvaluations⟩, -, hsupersedes⟩, -⟩ := h
  have h1 : sortBy ObservationRef.sortKey _ = _ :=
    sortBy_eq_of_perm hperm.observations (eq_of_sortKey hobservations)
  have h2 : sortBy RecordRef.sortKey _ = _ :=
    sortBy_eq_of_perm hperm.valuations (eq_of_sortKey hvaluations)
  have h3 : sortBy RecordRef.sortKey _ = _ :=
    sortBy_eq_of_perm hperm.supersedes (eq_of_sortKey hsupersedes)
  unfold sortRefs
  rw [h1, h2, h3, hperm.source, hperm.createdAt]

lemma append_colon_injective {u v p q : GoStr} (h : u ++ 0x3A :: p = v ++ 0x3A :: q)
    (hp : ∀ w, p ≠ w ++ 0x3A :: q) (hq : ∀ w, q ≠ w ++ 0x3A :: p) : u = v := by
  rcases append_eq_append_iff.mp h with ⟨w, rfl, hw⟩ | ⟨w, rfl, hw⟩
  · cases w with
    | nil => simp
    | cons b w => exact absurd (cons.inj hw).2 (hp w)
  · cases w with
    | nil => simp
    | cons b w => exact absurd (cons.inj hw).2 (hq w)

lemma payload_not_nested (a b : AllocationTarget) (w : GoStr) :
    payload a ≠ w ++ 0x3A :: payload b := by
  unfold payload
  intro h
  cases ha : a.target.marshal with
  | none => simp [ha] at h
  | some p =>
    cases hb : b.target.marshal with
    | none =>
      -- The payload of a subject that is not written is empty, and an object does not end in a colon.
      obtain ⟨members, -, rfl, -⟩ := SubjectRef.marshal_object ha
      rw [ha, hb] at h
      have hlast := congrArg getLast? h
      simp [object, getLast?_cons] at hlast
    | some q =>
      rw [ha, hb] at h
      exact SubjectRef.marshal_not_nested ha hb w h

lemma allocationTargetSortKey_id {a b : AllocationTarget}
    (h : allocationTargetSortKey a = allocationTargetSortKey b) : a.targetID = b.targetID := by
  unfold allocationTargetSortKey at h
  split_ifs at h
  · exact append_cancel_left h
  · cases (cons.inj h).1
  · cases (cons.inj h).1
  · rw [append_assoc, append_assoc, append_assoc] at h
    exact append_colon_injective (append_cancel_left h) (payload_not_nested a b)
      (payload_not_nested b a)

lemma sortTargets_of_perm {ts ts' : List AllocationTarget} (hids : (ts.map (·.targetID)).Nodup)
    (hperm : ts.Perm ts') :
    sortBy (textOrder ∘ allocationTargetSortKey) ts =
    sortBy (textOrder ∘ allocationTargetSortKey) ts' := by
  apply sortBy_eq_of_perm hperm
  intro a ha b hb hkey
  exact eq_of_key_of_nodup hids a ha b hb (allocationTargetSortKey_id (textOrder_injective hkey))

end InteractiveProxy.Economics
