import Mathlib.Algebra.BigOperators.Group.List.Lemmas
import Mathlib.Algebra.Order.BigOperators.Group.List
import Mathlib.Algebra.Order.Ring.Int
import Mathlib.Data.Finset.Card
import Mathlib.Data.List.AList

/-! Finite tables with distinct keys, the total of an integer measure over their rows, and the
number of rows that satisfy a test. A table row is replaced by `AList.insert`; `total_insert` is all
that the balance proofs need of the representation, `count_le_of_subset` all that the counting
proofs need. -/
namespace InteractiveProxy.KeyedTable

open List

variable {κ α : Type*} [DecidableEq κ]

abbrev Table (κ α : Type*) := AList (fun _ : κ => α)

/-- Sum of `f` over the rows of a table. -/
def total (f : α → ℤ) (t : Table κ α) : ℤ := (t.entries.map fun e => f e.2).sum

/-- What the row under `k` contributes to `total`. -/
def share (f : α → ℤ) (k : κ) (t : Table κ α) : ℤ := ((t.lookup k).map f).getD 0

variable {t : Table κ α} {k k' : κ} {v old : α} {f : α → ℤ} {p q : α → Bool}

lemma share_of_lookup (h : t.lookup k = some v) : share f k t = f v := by
  simp [share, h]

lemma share_of_absent (h : t.lookup k = none) : share f k t = 0 := by
  simp [share, h]

section

variable (f : α → ℤ) (k : κ)

private lemma sum_kerase (l : List (Sigma fun _ : κ => α)) : ((l.kerase k).map fun e => f e.2).sum =
      (l.map fun e => f e.2).sum - ((l.dlookup k).map f).getD 0 := by
  induction l with
  | nil => simp
  | cons e l ih =>
    obtain ⟨k', v⟩ := e
    by_cases h : k = k'
    · subst h
      simp
    · rw [kerase_cons_ne h, dlookup_cons_ne l ⟨k', v⟩ h]
      simp only [map_cons, sum_cons]
      omega

lemma total_insert (v : α) (t : Table κ α) :
    total f (t.insert k v) = total f t - share f k t + f v := by
  have h := sum_kerase f k t.entries
  simp only [total, share, AList.entries_insert, map_cons, sum_cons, AList.lookup]
  omega

lemma total_erase (t : Table κ α) : total f (t.erase k) = total f t - share f k t :=
  sum_kerase f k t.entries

end

lemma total_insert_of_absent (h : t.lookup k = none) :
    total f (t.insert k v) = total f t + f v := by
  rw [total_insert, share_of_absent h]
  omega

lemma total_insert_of_lookup (h : t.lookup k = some old) :
    total f (t.insert k v) = total f t - f old + f v := by
  rw [total_insert, share_of_lookup h]

lemma lookup_of_mem_entries (h : ⟨k, v⟩ ∈ t.entries) : t.lookup k = some v :=
  AList.mem_lookup_iff.mpr h

lemma mem_entries_of_lookup (h : t.lookup k = some v) : ⟨k, v⟩ ∈ t.entries :=
  AList.mem_lookup_iff.mp h

lemma total_nonneg (h : ∀ k v, t.lookup k = some v → 0 ≤ f v) : 0 ≤ total f t := by
  apply sum_nonneg
  intro x hx
  obtain ⟨e, he, rfl⟩ := mem_map.mp hx
  exact h e.1 e.2 (lookup_of_mem_entries he)

lemma le_total (h : ∀ k v, t.lookup k = some v → 0 ≤ f v) (hv : t.lookup k = some v) :
    f v ≤ total f t := by
  apply single_le_sum
  · intro x hx
    obtain ⟨e, he, rfl⟩ := mem_map.mp hx
    exact h e.1 e.2 (lookup_of_mem_entries he)
  · exact mem_map.mpr ⟨⟨k, v⟩, mem_entries_of_lookup hv, rfl⟩

lemma total_eq_zero (h : ∀ k v, t.lookup k = some v → f v = 0) : total f t = 0 := by
  apply sum_eq_zero
  intro x hx
  obtain ⟨e, he, rfl⟩ := mem_map.mp hx
  exact h e.1 e.2 (lookup_of_mem_entries he)

lemma lookup_insert_eq : (t.insert k v).lookup k' = if k' = k then some v else t.lookup k' := by
  split_ifs with h
  · subst h
    exact AList.lookup_insert t
  · exact AList.lookup_insert_ne h

lemma lookup_erase_eq : (t.erase k).lookup k' = if k' = k then none else t.lookup k' := by
  split_ifs with h
  · subst h
    exact AList.lookup_erase _ t
  · exact AList.lookup_erase_ne h

def size (t : Table κ α) : ℕ := t.entries.length

lemma size_erase_of_lookup (h : t.lookup k = some v) : size (t.erase k) + 1 = size t := by
  obtain ⟨_, before, after, -, hentries, herase⟩ :=
    exists_of_kerase (mem_keys_of_mem (mem_entries_of_lookup h))
  change (t.entries.kerase k).length + 1 = t.entries.length
  rw [herase, hentries]
  simp only [length_append, length_cons]
  omega

lemma size_insert_of_absent (h : t.lookup k = none) : size (t.insert k v) = size t + 1 := by
  rw [size, AList.entries_insert_of_notMem (AList.lookup_eq_none.mp h)]
  rfl

lemma size_insert_of_lookup (h : t.lookup k = some old) : size (t.insert k v) = size t := by
  rw [← size_erase_of_lookup h]
  rfl

lemma size_le_of_keys {l : List κ} (h : ∀ k v, t.lookup k = some v → k ∈ l) :
    size t ≤ l.length := by
  have hsub : t.keys ⊆ l := by
    intro k hk
    obtain ⟨v, hv⟩ := AList.mem_keys.mp hk |> AList.lookup_isSome.mpr |> Option.isSome_iff_exists.mp
    exact h k v hv
  have hlen := (t.keys_nodup.subperm hsub).length_le
  rwa [AList.keys, keys, length_map] at hlen

def mapRows (f : α → α) (t : Table κ α) : Table κ α where
  entries := t.entries.map fun e => ⟨e.1, f e.2⟩
  nodupKeys := by simpa [List.NodupKeys, keys, Function.comp_def] using t.nodupKeys

lemma lookup_mapRows (f : α → α) (t : Table κ α) (k : κ) :
    (mapRows f t).lookup k = (t.lookup k).map f := by
  change (t.entries.map fun e => (⟨e.1, f e.2⟩ : Sigma fun _ : κ => α)).dlookup k =
    (t.entries.dlookup k).map f
  induction t.entries with
  | nil => simp
  | cons e l ih =>
    obtain ⟨k', v⟩ := e
    by_cases h : k = k'
    · subst h
      simp
    · rw [dlookup_cons_ne l ⟨k', v⟩ h, ← ih]
      exact dlookup_cons_ne _ _ h

/-- The rows that satisfy `p`. -/
def keep (p : κ → α → Bool) (t : Table κ α) : Table κ α where
  entries := t.entries.filter fun e => p e.1 e.2
  nodupKeys := t.nodupKeys.sublist filter_sublist

lemma lookup_keep {p : κ → α → Bool} : (keep p t).lookup k = some v ↔ t.lookup k = some v ∧
    p k v := by
  have hkeep : (keep p t).lookup k = some v ↔ ⟨k, v⟩ ∈ (keep p t).entries := AList.mem_lookup_iff
  have htable : t.lookup k = some v ↔ ⟨k, v⟩ ∈ t.entries := AList.mem_lookup_iff
  rw [hkeep, htable]
  exact mem_filter

omit [DecidableEq κ] in
lemma size_keep_le (p : κ → α → Bool) (t : Table κ α) : size (keep p t) ≤ size t :=
  length_filter_le _ _

structure RangeOrder (α : Type*) where
  arrange : List α → List α
  perm : ∀ l, (arrange l).Perm l

def RangeOrder.tableOrder : RangeOrder α := ⟨id, List.Perm.refl⟩

def rowsIn (order : RangeOrder α) (t : Table κ α) : List α :=
  order.arrange (t.entries.map Sigma.snd)

lemma mem_rowsIn {order : RangeOrder α} : v ∈ rowsIn order t ↔ ∃ k, t.lookup k = some v := by
  rw [rowsIn, (order.perm _).mem_iff, mem_map]
  constructor
  · rintro ⟨e, he, rfl⟩
    exact ⟨e.1, lookup_of_mem_entries he⟩
  · rintro ⟨k, hk⟩
    exact ⟨⟨k, v⟩, mem_entries_of_lookup hk, rfl⟩

def pairsIn (order : RangeOrder (κ × α)) (t : Table κ α) : List (κ × α) :=
  order.arrange (t.entries.map fun e => (e.1, e.2))

lemma lookup_of_mem_pairsIn {order : RangeOrder (κ × α)} (h : (k, v) ∈ pairsIn order t) :
    t.lookup k = some v := by
  rw [pairsIn, (order.perm _).mem_iff, mem_map] at h
  obtain ⟨e, he, heq⟩ := h
  obtain ⟨rfl, rfl⟩ := Prod.mk.inj heq
  exact lookup_of_mem_entries he

/-- The number of rows that satisfy `p`. -/
def countRows (p : α → Bool) (t : Table κ α) : ℕ := t.entries.countP fun e => p e.2

/-- The keys of the rows that satisfy `p`. -/
def keysWhere (p : α → Bool) (t : Table κ α) : Finset κ :=
  (t.entries.filter fun e => p e.2).keys.toFinset

lemma mem_keysWhere : k ∈ keysWhere p t ↔ ∃ v, t.lookup k = some v ∧ p v := by
  simp only [keysWhere, mem_toFinset, mem_keys, mem_filter]
  constructor
  · rintro ⟨v, hv, hp⟩
    exact ⟨v, lookup_of_mem_entries hv, hp⟩
  · rintro ⟨v, hv, hp⟩
    exact ⟨v, mem_entries_of_lookup hv, hp⟩

lemma countRows_eq_card (p : α → Bool) (t : Table κ α) : countRows p t = (keysWhere p t).card := by
  have hsub : (t.entries.filter fun e => p e.2).NodupKeys := t.nodupKeys.sublist filter_sublist
  rw [keysWhere, toFinset_card_of_nodup hsub, countRows, countP_eq_length_filter, keys, length_map]

/-- Rows that satisfy `p` in one table satisfy `q` in the other under the same key. -/
lemma count_le_of_subset {β : Type*} {p : β → Bool} {t' : Table κ β}
    (h : ∀ k v, t'.lookup k = some v → p v → ∃ w, t.lookup k = some w ∧ q w) :
    countRows p t' ≤ countRows q t := by
  rw [countRows_eq_card, countRows_eq_card]
  apply Finset.card_le_card
  intro k hk
  obtain ⟨v, hv, hp⟩ := mem_keysWhere.mp hk
  exact mem_keysWhere.mpr (h k v hv hp)

omit [DecidableEq κ] in
lemma countRows_le_size (p : α → Bool) (t : Table κ α) : countRows p t ≤ size t := countP_le_length

lemma count_le_succ {t' : Table κ α} (k0 : κ)
    (h : ∀ k v, k ≠ k0 → t'.lookup k = some v → p v → ∃ w, t.lookup k = some w ∧ q w) :
    countRows p t' ≤ countRows q t + 1 := by
  rw [countRows_eq_card, countRows_eq_card]
  have hsub : keysWhere p t' ⊆ insert k0 (keysWhere q t) := by
    intro k hk
    obtain ⟨v, hv, hp⟩ := mem_keysWhere.mp hk
    by_cases hk0 : k = k0
    · exact Finset.mem_insert.mpr (.inl hk0)
    · exact Finset.mem_insert.mpr (.inr (mem_keysWhere.mpr (h k v hk0 hv hp)))
  exact (Finset.card_le_card hsub).trans (Finset.card_insert_le k0 _)

end InteractiveProxy.KeyedTable

namespace InteractiveProxy.LedgerBalance

open KeyedTable

variable {κ ι ρ ε : Type*} [DecidableEq κ] [DecidableEq ι]

/-- What the entries owned by `k` add up to. -/
def owed (owner : ε → κ) (weight : ε → ℤ) (entries : Table ι ε) (k : κ) : ℤ :=
  total (fun e => if owner e = k then weight e else 0) entries

section Owed

variable {owner : ε → κ} {weight : ε → ℤ} {entries : Table ι ε} {i : ι} {e old : ε} {k : κ}

lemma owed_insert_new (h : entries.lookup i = none) (k : κ) :
    owed owner weight (entries.insert i e) k =
      owed owner weight entries k + if owner e = k then weight e else 0 := by
  rw [owed, total_insert_of_absent h]
  rfl

lemma owed_insert_old (h : entries.lookup i = some old) (k : κ) :
    owed owner weight (entries.insert i e) k =
      owed owner weight entries k - (if owner old = k then weight old else 0) +
        if owner e = k then weight e else 0 := by
  rw [owed, total_insert_of_lookup h]
  rfl

lemma owed_nonneg (h : ∀ i e, entries.lookup i = some e → 0 ≤ weight e) (k : κ) :
    0 ≤ owed owner weight entries k := by
  apply total_nonneg
  intro i e hi
  split_ifs
  · exact h i e hi
  · exact le_rfl

lemma weight_le_owed (weight : ε → ℤ) (h : ∀ i e, entries.lookup i = some e → 0 ≤ weight e)
    (hi : entries.lookup i = some e) :
    weight e ≤ owed owner weight entries (owner e) := by
  have hnonneg : ∀ j x, entries.lookup j = some x → 0 ≤ if owner x = owner e then weight x
    else 0 := by
    intro j x hj
    split_ifs
    · exact h j x hj
    · exact le_rfl
  have hle := le_total hnonneg hi
  rwa [if_pos rfl] at hle

lemma owed_eq_zero (h : ∀ i e, entries.lookup i = some e → owner e ≠ k) :
    owed owner weight entries k = 0 := by
  apply total_eq_zero
  intro i e hi
  rw [if_neg (h i e hi)]

omit [DecidableEq ι] in
@[simp] lemma owed_empty (k : κ) : owed owner weight (∅ : Table ι ε) k = 0 := rfl

end Owed

def Balanced (counter : ρ → ℤ) (expected : κ → ℤ) (rows : Table κ ρ) : Prop :=
  ∀ k r, rows.lookup k = some r → counter r = expected k

variable {counter : ρ → ℤ} {expected expected' : κ → ℤ} {rows : Table κ ρ}

lemma balanced_iff_entries :
    Balanced counter expected rows ↔ ∀ e ∈ rows.entries, counter e.2 = expected e.1 :=
  ⟨fun h e he => h e.1 e.2 (lookup_of_mem_entries he), fun h _ _ hk => h _ (mem_entries_of_lookup hk)⟩

instance : Decidable (Balanced counter expected rows) := decidable_of_iff' _ balanced_iff_entries

/-- Writing one row, when only that row's expectation changed. -/
lemma Balanced.write (h : Balanced counter expected rows) {rows' : Table κ ρ} {k : κ} {r : ρ}
    (hrows : ∀ j, rows'.lookup j = if j = k then some r else rows.lookup j)
    (hk : counter r = expected' k)
    (hother : ∀ j, j ≠ k → expected' j = expected j) : Balanced counter expected' rows' := by
  intro j r' hj
  rw [hrows] at hj
  split_ifs at hj with hjk
  · cases hj
    rw [hjk, hk]
  · rw [hother j hjk]
    exact h j r' hj

lemma Balanced.congr (h : Balanced counter expected rows) (he : ∀ k, expected' k = expected k) :
    Balanced counter expected' rows := by
  intro k r hk
  rw [he, h k r hk]

end InteractiveProxy.LedgerBalance
