import InteractiveProxy.GoText
import Mathlib.Data.List.Lex
import Mathlib.Data.Prod.Lex
import Mathlib.Data.UInt

/-! Stable sorting by a key. Where the key tells the elements apart, the order of the input does not
matter. -/
namespace InteractiveProxy.KeySort

variable {α κ : Type*} [LinearOrder κ]

/-- `sort.SliceStable` with the order of the keys. -/
def sortBy (key : α → κ) (xs : List α) : List α := xs.insertionSort fun a b => key a ≤ key b

lemma sortBy_perm (key : α → κ) (xs : List α) : (sortBy key xs).Perm xs :=
  List.perm_insertionSort _ xs

variable {key : α → κ} {xs : List α} {a : α}

@[simp] lemma mem_sortBy : a ∈ sortBy key xs ↔ a ∈ xs := (sortBy_perm key xs).mem_iff

lemma sortBy_sorted (key : α → κ) (xs : List α) :
    (sortBy key xs).Pairwise fun a b => key a ≤ key b := by
  exact List.pairwise_insertionSort _ xs

lemma sortBy_of_sorted (h : xs.Pairwise fun a b => key a ≤ key b) : sortBy key xs = xs :=
  h.insertionSort_eq

lemma sortBy_sortBy (key : α → κ) (xs : List α) : sortBy key (sortBy key xs) = sortBy key xs :=
  sortBy_of_sorted (sortBy_sorted key xs)

lemma sortBy_eq_of_perm {ys : List α} (hperm : xs.Perm ys)
    (hkey : ∀ a ∈ xs, ∀ b ∈ xs, key a = key b → a = b) : sortBy key xs = sortBy key ys := by
  apply List.Perm.eq_of_pairwise _ (sortBy_sorted key xs) (sortBy_sorted key ys)
  · exact (sortBy_perm key xs).trans (hperm.trans (sortBy_perm key ys).symm)
  · intro a b ha hb hab hba
    exact hkey a (mem_sortBy.mp ha) b (hperm.mem_iff.mpr (mem_sortBy.mp hb)) (le_antisymm hab hba)

lemma eq_of_key_of_nodup {β : Type*} {key : α → β} (h : (xs.map key).Nodup) :
    ∀ a ∈ xs, ∀ b ∈ xs, key a = key b → a = b :=
  fun _ ha _ hb => List.inj_on_of_nodup_map h ha hb

/-- A list without the elements that repeat the one in front of them. -/
def compact [DecidableEq α] : List α → List α
  | [] => []
  | [a] => [a]
  | a :: b :: rest => if a = b then compact (b :: rest) else a :: compact (b :: rest)

@[simp] lemma mem_compact [DecidableEq α] (xs : List α) : a ∈ compact xs ↔ a ∈ xs := by
  fun_induction compact xs with
  | case1 => rfl
  | case2 b => rfl
  | case3 b rest ih => simp [ih]
  | case4 b c rest hne ih => rw [List.mem_cons, ih, ← List.mem_cons]

def textOrder (s : GoText.GoStr) : List ℕ := s.map UInt8.toNat

lemma textOrder_injective : Function.Injective textOrder :=
  List.map_injective_iff.mpr fun _ _ => UInt8.toNat_inj.mp

end InteractiveProxy.KeySort
