import Mathlib.Data.Nat.Count
import Mathlib.Algebra.BigOperators.Group.List.Basic
import Mathlib.Algebra.Order.Ring.Int

/-! Counting over a cycle: how often a predicate of the positions of a list holds in a window of one
turn, from any position on. -/
namespace InteractiveProxy.CyclicCount
open List

variable {α κ : Type*}

lemma count_window (p : ℕ → Prop) [DecidablePred p] (n start : ℕ) :
    Nat.count (fun k => p ((start + k) % n)) n = Nat.count (fun k => p (k % n)) n := by
  induction start with
  | zero => simp only [Nat.zero_add]
  | succ start ih =>
    have hfront := Nat.count_succ' (fun k => p ((start + k) % n)) n
    have hback := Nat.count_succ (fun k => p ((start + k) % n)) n
    have hsame : (start + n) % n = (start + 0) % n := by rw [Nat.add_mod_right, Nat.add_zero]
    have hshift : (fun k => p ((start + (k + 1)) % n)) = fun k => p ((start + 1 + k) % n) := by
      funext k
      rw [Nat.add_assoc, Nat.add_comm 1 k]
    simp only [hsame] at hback
    simp only [hshift] at hfront
    omega

lemma count_getElem (p : α → Prop) [DecidablePred p] (l : List α) :
    Nat.count (fun k => ∃ a, l[k]? = some a ∧ p a) l.length = l.countP (fun a => decide (p a)) := by
  induction l with
  | nil => rfl
  | cons a l ih =>
    rw [length_cons, Nat.count_succ', countP_cons]
    simp only [getElem?_cons_succ]
    rw [ih]
    simp

lemma count_cycle (p : α → Prop) [DecidablePred p] (l : List α) (start : ℕ) :
    Nat.count (fun k => ∃ a, l[(start + k) % l.length]? = some a ∧ p a) l.length =
      l.countP (fun a => decide (p a)) := by
  rw [count_window (fun k => ∃ a, l[k]? = some a ∧ p a), ← count_getElem]
  refine countP_congr fun k hk => ?_
  simp only [Nat.mod_eq_of_lt (mem_range.mp hk)]

lemma sum_of_key [DecidableEq κ] {key : α → κ} (f : α → ℕ) {l : List α} (hkeys : (l.map key).Nodup)
    {a : α} (ha : a ∈ l) : (l.map fun x => if key x = key a then f x else 0).sum = f a := by
  induction l with
  | nil => cases ha
  | cons b l ih =>
    rw [map_cons, nodup_cons] at hkeys
    rw [map_cons, sum_cons]
    rcases mem_cons.mp ha with rfl | ha
    · have hrest : (l.map fun x => if key x = key a then f x else 0).sum = 0 := by
        refine sum_eq_zero fun y hy => ?_
        obtain ⟨x, hx, rfl⟩ := mem_map.mp hy
        refine if_neg fun hkey => hkeys.1 ?_
        rw [← hkey]
        exact mem_map_of_mem hx
      rw [if_pos rfl, hrest, Nat.add_zero]
    · have hne : key b ≠ key a := by
        intro hkey
        exact hkeys.1 (hkey ▸ mem_map_of_mem ha)
      rw [if_neg hne, ih hkeys.2 ha, Nat.zero_add]

end InteractiveProxy.CyclicCount
