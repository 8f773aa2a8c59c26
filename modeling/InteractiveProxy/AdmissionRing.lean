import Mathlib.Data.List.Basic
import Mathlib.Tactic.Common

/-! A ring of `cap` places that keeps the latest writes. The place of write `j` is `j % cap`, and
each place carries the stamp of its write. Stamps may repeat, so long as `cap` consecutive writes
have different ones: no stamp then stands in two places at once. -/
namespace InteractiveProxy.AdmissionRing

variable {α σ : Type*} {stampOf : α → σ} {stamp : ℕ → σ} {cap n : ℕ} {slots : List α}

/-- The ring after `n` writes. -/
structure Written (stampOf : α → σ) (stamp : ℕ → σ) (cap n : ℕ) (slots : List α) : Prop where
  length : slots.length = min n cap
  recent : ∀ i slot, slots[i]? = some slot → ∃ j, j < n ∧ n ≤ j + cap ∧ j % cap = i ∧
    stampOf slot = stamp j

lemma written_nil : Written stampOf stamp cap 0 [] := ⟨by simp, by simp⟩

section

variable (h : Written stampOf stamp cap n slots) {slot : α}
include h

/-- A write while the ring fills. -/
lemma Written.append (hn : n < cap) (hslot : stampOf slot = stamp n) :
    Written stampOf stamp cap (n + 1) (slots ++ [slot]) := by
  have hlen := h.length
  refine ⟨by rw [List.length_append, List.length_singleton]; omega, fun i s hs => ?_⟩
  rw [List.getElem?_append] at hs
  split_ifs at hs
  · obtain ⟨j, hj, hrecent, hmod, hstamp⟩ := h.recent i s hs
    exact ⟨j, by omega, by omega, hmod, hstamp⟩
  · obtain ⟨hlast, rfl⟩ : i - slots.length = 0 ∧ s = slot := by
      cases hdiff : i - slots.length with
      | zero => simpa [hdiff, eq_comm] using hs
      | succ k => simp [hdiff] at hs
    exact ⟨n, by omega, by omega, by rw [Nat.mod_eq_of_lt hn]; omega, hslot⟩

/-- A write over the oldest place of a full ring. -/
lemma Written.set (hn : cap ≤ n) (hcap : 0 < cap) (hslot : stampOf slot = stamp n) :
    Written stampOf stamp cap (n + 1) (slots.set (n % cap) slot) := by
  have hlen := h.length
  refine ⟨by rw [List.length_set]; omega, fun i s hs => ?_⟩
  rw [List.getElem?_set] at hs
  split_ifs at hs with hi hlt
  · cases hs
    exact ⟨n, by omega, by omega, hi, hslot⟩
  · obtain ⟨j, hj, hrecent, hmod, hstamp⟩ := h.recent i s hs
    refine ⟨j, by omega, ?_, hmod, hstamp⟩
    -- the oldest write is the one that is written over
    have hne : n ≠ j + cap := by
      rintro rfl
      exact hi (by rw [Nat.add_mod_right, hmod])
    omega

lemma Written.unique
    (hstamp : ∀ j k, stamp j = stamp k → j < k + cap → k < j + cap → j = k) {i j : ℕ} {s t : α}
    (hs : slots[i]? = some s) (ht : slots[j]? = some t) (heq : stampOf s = stampOf t) : i = j := by
  obtain ⟨k, hk, hkcap, rfl, hks⟩ := h.recent i s hs
  obtain ⟨l, hl, hlcap, rfl, hlt⟩ := h.recent j t ht
  have hkl : k = l := hstamp k l (by rw [← hks, ← hlt, heq]) (by omega) (by omega)
  rw [hkl]

end

end InteractiveProxy.AdmissionRing
