import Mathlib.Algebra.BigOperators.Group.List.Basic
import Mathlib.Data.List.Nodup
import Mathlib.Order.Nat
import Mathlib.Tactic.Common

/-! Finite forests, given by the children of each node: a node has one parent at most, and ranks
fall from parents to children. Where each node is worth as much as its children together, it is
worth as much as the leaves below it. -/
namespace InteractiveProxy.ForestSum

open Relation List

variable {ν : Type}

def Child (kids : ν → List ν) (n c : ν) : Prop := c ∈ kids n

structure Forest (kids : ν → List ν) (rank : ν → ℕ) : Prop where
  descends : ∀ {n c}, c ∈ kids n → rank c < rank n
  parent_unique : ∀ {a b c}, c ∈ kids a → c ∈ kids b → a = b
  nodup : ∀ n, (kids n).Nodup

variable {kids : ν → List ν} {rank : ν → ℕ} {n : ν}

section

variable (h : Forest kids rank)

include h

lemma Forest.rank_le {m : ν} (hpath : ReflTransGen (Child kids) n m) : rank m ≤ rank n := by
  induction hpath with
  | refl => exact le_rfl
  | tail _ hchild ih => exact (h.descends hchild).le.trans ih

lemma Forest.ancestors_total {a b x : ν} (ha : ReflTransGen (Child kids) a x)
    (hb : ReflTransGen (Child kids) b x) :
    ReflTransGen (Child kids) a b ∨ ReflTransGen (Child kids) b a := by
  have hunique : Relator.RightUnique (Function.swap (Child kids)) :=
    fun _ _ _ hp hq => h.parent_unique hp hq
  rcases ReflTransGen.total_of_right_unique hunique (reflTransGen_swap.mpr ha)
    (reflTransGen_swap.mpr hb) with hab | hba
  · exact .inr (reflTransGen_swap.mp hab)
  · exact .inl (reflTransGen_swap.mp hba)

lemma Forest.through_parent {a c : ν} (hc : c ∈ kids n) (hpath : ReflTransGen (Child kids) a c) :
    a = c ∨ ReflTransGen (Child kids) a n := by
  rcases ReflTransGen.cases_tail hpath with heq | ⟨p, hp, hchild⟩
  · exact .inl heq.symm
  · exact .inr (h.parent_unique hchild hc ▸ hp)

lemma Forest.disjoint_below {c c' x : ν} (hc : c ∈ kids n) (hc' : c' ∈ kids n)
    (hx : ReflTransGen (Child kids) c x) (hx' : ReflTransGen (Child kids) c' x) : c = c' := by
  have hline : ∀ {a b}, a ∈ kids n → b ∈ kids n → ReflTransGen (Child kids) a b → a = b := by
    intro a b ha hb hab
    rcases h.through_parent hb hab with heq | hpath
    · exact heq
    · exact absurd (h.descends ha) (not_lt.mpr (h.rank_le hpath))
  rcases h.ancestors_total hx hx' with hcc | hcc
  · exact hline hc hc' hcc
  · exact (hline hc' hc hcc).symm

end

variable {M : Type} [AddCommMonoid M] {value : ν → M}

lemma sum_flatMap (l : List ν) (f : ν → List ν) :
    ((l.flatMap f).map value).sum = (l.map fun c => ((f c).map value).sum).sum := by
  induction l with
  | nil => rfl
  | cons c rest ih => rw [flatMap_cons, map_append, sum_append, ih, map_cons, sum_cons]

lemma Forest.leaves_of_children (h : Forest kids rank) {leaf : ν → Prop} (below : ν → List ν)
    (hbelow : ∀ c ∈ kids n, (below c).Nodup ∧ (∀ x ∈ below c, ReflTransGen (Child kids) c x ∧ leaf x) ∧
      ((below c).map value).sum = value c)
    (hvalue : value n = ((kids n).map value).sum) :
    ∃ leaves : List ν, leaves.Nodup ∧ (∀ x ∈ leaves, TransGen (Child kids) n x ∧ leaf x) ∧
      (leaves.map value).sum = value n := by
  refine ⟨(kids n).flatMap below, ?_, ?_, ?_⟩
  · refine nodup_flatMap.mpr ⟨fun c hc => (hbelow c hc).1, ?_⟩
    refine (h.nodup n).imp_of_mem fun {c c'} hc hc' hne => ?_
    intro x hx hx'
    exact hne (h.disjoint_below hc hc' ((hbelow c hc).2.1 x hx).1 ((hbelow c' hc').2.1 x hx').1)
  · intro x hx
    obtain ⟨c, hc, hx⟩ := mem_flatMap.mp hx
    obtain ⟨hpath, hleaf⟩ := (hbelow c hc).2.1 x hx
    exact ⟨TransGen.head' hc hpath, hleaf⟩
  · rw [sum_flatMap, hvalue]
    exact congrArg sum (map_congr_left fun c hc => (hbelow c hc).2.2)

variable (value) in
/-- Where the children of inner nodes are inner nodes or leaves, and inner nodes are worth as much
as their children, an inner node is worth as much as some leaves below it. -/
lemma Forest.exists_leaves (h : Forest kids rank) (leaf : ν → Prop) {inner : ν → Prop}
    (hinner : ∀ n, inner n → value n = ((kids n).map value).sum ∧ ∀ c ∈ kids n, leaf c ∨ inner c)
    (hn : inner n) :
    ∃ leaves : List ν, leaves.Nodup ∧ (∀ x ∈ leaves, TransGen (Child kids) n x ∧ leaf x) ∧
      (leaves.map value).sum = value n := by
  induction hrank : rank n using Nat.strong_induction_on generalizing n with
  | _ r ih =>
    obtain ⟨hvalue, hkids⟩ := hinner n hn
    have hbelow : ∀ c, ∃ below : List ν, c ∈ kids n → below.Nodup ∧
        (∀ x ∈ below, ReflTransGen (Child kids) c x ∧ leaf x) ∧
        (below.map value).sum = value c := by
      intro c
      by_cases hc : c ∈ kids n
      · rcases hkids c hc with hleaf | hin
        · refine ⟨[c], fun _ => ⟨nodup_singleton c, fun x hx => ?_, by simp⟩⟩
          rw [mem_singleton.mp hx]
          exact ⟨.refl, hleaf⟩
        · obtain ⟨leaves, hnodup, hleaves, hsum⟩ := ih (rank c) (hrank ▸ h.descends hc) hin rfl
          exact ⟨leaves, fun _ => ⟨hnodup, fun x hx => ⟨(hleaves x hx).1.to_reflTransGen, (hleaves x hx).2⟩, hsum⟩⟩
      · exact ⟨[], fun h => absurd h hc⟩
    choose below hbelow using hbelow
    exact h.leaves_of_children below hbelow hvalue

end InteractiveProxy.ForestSum
