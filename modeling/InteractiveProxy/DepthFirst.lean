import InteractiveProxy.GuardedRun
import Mathlib.Algebra.Order.Ring.Int
import Mathlib.Data.Finset.Max
import Mathlib.Data.List.Range

/-! Walks over a graph given by the list of edges of each node. A depth-first walk that finds no
cycle leaves the nodes in an order in which each stands in front of those it points to; inductions
over that order take the place of inductions over the graph. -/
namespace InteractiveProxy.DepthFirst

open GuardedRun List

variable {ν : Type} {edges : ν → List ν}

inductive Failure (ν : Type)
  | cycle (node : ν)
  | outOfFuel

inductive Ordered (edges : ν → List ν) : List ν → Prop
  | nil : Ordered edges []
  | cons {n : ν} {rest : List ν} :
    (∀ p ∈ edges n, p ∈ rest) → Ordered edges rest → Ordered edges (n :: rest)

variable {nodes out closed : List ν} {n p : ν}

lemma Ordered.mem_of_edge (h : Ordered edges nodes) (hn : n ∈ nodes) (hp : p ∈ edges n) :
    p ∈ nodes := by
  induction h with
  | nil => cases hn
  | @cons m rest hedges _ ih =>
    rcases mem_cons.mp hn with rfl | hn
    · exact mem_cons_of_mem n (hedges p hp)
    · exact mem_cons_of_mem m (ih hn)

lemma Ordered.exists_rank [DecidableEq ν] (h : Ordered edges nodes) :
    ∃ rank : ν → ℕ, ∀ n ∈ nodes, rank n < nodes.length ∧ ∀ p ∈ edges n, rank p < rank n := by
  induction h with
  | nil => exact ⟨fun _ => 0, nofun⟩
  | @cons m rest hedges hrest ih =>
    obtain ⟨rank, hrank⟩ := ih
    by_cases hm : m ∈ rest
    · refine ⟨rank, fun n hn => ?_⟩
      have hn' : n ∈ rest := (mem_cons.mp hn).elim (fun h : n = m => h ▸ hm) id
      exact ⟨Nat.lt_succ_of_lt (hrank n hn').1, (hrank n hn').2⟩
    · -- A new node goes above all that are in order already.
      have hold : ∀ p ∈ rest, (if p = m then rest.length else rank p) = rank p := fun p hp =>
        if_neg fun h : p = m => hm (h ▸ hp)
      refine ⟨fun n => if n = m then rest.length else rank n, fun n hn => ?_⟩
      rcases mem_cons.mp hn with rfl | hn
      · simp only [if_pos]
        refine ⟨Nat.lt_succ_self _, fun p hp => ?_⟩
        rw [hold p (hedges p hp)]
        exact (hrank p (hedges p hp)).1
      · simp only [hold n hn]
        refine ⟨Nat.lt_succ_of_lt (hrank n hn).1, fun p hp => ?_⟩
        rw [hold p (hrest.mem_of_edge hn hp)]
        exact (hrank n hn).2 p hp

lemma foldlM_ordered {step : List ν → ν → Except (Failure ν) (List ν)}
    (hstep : ∀ {closed out n}, step closed n = .ok out → Ordered edges closed → Ordered edges out ∧
      closed ⊆ out ∧ n ∈ out)
    (h : nodes.foldlM step closed = .ok out) (hclosed : Ordered edges closed) :
    Ordered edges out ∧ closed ⊆ out ∧ ∀ n ∈ nodes, n ∈ out := by
  induction nodes generalizing closed with
  | nil =>
    cases h
    exact ⟨hclosed, List.Subset.refl _, nofun⟩
  | cons n rest ih =>
    obtain ⟨mid, hmid, h⟩ := bind_eq_ok.mp h
    obtain ⟨hord, hsub, hn⟩ := hstep hmid hclosed
    obtain ⟨hord', hsub', hrest⟩ := ih h hord
    exact ⟨hord', List.Subset.trans hsub hsub', forall_mem_cons.mpr ⟨hsub' hn, hrest⟩⟩

variable [DecidableEq ν]

/-- A visit of a node: `path` has the nodes that are being visited, `closed` those that are done. -/
def visit (edges : ν → List ν) : ℕ → List ν → List ν → ν → Except (Failure ν) (List ν)
  | 0, _, _, _ => .error .outOfFuel
  | fuel + 1, path, closed, n =>
    if n ∈ path then .error (.cycle n)
    else if n ∈ closed then .ok closed
    else do
      let closed ← (edges n).foldlM (visit edges fuel (n :: path)) closed
      return n :: closed

def visitAll (edges : ν → List ν) (fuel : ℕ) (nodes : List ν) : Except (Failure ν) (List ν) :=
  nodes.foldlM (visit edges fuel []) []

variable {fuel : ℕ}

lemma visit_ordered {path : List ν} (h : visit edges fuel path closed n = .ok out)
    (hclosed : Ordered edges closed) : Ordered edges out ∧ closed ⊆ out ∧ n ∈ out := by
  induction fuel generalizing path closed out n with
  | zero => cases h
  | succ fuel ih =>
    unfold visit at h
    split_ifs at h with hpath hdone
    · cases h
      exact ⟨hclosed, List.Subset.refl _, hdone⟩
    · obtain ⟨mid, hmid, h⟩ := bind_eq_ok.mp h
      cases h
      obtain ⟨hord, hsub, hedges⟩ := foldlM_ordered ih hmid hclosed
      exact ⟨.cons hedges hord, List.Subset.trans hsub (subset_cons_self n mid), mem_cons_self⟩

lemma visitAll_ordered (h : visitAll edges fuel nodes = .ok out) :
    Ordered edges out ∧ ∀ n ∈ nodes, n ∈ out := by
  obtain ⟨hord, -, hnodes⟩ := foldlM_ordered visit_ordered h .nil
  exact ⟨hord, hnodes⟩

section Settled

variable (edges) (stuck known : ν → Bool)

/-- A node is settled when nothing holds it up and all it points to is known and settled. -/
inductive Settled : ν → Prop
  | intro {n : ν} :
    stuck n = false → (∀ p ∈ edges n, known p) → (∀ p ∈ edges n, Settled p) → Settled n

def settleEach (settle : List (ν × Bool) → ν → Bool × List (ν × Bool)) :
    List (ν × Bool) → List ν → Bool × List (ν × Bool)
  | memo, [] => (true, memo)
  | memo, p :: rest =>
    if known p then
      match settle memo p with
      | (true, memo) => settleEach settle memo rest
      | (false, memo) => (false, memo)
    else (false, memo)

def settle : ℕ → List (ν × Bool) → ν → Bool × List (ν × Bool)
  | 0, memo, _ => (false, memo)
  | fuel + 1, memo, n =>
    match memo.lookup n with
    | some b => (b, memo)
    | none =>
      if stuck n then (false, (n, false) :: memo)
      else
        let (b, memo) := settleEach known (settle fuel) memo (edges n)
        (b, (n, b) :: memo)

def Sound (memo : List (ν × Bool)) : Prop :=
  ∀ n b, (n, b) ∈ memo → (b ↔ Settled edges stuck known n)

structure Answers (memo : List (ν × Bool)) (P : Prop) (r : Bool × List (ν × Bool)) : Prop where
  answer : r.1 ↔ P
  sound : Sound edges stuck known r.2
  grows : memo ⊆ r.2

variable {edges stuck known} {memo : List (ν × Bool)} {order : List ν} {b : Bool}

lemma mem_of_lookup (h : memo.lookup n = some b) : (n, b) ∈ memo := by
  obtain ⟨front, back, rfl, -⟩ := lookup_eq_some_iff.mp h
  simp

omit [DecidableEq ν] in
lemma settleEach_answers {step : List (ν × Bool) → ν → Bool × List (ν × Bool)}
    (hstep : ∀ p ∈ nodes, ∀ memo, Sound edges stuck known memo →
      Answers edges stuck known memo (Settled edges stuck known p) (step memo p))
    (hmemo : Sound edges stuck known memo) :
    Answers edges stuck known memo (∀ p ∈ nodes, known p ∧ Settled edges stuck known p)
      (settleEach known step memo nodes) := by
  induction nodes generalizing memo with
  | nil => exact ⟨by simp [settleEach], hmemo, List.Subset.refl _⟩
  | cons p rest ih =>
    rw [forall_mem_cons]
    unfold settleEach
    split_ifs with hknown
    · obtain ⟨hanswer, hsound, hgrows⟩ := hstep p mem_cons_self memo hmemo
      split
      · next memo' hp =>
        rw [hp] at hanswer hsound hgrows
        obtain ⟨hanswer', hsound', hgrows'⟩ :=
          ih (fun q hq => hstep q (mem_cons_of_mem _ hq)) hsound
        refine ⟨?_, hsound', List.Subset.trans hgrows hgrows'⟩
        rw [hanswer']
        exact ⟨fun h => ⟨⟨hknown, hanswer.mp rfl⟩, h⟩, fun h => h.2⟩
      · next memo' hp =>
        rw [hp] at hanswer hsound hgrows
        refine ⟨⟨nofun, fun h => ?_⟩, hsound, hgrows⟩
        exact hanswer.mpr h.1.2
    · exact ⟨⟨nofun, fun h => absurd h.1.1 hknown⟩, hmemo, List.Subset.refl _⟩

omit [DecidableEq ν] in
lemma Sound.cons (h : Sound edges stuck known memo) (hb : b ↔ Settled edges stuck known n) :
    Sound edges stuck known ((n, b) :: memo) := by
  intro m c hm
  rcases mem_cons.mp hm with heq | hm
  · cases heq
    exact hb
  · exact h m c hm

lemma settle_answers (hordered : Ordered edges nodes) :
    ∀ n ∈ nodes, ∀ fuel, nodes.length ≤ fuel → ∀ memo, Sound edges stuck known memo →
      Answers edges stuck known memo (Settled edges stuck known n)
      (settle edges stuck known fuel memo n) ∧
      (n, (settle edges stuck known fuel memo n).1) ∈ (settle edges stuck known fuel memo n).2 := by
  induction hordered with
  | nil => exact nofun
  | @cons n rest hedges _ ih =>
    intro m hm fuel hfuel memo hmemo
    rcases mem_cons.mp hm with rfl | hm
    · obtain ⟨fuel, rfl⟩ : ∃ f, fuel = f + 1 := ⟨fuel - 1, by rw [length_cons] at hfuel; omega⟩
      unfold settle
      split
      · next b hb =>
        have hmem := mem_of_lookup hb
        exact ⟨⟨hmemo m b hmem, hmemo, List.Subset.refl _⟩, hmem⟩
      · split_ifs with hstuck
        · have hfalse : (false = true) ↔ Settled edges stuck known m := by
            refine ⟨nofun, ?_⟩
            rintro ⟨hfree, -, -⟩
            rw [hstuck] at hfree
            cases hfree
          exact ⟨⟨hfalse, hmemo.cons hfalse, subset_cons_self _ _⟩, mem_cons_self⟩
        · obtain ⟨hanswer, hsound, hgrows⟩ := settleEach_answers
            (fun p hp memo hmemo => (ih p (hedges p hp) fuel (by rw [length_cons] at hfuel; omega) memo hmemo).1)
            hmemo
          have hiff : (settleEach known (settle edges stuck known fuel) memo (edges m)).1 ↔
              Settled edges stuck known m := by
            rw [hanswer]
            refine ⟨fun h => ⟨by simpa using hstuck, fun p hp => (h p hp).1, fun p hp => (h p hp).2⟩, ?_⟩
            rintro ⟨-, hknown, hsettled⟩
            exact fun p hp => ⟨hknown p hp, hsettled p hp⟩
          exact ⟨⟨hiff, hsound.cons hiff, List.Subset.trans hgrows (subset_cons_self _ _)⟩, mem_cons_self⟩
    · exact ih m hm fuel (by rw [length_cons] at hfuel; omega) memo hmemo

def settleAll (edges : ν → List ν) (stuck known : ν → Bool) (fuel : ℕ) (nodes : List ν) :
    List (ν × Bool) :=
  nodes.foldl (fun memo n => (settle edges stuck known fuel memo n).2) []

section

variable (hordered : Ordered edges order) (hfuel : order.length ≤ fuel)
  (hnodes : ∀ n ∈ nodes, n ∈ order)

include hordered hfuel hnodes

lemma foldl_settle (hmemo : Sound edges stuck known memo) :
    let out := nodes.foldl (fun memo n => (settle edges stuck known fuel memo n).2) memo
    Sound edges stuck known out ∧ memo ⊆ out ∧ ∀ n ∈ nodes, ∃ b, (n, b) ∈ out := by
  induction nodes generalizing memo with
  | nil => exact ⟨hmemo, List.Subset.refl _, nofun⟩
  | cons n rest ih =>
    obtain ⟨⟨-, hsound, hgrows⟩, hentry⟩ :=
      settle_answers hordered n (hnodes n mem_cons_self) fuel hfuel memo hmemo
    obtain ⟨hsound', hgrows', hrest⟩ := ih (fun m hm => hnodes m (mem_cons_of_mem _ hm)) hsound
    exact ⟨hsound', List.Subset.trans hgrows hgrows', forall_mem_cons.mpr ⟨⟨_, hgrows' hentry⟩, hrest⟩⟩

lemma settleAll_lookup (hn : n ∈ nodes) :
    ((settleAll edges stuck known fuel nodes).lookup n).getD false ↔
    Settled edges stuck known n := by
  have hempty : Sound edges stuck known [] := nofun
  obtain ⟨hsound, -, hentries⟩ := foldl_settle hordered hfuel hnodes hempty
  obtain ⟨b, hb⟩ := hentries n hn
  unfold settleAll
  cases hlookup :
    (nodes.foldl (fun memo n => (settle edges stuck known fuel memo n).2) []).lookup n with
  | none => exact absurd (lookup_eq_none_iff.mp hlookup _ hb) (by simp)
  | some c => exact hsound n c (mem_of_lookup hlookup)

end

end Settled

end InteractiveProxy.DepthFirst

namespace InteractiveProxy.GraphWalk

open Relation List

variable {ν : Type} [DecidableEq ν]

def walk (edges : ν → List ν) : ℕ → List ν → List ν → List ν
  | 0, _, seen => seen
  | _ + 1, [], seen => seen
  | fuel + 1, n :: rest, seen =>
    if n ∈ seen then walk edges fuel rest seen
    else walk edges fuel (rest ++ (edges n).filter (· ∉ seen ++ [n])) (seen ++ [n])

/-- Enough turns for a walk over the edges of these nodes. -/
def turns (edges : ν → List ν) (nodes queue : List ν) : ℕ :=
  queue.length + (nodes.flatMap edges).length + 1

/-- The nodes behind `start`, without itself if it is on no cycle. -/
def reachable (edges : ν → List ν) (nodes : List ν) (start : ν) : List ν :=
  walk edges (turns edges nodes (edges start)) (edges start) []

def Below (edges : ν → List ν) : ν → ν → Prop := TransGen fun a b => b ∈ edges a

variable {edges : ν → List ν} {nodes seen : List ν} {start n : ν}

lemma walk_below {fuel : ℕ} {queue : List ν} (hqueue : ∀ n ∈ queue, Below edges start n)
    (hseen : ∀ n ∈ seen, Below edges start n) :
    ∀ n ∈ walk edges fuel queue seen, Below edges start n := by
  induction fuel generalizing queue seen with
  | zero => exact hseen
  | succ fuel ih =>
    cases queue with
    | nil => exact hseen
    | cons n rest =>
      have hn := hqueue n mem_cons_self
      have hrest : ∀ m ∈ rest, Below edges start m := fun m hm => hqueue m (mem_cons_of_mem n hm)
      unfold walk
      split_ifs
      · exact ih hrest hseen
      refine ih ?_ ?_
      · intro m hm
        rcases mem_append.mp hm with hm | hm
        · exact hrest m hm
        · exact TransGen.tail hn (mem_of_mem_filter hm)
      · intro m hm
        rcases mem_append.mp hm with hm | hm
        · exact hseen m hm
        · rwa [mem_singleton.mp hm]

/-- What the edges of the nodes that were not met can still put into the queue. -/
def pending (edges : ν → List ν) (nodes seen : List ν) : ℕ :=
  (nodes.map fun m => if m ∈ seen then 0 else (edges m).length).sum

lemma pending_append_le (edges : ν → List ν) (nodes seen : List ν) (n : ν) :
    pending edges nodes (seen ++ [n]) ≤ pending edges nodes seen := by
  unfold pending
  induction nodes with
  | nil => simp
  | cons m nodes ih =>
    rw [map_cons, map_cons]
    refine Nat.add_le_add ?_ ih
    by_cases hm : m ∈ seen
    · simp [hm]
    · split_ifs <;> omega

lemma pending_append (edges : ν → List ν) (hn : n ∈ nodes) (hseen : n ∉ seen) :
    pending edges nodes (seen ++ [n]) + (edges n).length ≤ pending edges nodes seen := by
  induction nodes with
  | nil => cases hn
  | cons m nodes ih =>
    have hhead : pending edges (m :: nodes) (seen ++ [n]) =
        (if m ∈ seen ++ [n] then 0 else (edges m).length) + pending edges nodes (seen ++ [n]) := by
      simp [pending]
    have hhead' : pending edges (m :: nodes) seen =
        (if m ∈ seen then 0 else (edges m).length) + pending edges nodes seen := by
      simp [pending]
    have htail := pending_append_le edges nodes seen n
    rw [hhead, hhead']
    by_cases hmn : m = n
    · subst hmn
      rw [if_pos (by simp), if_neg hseen]
      omega
    · have hrest := ih ((mem_cons.mp hn).resolve_left (Ne.symm hmn))
      have hiff : m ∈ seen ++ [n] ↔ m ∈ seen := by simp [hmn]
      simp only [hiff]
      omega

lemma pending_nil (nodes : List ν) : pending edges nodes [] = (nodes.flatMap edges).length := by
  simp [pending]

lemma walk_closed (hnodes : ∀ n ∈ nodes, edges n ⊆ nodes) (fuel : ℕ) (queue seen : List ν)
    (hqueue : queue ⊆ nodes) (hfuel : queue.length + pending edges nodes seen < fuel)
    (hedges : ∀ n ∈ seen, ∀ m ∈ edges n, m ∈ seen ∨ m ∈ queue) :
    seen ⊆ walk edges fuel queue seen ∧ queue ⊆ walk edges fuel queue seen ∧
      ∀ n ∈ walk edges fuel queue seen, edges n ⊆ walk edges fuel queue seen := by
  induction fuel generalizing queue seen with
  | zero => omega
  | succ fuel ih =>
    cases queue with
    | nil =>
      refine ⟨List.Subset.refl _, nil_subset _, ?_⟩
      intro n hn m hm
      exact (hedges n hn m hm).resolve_right not_mem_nil
    | cons n rest =>
      have hn : n ∈ nodes := hqueue mem_cons_self
      have hrest : rest ⊆ nodes := fun m hm => hqueue (mem_cons_of_mem n hm)
      rw [length_cons] at hfuel
      unfold walk
      split_ifs with hmem
      · obtain ⟨hseen, hq, hclosed⟩ := ih rest seen hrest (by omega) (by
          intro a ha m hm
          rcases hedges a ha m hm with hm | hm
          · exact .inl hm
          · rcases mem_cons.mp hm with rfl | hm
            · exact .inl hmem
            · exact .inr hm)
        exact ⟨hseen, cons_subset.mpr ⟨hseen hmem, hq⟩, hclosed⟩
      · have hless := pending_append edges hn hmem
        have hfilter := length_filter_le (· ∉ seen ++ [n]) (edges n)
        obtain ⟨hseen, hq, hclosed⟩ := ih (rest ++ (edges n).filter (· ∉ seen ++ [n])) (seen ++ [n])
          (append_subset.mpr ⟨hrest, fun m hm => hnodes n hn (mem_of_mem_filter hm)⟩)
          (by rw [length_append]; omega) (by
            intro a ha m hm
            by_cases hm' : m ∈ seen ++ [n]
            · exact .inl hm'
            right
            rcases mem_append.mp ha with ha | ha
            · rcases hedges a ha m hm with hm | hm
              · exact absurd (mem_append_left _ hm) hm'
              · rcases mem_cons.mp hm with rfl | hm
                · exact absurd (by simp) hm'
                · exact mem_append_left _ hm
            · rw [mem_singleton.mp ha] at hm
              exact mem_append_right _ (mem_filter.mpr ⟨hm, by simpa using hm'⟩))
        obtain ⟨hold, hnew⟩ := append_subset.mp hseen
        refine ⟨hold, cons_subset.mpr ⟨hnew mem_cons_self, ?_⟩, hclosed⟩
        exact (append_subset.mp hq).1

lemma mem_reachable (hnodes : ∀ n ∈ nodes, edges n ⊆ nodes) (hstart : edges start ⊆ nodes) :
    n ∈ reachable edges nodes start ↔ Below edges start n := by
  constructor
  · exact walk_below (fun m hm => TransGen.single hm) (fun m hm => by cases hm) n
  obtain ⟨-, hqueue, hclosed⟩ := walk_closed hnodes (turns edges nodes (edges start)) (edges start)
    [] hstart (by rw [pending_nil]; exact Nat.lt_succ_self _) (fun m hm => by cases hm)
  intro h
  induction h with
  | single hm => exact hqueue hm
  | tail _ hm ih => exact hclosed _ ih hm

end InteractiveProxy.GraphWalk

namespace InteractiveProxy.TopologicalOrder

open DepthFirst List

variable {edges : ℕ → List ℕ} {count : ℕ}

def kahn (edges : ℕ → List ℕ) (count : ℕ) : ℕ → (ℕ → ℕ) → List ℕ → List ℕ
  | 0, _, ordered => ordered
  | fuel + 1, indegree, ordered =>
    match (range count).find? fun n => n ∉ ordered ∧ indegree n = 0 with
    | none => ordered
    | some next => kahn edges count fuel (fun n => indegree n - (edges next).count n)
      (ordered ++ [next])

def topologicalOrder (edges : ℕ → List ℕ) (count : ℕ) : List ℕ :=
  kahn edges count count (((range count).flatMap edges).count) []

def Descends (edges : ℕ → List ℕ) (count : ℕ) (rank : ℕ → ℕ) : Prop :=
  ∀ n < count, ∀ c ∈ edges n, c < count ∧ rank c < rank n

def untaken (count : ℕ) (ordered : List ℕ) : List ℕ := (range count).filter (· ∉ ordered)

variable {ordered : List ℕ} {n : ℕ}

lemma mem_untaken : n ∈ untaken count ordered ↔ n < count ∧ n ∉ ordered := by
  simp [untaken]

lemma untaken_perm {next : ℕ} (hnext : next ∈ untaken count ordered) :
    (untaken count ordered).Perm (next :: untaken count (ordered ++ [next])) := by
  have hnodup : (untaken count ordered).Nodup := nodup_range.filter _
  have herase : (untaken count ordered).erase next = untaken count (ordered ++ [next]) := by
    rw [hnodup.erase_eq_filter]
    unfold untaken
    rw [filter_filter]
    refine filter_congr fun n _ => ?_
    rw [Bool.eq_iff_iff]
    simp [and_comm]
  rw [← herase]
  exact perm_cons_erase hnext

variable {rank : ℕ → ℕ}

section

variable (hrank : Descends edges count rank)

include hrank

lemma exists_free (hleft : untaken count ordered ≠ []) :
    ∃ n ∈ untaken count ordered, ((untaken count ordered).flatMap edges).count n = 0 := by
  obtain ⟨first, hfirst⟩ := exists_mem_of_ne_nil _ hleft
  obtain ⟨n, hn, hmax⟩ := (untaken count ordered).toFinset.exists_max_image rank
    ⟨first, mem_toFinset.mpr hfirst⟩
  refine ⟨n, mem_toFinset.mp hn, count_eq_zero.mpr fun hmem => ?_⟩
  obtain ⟨p, hp, hedge⟩ := mem_flatMap.mp hmem
  have hless := (hrank p (mem_untaken.mp hp).1 n hedge).2
  have hle := hmax p (mem_toFinset.mpr hp)
  omega

lemma kahn_ordered (fuel : ℕ) (indegree : ℕ → ℕ) (ordered : List ℕ)
    (hfuel : (untaken count ordered).length = fuel)
    (hindegree : ∀ n, indegree n = ((untaken count ordered).flatMap edges).count n)
    (hup : ∀ p < count, ∀ c ∈ edges p, c ∈ ordered → p ∈ ordered) :
    ∃ rest, kahn edges count fuel indegree ordered = ordered ++ rest ∧ Ordered edges rest ∧
      rest.Perm (untaken count ordered) := by
  induction fuel generalizing indegree ordered with
  | zero =>
    rw [length_eq_zero_iff] at hfuel
    exact ⟨[], (append_nil ordered).symm, .nil, by rw [hfuel]⟩
  | succ fuel ih =>
    have hleft : untaken count ordered ≠ [] := by
      intro h
      rw [h] at hfuel
      cases hfuel
    unfold kahn
    cases hfind : (range count).find? fun n => n ∉ ordered ∧ indegree n = 0 with
    | none =>
      obtain ⟨n, hn, hzero⟩ := exists_free hrank hleft
      have hnot := find?_eq_none.mp hfind n (mem_range.mpr (mem_untaken.mp hn).1)
      rw [hindegree] at hnot
      exact absurd (decide_eq_true ⟨(mem_untaken.mp hn).2, hzero⟩) hnot
    | some next =>
      have hfound := find?_some hfind
      have hfree : next ∉ ordered ∧ indegree next = 0 := of_decide_eq_true hfound
      have hlt : next < count := mem_range.mp (mem_of_find?_eq_some hfind)
      have hnext : next ∈ untaken count ordered := mem_untaken.mpr ⟨hlt, hfree.1⟩
      have hperm := untaken_perm hnext
      obtain ⟨rest, hrest, hordered, hpermrest⟩ := ih (fun n => indegree n - (edges next).count n)
        (ordered ++ [next]) (by have := hperm.length_eq; rw [length_cons] at this; omega)
        (by
          intro n
          have hcount := (hperm.flatMap_right edges).count_eq n
          rw [flatMap_cons, count_append] at hcount
          rw [hindegree, hcount, Nat.add_sub_cancel_left])
        (by
          -- A parent of the taken node would still point to it.
          intro p hp c hc hmem
          rcases mem_append.mp hmem with hmem | hmem
          · exact mem_append_left _ (hup p hp c hc hmem)
          rw [mem_singleton.mp hmem] at hc
          by_contra hnot
          have hp' : p ∈ untaken count ordered :=
            mem_untaken.mpr ⟨hp, fun h => hnot (mem_append_left _ h)⟩
          have hzero := hfree.2
          rw [hindegree, count_eq_zero] at hzero
          exact hzero (mem_flatMap.mpr ⟨p, hp', hc⟩))
      refine ⟨next :: rest, by simpa using hrest, .cons ?_ hordered, (hpermrest.cons next).trans hperm.symm⟩
      intro c hc
      obtain ⟨hclt, hcrank⟩ := hrank next hlt c hc
      refine hpermrest.mem_iff.mpr (mem_untaken.mpr ⟨hclt, ?_⟩)
      intro hmem
      rcases mem_append.mp hmem with hmem | hmem
      · exact hfree.1 (hup next hlt c hc hmem)
      · rw [mem_singleton.mp hmem] at hcrank
        exact lt_irrefl _ hcrank

lemma topologicalOrder_ordered :
    Ordered edges (topologicalOrder edges count) ∧
    (topologicalOrder edges count).Perm (range count) := by
  have hall : untaken count [] = range count := by simp [untaken]
  obtain ⟨rest, hrest, hordered, hperm⟩ := kahn_ordered hrank count
    (((range count).flatMap edges).count) [] (by rw [hall, length_range]) (fun n => by rw [hall])
    (fun p _ c _ h => by cases h)
  unfold topologicalOrder
  rw [hrest]
  exact ⟨hordered, hall ▸ hperm⟩

end

section Fill

variable {β : Type} (value : (ℕ → β) → ℕ → β)

def fill (order : List ℕ) (init : ℕ → β) : ℕ → β :=
  order.foldr (fun n v => Function.update v n (value v n)) init

variable {value} {order : List ℕ}

lemma fill_of_notMem (init : ℕ → β) (h : n ∉ order) : fill value order init n = init n := by
  induction order with
  | nil => rfl
  | cons m rest ih =>
    rw [mem_cons, not_or] at h
    exact (Function.update_of_ne h.1 _ _).trans (ih h.2)

lemma fill_eq (hlocal : ∀ v w n, (∀ c ∈ edges n, v c = w c) → value v n = value w n)
    (hordered : Ordered edges order) (hnodup : order.Nodup) (init : ℕ → β) (hn : n ∈ order) :
    fill value order init n = value (fill value order init) n := by
  induction hordered with
  | nil => cases hn
  | @cons m rest hedges hordered ih =>
    obtain ⟨hm, hnodup⟩ := nodup_cons.mp hnodup
    have hrest : ∀ c ∈ rest, fill value (m :: rest) init c = fill value rest init c := fun c hc =>
      Function.update_of_ne (fun h : c = m => hm (h ▸ hc)) _ _
    rcases mem_cons.mp hn with rfl | hn
    · have hvalue : fill value (n :: rest) init n = value (fill value rest init) n :=
        Function.update_self ..
      rw [hvalue]
      exact hlocal _ _ n fun c hc => (hrest c (hedges c hc)).symm
    · rw [hrest n hn, ih hnodup hn]
      exact hlocal _ _ n fun c hc => (hrest c (hordered.mem_of_edge hn hc)).symm

end Fill

end InteractiveProxy.TopologicalOrder
