import Mathlib.Data.List.Forall2
import Mathlib.Data.List.Nodup
import Mathlib.Order.Lattice
import Mathlib.Tactic.Common
import Flowchart.Layout.Crossing

/-!
Ranks and the order on them. Every vertex of a layering has a rank below the number of ranks, and so
has every dummy that splits an edge (`augmented_sound`). Sweeping moves vertices within their ranks
only: whatever the number of sweeps, each rank holds the vertices that have it, every one once
(`minimal_perm`, `mem_minimal`).
-/
namespace Flowchart

/-! ### Largest of a list -/

section
variable {β : Type} [LinearOrder β]

theorem start_le_foldl_max (start : β) (l : List β) : start ≤ l.foldl max start := by
  induction l generalizing start with
  | nil => exact le_refl start
  | cons b rest ih => exact (le_max_left start b).trans (ih (max start b))

theorem le_foldl_max {b : β} {l : List β} (member : b ∈ l) (start : β) : b ≤ l.foldl max start := by
  induction l generalizing start with
  | nil => cases member
  | cons c rest ih =>
    rcases List.mem_cons.1 member with rfl | later
    · exact (le_max_right start b).trans (start_le_foldl_max _ rest)
    · exact ih later (max start c)

end

/-! ### Layerings -/

theorem lt_rankCount {ranks : List Nat} {r : Nat} (member : r ∈ ranks) : r < rankCount ranks :=
  Nat.lt_succ_of_le (le_foldl_max member 0)

@[simp] theorem pushDown_length (g : Digraph) (ranks : List Nat) (v : Nat) :
    (pushDown g ranks v).length = ranks.length := by
  unfold pushDown
  suffices ∀ (targets now : List Nat), now.length = ranks.length →
      (targets.foldl (fun now s => now.modify s (max · (rankIn now v + 1))) now).length = ranks.length from
    this _ ranks rfl
  intro targets
  induction targets with
  | nil => exact fun _ same => same
  | cons s rest ih =>
    intro now same
    exact ih _ (by rw [List.length_modify, same])

@[simp] theorem longestPaths_length (g : Digraph) (order : List Nat) : (longestPaths g order).length = g.size := by
  unfold longestPaths
  suffices ∀ now : List Nat, now.length = g.size → (order.foldl (pushDown g) now).length = g.size from
    this _ List.length_replicate
  induction order with
  | nil => exact fun _ same => same
  | cons v rest ih =>
    intro now same
    exact ih _ (by rw [pushDown_length, same])

/-- A layering has a rank for every vertex of the graph it was made from. -/
theorem layering_size (g : Digraph) :
    (Layering.of g).dag.size = g.size ∧ (Layering.of g).ranks.length = g.size := by
  unfold Layering.of
  split
  · exact ⟨rfl, longestPaths_length g _⟩
  · exact ⟨rfl, longestPaths_length g.breakCycles.dag _⟩

/-! ### Dummies -/

/-- The vertices of a layering come first, the dummies behind them, and all have a rank in use. -/
structure Augmented.Sound (l : Layering) (a : Augmented) : Prop where
  size : a.graph.size = a.ranks.length
  ranks : l.ranks <+: a.ranks
  bounded : ∀ r ∈ a.ranks, r < a.rankCount
  realCount : a.realCount = l.dag.size

theorem rankIn_mem_or (ranks : List Nat) (v : Nat) : rankIn ranks v ∈ ranks ∨ rankIn ranks v = 0 := by
  unfold rankIn
  rw [List.getD_eq_getElem?_getD]
  by_cases inside : v < ranks.length
  · exact .inl (by simp [inside])
  · exact .inr (by simp [inside])

theorem ranksBetween_lt {ranks : List Nat} {count : Nat} (bounded : ∀ r ∈ ranks, r < count) {e : Nat × Nat} {r : Nat}
    (member : r ∈ Augmented.ranksBetween ranks e) : r < count := by
  obtain ⟨_, below⟩ := List.mem_range'_1.1 member
  rcases rankIn_mem_or ranks e.2 with inside | zero
  · have := bounded _ inside
    omega
  · omega

theorem addSplit_sound {l : Layering} {a : Augmented} (sound : a.Sound l) (e : Nat × Nat) : (a.addSplit e).Sound l := by
  refine ⟨?_, ?_, ?_, sound.realCount⟩
  · simp only [Augmented.addSplit, List.length_append, sound.size]
  · exact sound.ranks.trans (List.prefix_append _ _)
  · intro r member
    rcases List.mem_append.1 member with before | dummy
    · exact sound.bounded r before
    · exact ranksBetween_lt sound.bounded dummy

theorem augmented_sound {l : Layering} (sized : l.ranks.length = l.dag.size) : (Augmented.of l).Sound l := by
  unfold Augmented.of
  suffices ∀ a : Augmented, a.Sound l → (l.dag.edges.foldl Augmented.addSplit a).Sound l from
    this _ ⟨sized.symm, List.prefix_rfl, fun _ => lt_rankCount, rfl⟩
  induction l.dag.edges with
  | nil => exact fun _ sound => sound
  | cons e rest ih => exact fun a sound => ih _ (addSplit_sound sound e)

/-! ### Orders -/

namespace Ordering

theorem reorder_perm (neighbours : Nat → List Nat) (fixed rank : List Nat) :
    (reorder neighbours fixed rank).Perm rank := by
  have plain : rank.zipIdx.map Prod.fst = rank := List.zipIdx_map_fst ..
  unfold reorder
  refine ((List.mergeSort_perm _ _).map _).trans ?_
  rw [List.map_map]
  exact .of_eq plain

theorem sweepFrom_perm (neighbours : Nat → List Nat) (fixed : List Nat) (o : Ordering) :
    List.Forall₂ List.Perm (sweepFrom neighbours fixed o) o := by
  induction o generalizing fixed with
  | nil => exact .nil
  | cons rank rest ih => exact .cons (reorder_perm neighbours fixed rank) (ih _)

theorem sweep_perm (neighbours : Nat → List Nat) (o : Ordering) :
    List.Forall₂ List.Perm (sweep neighbours o) o := by
  cases o with
  | nil => exact .nil
  | cons rank rest => exact .cons (List.Perm.refl rank) (sweepFrom_perm neighbours rank rest)

theorem forall₂_perm_trans {o p q : Ordering} (first : List.Forall₂ List.Perm o p)
    (second : List.Forall₂ List.Perm p q) :
    List.Forall₂ List.Perm o q := by
  induction first generalizing q with
  | nil => exact second
  | cons here _ ih =>
    cases second with
    | cons here' rest' => exact .cons (here.trans here') (ih rest')

/-- A sweep moves vertices within their ranks only. -/
theorem sweepBoth_perm (g : Digraph) (o : Ordering) : List.Forall₂ List.Perm (sweepBoth g o) o := by
  have up := List.rel_reverse (sweep_perm g.successors (sweep g.predecessors o).reverse)
  rw [List.reverse_reverse] at up
  exact forall₂_perm_trans up (sweep_perm g.predecessors o)

theorem improve_perm (g : Digraph) (passes : Nat) (o : Ordering) : List.Forall₂ List.Perm (improve g passes o) o := by
  induction passes generalizing o with
  | zero => exact List.forall₂_same.2 fun _ _ => .refl _
  | succ passes ih =>
    simp only [improve]
    split
    · exact List.forall₂_same.2 fun _ _ => .refl _
    · split
      · exact forall₂_perm_trans (ih _) (sweepBoth_perm g o)
      · exact List.forall₂_same.2 fun _ _ => .refl _

theorem minimal_perm (a : Augmented) (passes : Nat) : List.Forall₂ List.Perm (minimal a passes) (initial a) :=
  improve_perm a.graph passes (initial a)

theorem minimal_length (a : Augmented) (passes : Nat) : (minimal a passes).length = a.rankCount := by
  rw [(minimal_perm a passes).length_eq]
  simp [initial]

/-- A rank holds the vertices that have it. -/
theorem mem_minimal {a : Augmented} {passes r v : Nat} (inside : r < (minimal a passes).length) :
    v ∈ (minimal a passes)[r] ↔ v < a.graph.size ∧ rankIn a.ranks v = r := by
  have insideInitial : r < (initial a).length := by rwa [← (minimal_perm a passes).length_eq]
  have same : ((minimal a passes)[r]).Perm (initial a)[r] := (minimal_perm a passes).get inside insideInitial
  rw [same.mem_iff]
  simp [initial, Digraph.vertices]

theorem forall₂_perm_flatten {o p : Ordering} (same : List.Forall₂ List.Perm o p) : o.flatten.Perm p.flatten := by
  induction same with
  | nil => exact .refl _
  | cons here _ ih => exact here.append ih

/-- No vertex stands in two places. -/
theorem minimal_nodup (a : Augmented) (passes : Nat) : (minimal a passes).flatten.Nodup := by
  rw [(forall₂_perm_flatten (minimal_perm a passes)).nodup_iff, List.nodup_flatten]
  constructor
  · intro rank member
    obtain ⟨r, -, rfl⟩ := List.mem_map.1 member
    exact List.nodup_range.filter _
  · rw [initial, List.pairwise_map]
    apply List.nodup_range.imp
    intro r s different v first second
    have one : rankIn a.ranks v = r := by simpa using (List.mem_filter.1 first).2
    have other : rankIn a.ranks v = s := by simpa using (List.mem_filter.1 second).2
    exact different (one.symm.trans other)

end Ordering
end Flowchart
