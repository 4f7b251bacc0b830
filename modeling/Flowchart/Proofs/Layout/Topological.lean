import Mathlib.Data.List.Nodup
import Mathlib.Data.Set.Finite.List
import Mathlib.Logic.Relation
import Mathlib.Order.WellFounded
import Mathlib.Tactic.Common
import Flowchart.Layout.Layering
import Flowchart.Proofs.Layout.Rounds

/-!
Topological orders. A sort is any function that gives a topological order of the graphs that have
one (`Sorts`): those without a cycle. Peeling off sources is such a sort (`topologicalOrder?_sorts`),
and where a graph has cycles, the arrangement that breaks them is a topological order of what is
left (`breakCycles_isTopological`). So whatever the sort, a layering walks a topological order of its own
graph (`sortedBy_spec`).
-/
namespace Flowchart
namespace Digraph
open Relation

/-- No way along the edges leads back to where it started. -/
def Acyclic (g : Digraph) : Prop := ∀ v, ¬ TransGen g.Adj v v

/-- Gives some topological order exactly of the graphs without a cycle. -/
def Sorts (sort : Digraph → Option (List Nat)) : Prop :=
  ∀ g : Digraph, g.Proper →
    (∀ order, sort g = some order → g.IsTopological order) ∧ ((sort g).isSome ↔ g.Acyclic)

variable {g : Digraph}

/-! ### Orders -/

namespace IsTopological
variable {order : List Nat}

theorem nodup (topological : g.IsTopological order) : order.Nodup :=
  topological.1.nodup_iff.2 List.nodup_range

theorem mem_iff (topological : g.IsTopological order) {v : Nat} : v ∈ order ↔ v < g.size :=
  topological.1.mem_iff.trans mem_vertices

theorem lt_of_way (topological : g.IsTopological order) {u v : Nat} (way : TransGen g.Adj u v) :
    order.idxOf u < order.idxOf v := by
  induction way with
  | single edge => exact topological.2 _ edge
  | tail _ edge ih => exact ih.trans (topological.2 _ edge)

theorem acyclic (topological : g.IsTopological order) : g.Acyclic :=
  fun _ cycle => Nat.lt_irrefl _ (topological.lt_of_way cycle)

/-- What comes before a vertex in the order is none of its successors, and neither is the vertex. -/
theorem not_adj_of_before {done rest : List Nat} {u v : Nat} (topological : g.IsTopological (done ++ v :: rest))
    (before : u ∈ done ∨ u = v) : ¬ g.Adj v u := by
  intro edge
  have later : (done ++ v :: rest).idxOf v < (done ++ v :: rest).idxOf u := topological.2 _ edge
  have fresh : v ∉ done := by
    have distinct := topological.nodup
    rw [List.nodup_append'] at distinct
    exact fun member => distinct.2.2 member List.mem_cons_self
  have here : (done ++ v :: rest).idxOf v = done.length := by
    rw [List.idxOf_append_of_notMem fresh, List.idxOf_cons_self, Nat.add_zero]
  rcases before with member | rfl
  · have earlier : (done ++ v :: rest).idxOf u < done.length := by
      rw [List.idxOf_append_of_mem member]
      exact List.idxOf_lt_length_of_mem member
    omega
  · omega

end IsTopological

/-! ### Peeling off sources -/

/-- Without a cycle, some active vertex has no active predecessor. -/
theorem exists_source (acyclic : g.Acyclic) {active : List Nat} (filled : active ≠ []) :
    ∃ v ∈ active, g.inDegree active v = 0 := by
  have finite : Finite {v // v ∈ active} := (List.finite_toSet active).to_subtype
  let way (u v : {v // v ∈ active}) : Prop := TransGen g.Adj u.1 v.1
  have transitive : IsTrans _ way := ⟨fun _ _ _ first second => first.trans second⟩
  have irreflexive : Std.Irrefl way := ⟨fun v cycle => acyclic v.1 cycle⟩
  obtain ⟨first, member⟩ := List.exists_mem_of_ne_nil active filled
  obtain ⟨⟨v, inside⟩, -, least⟩ :=
    (Finite.wellFounded_of_trans_of_irrefl way).has_min Set.univ ⟨⟨first, member⟩, trivial⟩
  refine ⟨v, inside, inDegree_eq_zero.2 fun u member edge => ?_⟩
  exact least ⟨u, member⟩ trivial (.single edge)

theorem peel_perm (g : Digraph) (fuel : Nat) (active : List Nat) :
    ∀ order ∈ g.peel fuel active, order.Perm active := by
  fun_induction peel g fuel active with
  | case1 => simp
  | case2 => simp
  | case3 => simp
  | case4 fuel active _ ready _ ih =>
    intro order peeled
    obtain ⟨rest, peeledRest, rfl⟩ := Option.map_eq_some_iff.1 peeled
    exact ((ih rest peeledRest).append_left ready).trans (ready_append_perm _ active)

/-- An edge between two active vertices leads from an earlier to a later one. -/
theorem peel_lt {u v : Nat} (edge : g.Adj u v) (fuel : Nat) (active : List Nat) (first : u ∈ active)
    (second : v ∈ active) : ∀ order ∈ g.peel fuel active, order.idxOf u < order.idxOf v := by
  fun_induction peel g fuel active with
  | case1 => cases first
  | case2 => simp
  | case3 => simp
  | case4 fuel active _ ready _ ih =>
    intro order peeled
    obtain ⟨rest, peeledRest, rfl⟩ := Option.map_eq_some_iff.1 peeled
    have left : g.inDegree active v ≠ 0 := fun none => inDegree_eq_zero.1 none u first edge
    have notReady : v ∉ ready := fun member => left (by simpa using (List.mem_filter.1 member).2)
    rw [List.idxOf_append_of_notMem notReady]
    by_cases source : u ∈ ready
    · rw [List.idxOf_append_of_mem source]
      exact Nat.lt_add_right _ (List.idxOf_lt_length_of_mem source)
    · have remains : g.inDegree active u ≠ 0 := fun none => source (List.mem_filter.2 ⟨first, by simpa using none⟩)
      rw [List.idxOf_append_of_notMem source]
      have later := ih (List.mem_filter.2 ⟨first, by simpa using remains⟩)
        (List.mem_filter.2 ⟨second, by simpa using left⟩) rest peeledRest
      omega

theorem peel_isSome (acyclic : g.Acyclic) {fuel : Nat} {active : List Nat} (enough : active.length ≤ fuel) :
    (g.peel fuel active).isSome := by
  fun_induction peel g fuel active with
  | case1 => rfl
  | case2 => simp at enough
  | case3 fuel active filled ready none =>
    obtain ⟨v, member, source⟩ := exists_source acyclic filled
    have inside : v ∈ ready := List.mem_filter.2 ⟨member, by simpa using source⟩
    rw [List.isEmpty_iff.1 none] at inside
    cases inside
  | case4 fuel active _ ready some ih =>
    have split : ready.length + _ = active.length :=
      List.length_append.symm.trans (ready_append_perm (g.inDegree active) active).length_eq
    have filled : 0 < ready.length := List.length_pos_iff.2 (by simpa using some)
    rw [Option.isSome_map]
    exact ih (by omega)

theorem topologicalOrder?_sorts : Sorts topologicalOrder? := by
  intro g proper
  have sound : ∀ order, g.topologicalOrder? = some order → g.IsTopological order := by
    intro order peeled
    refine ⟨peel_perm g _ _ order peeled, fun ⟨u, v⟩ edge => ?_⟩
    obtain ⟨first, second⟩ := proper u v edge
    exact peel_lt edge _ _ (mem_vertices.2 first) (mem_vertices.2 second) order peeled
  refine ⟨sound, fun found => ?_, fun acyclic => peel_isSome acyclic (by simp [vertices])⟩
  obtain ⟨order, peeled⟩ := Option.isSome_iff_exists.1 found
  exact (sound order peeled).acyclic

/-! ### Breaking cycles -/

/-- An edge and its reverse, whichever of them points forward. -/
theorem forward_cases (order : List Nat) (e : Nat × Nat) : forward order e = e ∨ forward order e = e.swap := by
  unfold forward
  split
  · exact .inr rfl
  · exact .inl rfl

theorem idxOf_forward {order : List Nat} {e : Nat × Nat} (first : e.1 ∈ order) (different : e.1 ≠ e.2) :
    order.idxOf (forward order e).1 < order.idxOf (forward order e).2 := by
  unfold forward
  split
  · next backward => simpa [isBackward] using backward
  · next notBackward =>
    have apart : order.idxOf e.1 ≠ order.idxOf e.2 := fun same => different (List.idxOf_inj first |>.1 same)
    simp only [isBackward, decide_eq_true_eq] at notBackward
    omega

/-- What breaking the cycles of a graph without self loops leaves has the arrangement as an order. -/
theorem breakCycles_isTopological (proper : g.Proper) (loopless : ∀ v, ¬ g.Adj v v) :
    g.breakCycles.dag.IsTopological g.breakCycles.order := by
  have once := (arrangement_arranges proper).perm
  refine ⟨once, fun e member => ?_⟩
  obtain ⟨⟨u, v⟩, edge, rfl⟩ := List.mem_map.1 member
  have first : u ∈ g.arrangement := once.mem_iff.2 (mem_vertices.2 (proper u v edge).1)
  exact idxOf_forward first fun same : u = v => loopless u (by subst same; exact edge)

theorem breakCycles_adj {u v : Nat} (edge : g.Adj u v) :
    g.breakCycles.dag.Adj u v ∨ g.breakCycles.dag.Adj v u := by
  have member : forward g.arrangement (u, v) ∈ g.breakCycles.dag.edges := List.mem_map_of_mem edge
  rcases forward_cases g.arrangement (u, v) with same | swapped
  · rw [same] at member
    exact .inl member
  · rw [swapped] at member
    exact .inr member

theorem breakCycles_proper (proper : g.Proper) : g.breakCycles.dag.Proper := by
  intro u v edge
  obtain ⟨⟨s, t⟩, before, same⟩ := List.mem_map.1 edge
  obtain ⟨first, second⟩ := proper s t before
  rcases forward_cases g.arrangement (s, t) with kept | swapped
  · obtain ⟨rfl, rfl⟩ := Prod.mk.inj (kept.symm.trans same)
    exact ⟨first, second⟩
  · obtain ⟨rfl, rfl⟩ := Prod.mk.inj (swapped.symm.trans same)
    exact ⟨second, first⟩

end Digraph

/-! ### Layerings by any sort -/

namespace Layering
open Flowchart.Digraph

/-- The layering along the order that a sort gives, or after breaking the cycles if it gives none. -/
def sortedBy (sort : Digraph → Option (List Nat)) (g : Digraph) : Layering :=
  match sort g with
  | some order => alongOrder g order
  | none => breakingCycles g

theorem of_eq_sortedBy : Layering.of = sortedBy topologicalOrder? := rfl

/-- A layering ranks its own graph along a topological order. Every edge is an edge of that graph
    one way round, and a graph without cycles is its own. -/
theorem sortedBy_spec {sort : Digraph → Option (List Nat)} (sorts : Sorts sort) {g : Digraph} (proper : g.Proper)
    (loopless : ∀ v, ¬ g.Adj v v) :
    ∃ order, (sortedBy sort g).dag.IsTopological order ∧
      (sortedBy sort g).ranks = longestPaths (sortedBy sort g).dag order ∧
      (sortedBy sort g).dag.Proper ∧ (sortedBy sort g).dag.size = g.size ∧
      (∀ u v, g.Adj u v → (sortedBy sort g).dag.Adj u v ∨ (sortedBy sort g).dag.Adj v u) ∧
      (g.Acyclic → (sortedBy sort g).dag = g) := by
  obtain ⟨sound, complete⟩ := sorts g proper
  unfold sortedBy
  cases sorted : sort g with
  | some order => exact ⟨order, sound order sorted, rfl, proper, rfl, fun _ _ edge => .inl edge, fun _ => rfl⟩
  | none =>
    refine ⟨g.breakCycles.order, breakCycles_isTopological proper loopless, rfl, breakCycles_proper proper, rfl,
      fun _ _ edge => breakCycles_adj edge, fun acyclic => ?_⟩
    have found := complete.2 acyclic
    rw [sorted] at found
    cases found

end Layering
end Flowchart
