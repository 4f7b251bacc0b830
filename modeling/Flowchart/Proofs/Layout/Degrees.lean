import Mathlib.Data.List.Nodup
import Mathlib.Tactic.Common
import Flowchart.Layout.Digraph

/-!
Edges and degrees. The degree of a vertex counts its edges from or to the active vertices, so it is zero just when
there are none (`inDegree_eq_zero`, `outDegree_eq_zero`), and when a vertex is no longer active, the degrees of
the others fall by the edges that join them (`outDegree_erase`, `inDegree_erase`).
-/
namespace Flowchart
namespace Digraph

/-- An edge leads from one vertex to another. -/
def Adj (g : Digraph) (u v : Nat) : Prop := (u, v) ∈ g.edges

/-- Edges join vertices of the graph only. -/
def Proper (g : Digraph) : Prop := ∀ u v, g.Adj u v → u < g.size ∧ v < g.size

/-- The edges out of a vertex whose heads are among the active ones. -/
def outDegree (g : Digraph) (active : List Nat) (v : Nat) : Nat := (g.successors v).countP (· ∈ active)

variable {g : Digraph} {active : List Nat} {u v : Nat}

theorem mem_vertices : v ∈ g.vertices ↔ v < g.size := List.mem_range

theorem mem_successors : v ∈ g.successors u ↔ g.Adj u v := by
  simp [successors, Adj]

theorem mem_predecessors : u ∈ g.predecessors v ↔ g.Adj u v := by
  simp [predecessors, Adj]

theorem outDegree_eq_zero : g.outDegree active v = 0 ↔ ∀ w ∈ active, ¬ g.Adj v w := by
  simp only [outDegree, List.countP_eq_zero, mem_successors, decide_eq_true_eq]
  exact ⟨fun none w member edge => none w edge member, fun none w edge member => none w member edge⟩

theorem inDegree_eq_zero : g.inDegree active v = 0 ↔ ∀ u ∈ active, ¬ g.Adj u v := by
  simp only [inDegree, List.countP_eq_zero, mem_predecessors, decide_eq_true_eq]
  exact ⟨fun none u member edge => none u edge member, fun none u edge member => none u member edge⟩

/-! ### All vertices -/

theorem outDegree_vertices (proper : g.Proper) (v : Nat) : g.outDegree g.vertices v = (g.successors v).length := by
  rw [outDegree, List.countP_eq_length]
  exact fun w edge => decide_eq_true (mem_vertices.2 (proper v w (mem_successors.1 edge)).2)

theorem inDegree_vertices (proper : g.Proper) (v : Nat) : g.inDegree g.vertices v = (g.predecessors v).length := by
  rw [inDegree, List.countP_eq_length]
  exact fun u edge => decide_eq_true (mem_vertices.2 (proper u v (mem_predecessors.1 edge)).1)

/-! ### One vertex less -/

theorem count_successors (g : Digraph) (u v : Nat) : (g.successors u).count v = g.edges.count (u, v) := by
  rw [successors, List.count, List.countP_map, List.countP_filter, List.count]
  exact List.countP_congr fun e _ => by simp [Prod.ext_iff, and_comm]

theorem count_predecessors (g : Digraph) (u v : Nat) : (g.predecessors v).count u = g.edges.count (u, v) := by
  rw [predecessors, List.count, List.countP_map, List.countP_filter, List.count]
  exact List.countP_congr fun e _ => by simp [Prod.ext_iff]

theorem countP_mem_erase (distinct : active.Nodup) (member : v ∈ active) (items : List Nat) :
    items.countP (· ∈ active) = items.countP (· ∈ active.erase v) + items.count v := by
  induction items with
  | nil => rfl
  | cons w rest ih =>
    rw [List.countP_cons, List.countP_cons, List.count_cons, ih]
    by_cases same : w = v
    · subst same
      simp [member, distinct.not_mem_erase]
      omega
    · simp [List.mem_erase_of_ne same, same]
      omega

theorem outDegree_erase (distinct : active.Nodup) (member : v ∈ active) (u : Nat) :
    g.outDegree active u = g.outDegree (active.erase v) u + g.edges.count (u, v) := by
  rw [outDegree, countP_mem_erase distinct member, count_successors, outDegree]

theorem inDegree_erase (distinct : active.Nodup) (member : v ∈ active) (u : Nat) :
    g.inDegree active u = g.inDegree (active.erase v) u + g.edges.count (v, u) := by
  rw [inDegree, countP_mem_erase distinct member, count_predecessors, inDegree]

end Digraph
end Flowchart
