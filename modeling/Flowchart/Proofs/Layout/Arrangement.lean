import Mathlib.Data.Finset.Max
import Flowchart.Proofs.Layout.LongestPaths

/-!
Graphs without cycles. Such a graph is used up by the first sinks that are taken off, so no edge of its row points
backwards and breaking its cycles leaves it as it is (`breakCycles_of_topological`). As its ranks are the lengths of
longest paths whatever order is walked, both ways of layering it agree (`breakingCycles_of_acyclic`).
-/
namespace Flowchart
namespace Digraph
variable {g : Digraph}

/-! ### The row -/

/-- No edge leads from a sink to one that is taken off later. -/
theorem Peels.sinks_pairwise {active left taken : List Nat} (peels : Peels g.outDegree active left taken) :
    taken.Pairwise fun u v => ¬ g.Adj u v := by
  induction peels with
  | done => exact .nil
  | @round active left taken _ later ih =>
    have sink : ∀ u ∈ active.filter fun v => g.outDegree active v = 0, ∀ v ∈ active, ¬ g.Adj u v := by
      intro u member
      exact outDegree_eq_zero.1 (by simpa using (List.mem_filter.1 member).2)
    refine List.pairwise_append.2 ⟨?_, ih, ?_⟩
    · exact List.pairwise_of_forall_mem_list fun u first v second => sink u first v (List.mem_of_mem_filter second)
    · exact fun u first v second => sink u first v (List.mem_of_mem_filter (later.taken_subset second))

variable {order : List Nat}

/-- The last of the active vertices in a topological order is a sink among them. -/
theorem exists_sink (topological : g.IsTopological order) {active : List Nat} (filled : active ≠ []) :
    ∃ v ∈ active, g.outDegree active v = 0 := by
  have nonempty : active.toFinset.Nonempty := List.toFinset_nonempty_iff _ |>.2 filled
  obtain ⟨v, member, last⟩ := active.toFinset.exists_max_image order.idxOf nonempty
  refine ⟨v, List.mem_toFinset.1 member, outDegree_eq_zero.2 fun w inside edge => ?_⟩
  have later : order.idxOf v < order.idxOf w := topological.2 _ edge
  have bound := last w (List.mem_toFinset.2 inside)
  omega

/-- In the row of a graph without cycles no edge leads back. -/
theorem Arranges.pairwise {active row : List Nat} (topological : g.IsTopological order)
    (arranges : g.Arranges active row) : row.Pairwise fun u v => ¬ g.Adj v u := by
  have used : ∀ {left taken : List Nat}, Peels g.outDegree active left taken → left = [] := by
    intro left taken sinks
    by_contra filled
    obtain ⟨v, member, zero⟩ := exists_sink topological filled
    exact sinks.stuck v member zero
  cases arranges with
  | done sinks sources =>
    obtain rfl := used sinks
    rw [sources.of_nil.2, List.nil_append, List.pairwise_reverse]
    exact sinks.sinks_pairwise
  | pick sinks sources foremost =>
    obtain rfl := used sinks
    have inside := foremost.inside
    rw [sources.of_nil.1] at inside
    cases inside

theorem idxOf_lt_of_pairwise {row : List Nat} (forwards : row.Pairwise fun u v => ¬ g.Adj v u) {u v : Nat}
    (first : u ∈ row) (second : v ∈ row) (edge : g.Adj u v) (different : u ≠ v) : row.idxOf u < row.idxOf v := by
  by_contra backwards
  have inside := List.idxOf_lt_length_of_mem first
  have inside' := List.idxOf_lt_length_of_mem second
  have apart : row.idxOf u ≠ row.idxOf v := fun same => different (List.idxOf_inj first |>.1 same)
  have none := List.pairwise_iff_getElem.1 forwards _ _ inside' inside (by omega)
  rw [List.getElem_idxOf inside, List.getElem_idxOf inside'] at none
  exact none edge

theorem breakCycles_of_topological (proper : g.Proper) (topological : g.IsTopological order) :
    g.breakCycles = ⟨g, g.arrangement, 0⟩ := by
  have arranged := arrangement_arranges proper
  have forwards := arranged.pairwise topological
  have inRow : ∀ {v}, v < g.size → v ∈ g.arrangement := fun vertex => arranged.perm.mem_iff.2 (mem_vertices.2 vertex)
  have stays : ∀ e ∈ g.edges, isBackward g.arrangement e = false := by
    intro ⟨u, v⟩ edge
    obtain ⟨first, second⟩ := proper u v edge
    have different : u ≠ v := by
      rintro rfl
      exact Nat.lt_irrefl _ (topological.2 _ edge)
    have earlier := idxOf_lt_of_pairwise forwards (inRow first) (inRow second) edge different
    simpa [isBackward] using earlier.le
  have edges : g.edges.map (forward g.arrangement) = g.edges := by
    conv => rhs; rw [← List.map_id g.edges]
    exact List.map_congr_left fun e member => by simp [forward, stays e member]
  have none : g.edges.countP (isBackward g.arrangement) = 0 :=
    List.countP_eq_zero.2 fun e member => by simp [stays e member]
  rw [breakCycles, edges, none]

end Digraph

/-! ### Ranks -/

open Flowchart.Digraph

/-- Whatever topological order is walked, a rank is the length of the longest path. -/
theorem longestPaths_congr {g : Digraph} (proper : g.Proper) {order order' : List Nat}
    (topological : g.IsTopological order) (topological' : g.IsTopological order') :
    longestPaths g order = longestPaths g order' := by
  have longest : ∀ {o}, g.IsTopological o → ∀ v < g.size,
      IsGreatest {n | PathTo g.Adj v n} (rankIn (longestPaths g o) v) := by
    intro o walked v vertex
    obtain ⟨below, reached⟩ := longestPaths_spec proper walked
    have stepwise : Reached g.Adj (rankIn (longestPaths g o)) (· < g.size) := by
      intro w _
      exact (reached w).imp_right fun ⟨u, edge, next⟩ => ⟨u, (proper u w edge).1, edge, next⟩
    exact isGreatest_path stepwise below vertex
  apply List.ext_getElem
  · simp
  · intro v inside inside'
    have vertex : v < g.size := by simpa using inside
    have same := (longest topological v vertex).unique (longest topological' v vertex)
    simpa [rankIn, vertex] using same

namespace Layering

/-- A graph without cycles has topological orders. Breaking its cycles reverses no edge, and layers it just as
    walking any of its topological orders does. -/
theorem breakingCycles_of_acyclic {g : Digraph} (proper : g.Proper) (acyclic : g.Acyclic) :
    (∃ order, g.IsTopological order) ∧ (breakingCycles g).dag = g ∧ (breakingCycles g).reversed = 0 ∧
      ∀ order, g.IsTopological order → breakingCycles g = alongOrder g order := by
  obtain ⟨sound, complete⟩ := topologicalOrder?_sorts g proper
  obtain ⟨first, found⟩ := Option.isSome_iff_exists.1 (complete.2 acyclic)
  have broken := breakCycles_of_topological proper (sound first found)
  refine ⟨⟨first, sound first found⟩, by rw [breakingCycles, broken], by rw [breakingCycles, broken], ?_⟩
  intro order topological
  have loopless : ∀ v, ¬ g.Adj v v := fun v loop => acyclic v (.single loop)
  have row := breakCycles_isTopological proper loopless
  rw [broken] at row
  rw [breakingCycles, broken, alongOrder, longestPaths_congr proper row topological]

/-- A long way and two shortcuts, one of them doubled, and a vertex apart. -/
def shortcuts : Digraph := ⟨5, [(0, 1), (0, 2), (1, 3), (2, 3), (0, 3), (0, 3), (2, 1)]⟩

theorem shortcuts_breakingCycles :
    shortcuts.Proper ∧ shortcuts.Acyclic ∧ shortcuts.IsTopological [4, 0, 2, 1, 3] ∧
      shortcuts.arrangement = [0, 2, 1, 4, 3] ∧ breakingCycles shortcuts = ⟨shortcuts, [0, 2, 1, 3, 0], 0⟩ ∧
      breakingCycles shortcuts = alongOrder shortcuts [4, 0, 2, 1, 3] := by
  have proper : shortcuts.Proper := by
    have ends : ∀ e ∈ shortcuts.edges, e.1 < 5 ∧ e.2 < 5 := by decide
    exact fun u v edge => ends (u, v) edge
  have topological : shortcuts.IsTopological [4, 0, 2, 1, 3] := ⟨by decide, by decide⟩
  have acyclic := topological.acyclic
  obtain ⟨-, -, -, agree⟩ := breakingCycles_of_acyclic proper acyclic
  exact ⟨proper, acyclic, topological, by decide, by decide, agree _ topological⟩

end Layering
end Flowchart
