import Mathlib.Algebra.Order.BigOperators.Group.List
import Mathlib.Algebra.Order.Ring.Nat
import Flowchart.Proofs.Layout.Arrangement

/-!
How few edges are reversed. A row grows from its middle: a vertex in front turns the edges into it backwards, and
one behind turns the edges out of it backwards (`Grows.pointing`). Sources and sinks turn none, and the vertex that
is picked has at least as many edges out of it as into it, since both degrees have the same sum over the active
vertices (`Foremost.degrees`). So never do more edges point backwards than forwards (`Arranges.balanced`), and at
most half of all edges are reversed (`breakCycles_breaks`).
-/
namespace Flowchart
namespace Digraph
variable {g : Digraph} {row : List Nat} {v : Nat}

/-! ### Degrees -/

theorem outDegree_eq (g : Digraph) (active : List Nat) (v : Nat) :
    g.outDegree active v = g.edges.countP fun e => decide (e.2 ∈ active) && decide (e.1 = v) := by
  rw [outDegree, successors, List.countP_map, List.countP_filter]
  rfl

theorem inDegree_eq (g : Digraph) (active : List Nat) (v : Nat) :
    g.inDegree active v = g.edges.countP fun e => decide (e.1 ∈ active) && decide (e.2 = v) := by
  rw [inDegree, predecessors, List.countP_map, List.countP_filter]
  rfl

/-- Counting for each of some distinct keys what has that key counts what has one of them. -/
theorem sum_countP_key {β : Type} (key : β → Nat) (keep : β → Bool) {keys : List Nat} (distinct : keys.Nodup)
    (items : List β) :
    (keys.map fun k => items.countP fun b => keep b && decide (key b = k)).sum =
      items.countP fun b => keep b && decide (key b ∈ keys) := by
  have one : ∀ a, (keys.map fun k => if a = k then 1 else 0).sum = if a ∈ keys then 1 else 0 := by
    intro a
    induction keys with
    | nil => rfl
    | cons k rest ih =>
      rw [List.nodup_cons] at distinct
      rw [List.map_cons, List.sum_cons, ih distinct.2]
      by_cases here : a = k
      · subst here
        simp [distinct.1]
      · simp [here]
  induction items with
  | nil => simp
  | cons b rest ih =>
    simp only [List.countP_cons, List.sum_map_add, ih]
    cases keep b with
    | false => simp
    | true => simpa using one (key b)

/-- Some active vertex has no more edges into it than out of it. -/
theorem exists_degrees {active : List Nat} (distinct : active.Nodup) (filled : active ≠ []) :
    ∃ v ∈ active, g.inDegree active v ≤ g.outDegree active v := by
  apply List.exists_le_of_sum_le filled
  have into : g.inDegree active = _ := funext (g.inDegree_eq active)
  have outOf : g.outDegree active = _ := funext (g.outDegree_eq active)
  rw [into, outOf, sum_countP_key _ _ distinct, sum_countP_key _ _ distinct]
  exact Nat.le_of_eq (List.countP_congr fun e _ => by simp [and_comm])

/-- A vertex with the largest surplus has no more edges into it than out of it. -/
theorem Foremost.degrees {active : List Nat} (distinct : active.Nodup)
    (foremost : Foremost (g.surplus active) active v) : g.inDegree active v ≤ g.outDegree active v := by
  obtain ⟨w, member, degrees⟩ := exists_degrees (g := g) distinct (List.ne_nil_of_mem foremost.inside)
  have most := foremost.largest w member
  unfold surplus at most
  omega

/-! ### Rows -/

/-- How many edges between vertices of the row point backwards in it, or forwards. -/
def pointing (g : Digraph) (backwards : Bool) (row : List Nat) : Nat :=
  g.edges.countP fun e => (decide (e.1 ∈ row) && decide (e.2 ∈ row)) && (isBackward row e == backwards)

theorem countP_add {β : Type} {p q r : β → Bool} {items : List β}
    (split : ∀ b ∈ items, (if p b then 1 else 0) = (if q b then 1 else 0) + if r b then 1 else 0) :
    items.countP p = items.countP q + items.countP r := by
  induction items with
  | nil => rfl
  | cons b rest ih =>
    rw [List.forall_mem_cons] at split
    have here := split.1
    simp only [List.countP_cons, ih split.2]
    omega

/-- A row with one more vertex: the edges out of it all point one way, and those into it the other way. -/
structure Grows (v : Nat) (outwards : Bool) (row row' : List Nat) : Prop where
  members : ∀ u, u ∈ row' ↔ u ∈ row ∨ u = v
  old : ∀ a ∈ row, ∀ b ∈ row, isBackward row' (a, b) = isBackward row (a, b)
  outOf : ∀ b ∈ row, isBackward row' (v, b) = outwards
  into : ∀ a ∈ row, isBackward row' (a, v) = !outwards

/-- In front of a row, the edges out of a vertex point forwards. -/
theorem grows_cons (fresh : v ∉ row) : Grows v false row (v :: row) := by
  have behind : ∀ u ∈ row, (v :: row).idxOf u = row.idxOf u + 1 := by
    intro u member
    exact List.idxOf_cons_ne row fun same => fresh (same ▸ member)
  refine ⟨by simp [or_comm], ?_, ?_, ?_⟩
  · intro a first b second
    simp [isBackward, behind a first, behind b second]
  · intro b second
    simp [isBackward]
  · intro a first
    simp [isBackward, behind a first]

/-- Behind a row, the edges out of a vertex point backwards. -/
theorem grows_append (fresh : v ∉ row) : Grows v true row (row ++ [v]) := by
  have last : (row ++ [v]).idxOf v = row.length := by
    rw [List.idxOf_append_of_notMem fresh]
    simp
  refine ⟨by simp, ?_, ?_, ?_⟩
  · intro a first b second
    simp [isBackward, List.idxOf_append_of_mem first, List.idxOf_append_of_mem second]
  · intro b second
    simp [isBackward, last, List.idxOf_append_of_mem second, List.idxOf_lt_length_of_mem second]
  · intro a first
    simp [isBackward, last, List.idxOf_append_of_mem first, (List.idxOf_lt_length_of_mem first).le]

/-- Of the edges between the new vertex and the row, those out of it are added on one side and those into it on the
    other. -/
theorem Grows.pointing {row' : List Nat} {outwards : Bool} (grows : Grows v outwards row row') (fresh : v ∉ row)
    (loopless : ∀ v, ¬ g.Adj v v) (backwards : Bool) : g.pointing backwards row' =
      g.pointing backwards row + if outwards = backwards then g.outDegree row v else g.inDegree row v := by
  have degree : (if outwards = backwards then g.outDegree row v else g.inDegree row v) = g.edges.countP fun e =>
      if outwards = backwards then decide (e.2 ∈ row) && decide (e.1 = v)
      else decide (e.1 ∈ row) && decide (e.2 = v) := by
    split
    · exact g.outDegree_eq row v
    · exact g.inDegree_eq row v
  rw [degree]
  refine countP_add fun ⟨a, b⟩ edge => ?_
  have different : a ≠ b := by
    rintro rfl
    exact loopless a edge
  simp only [grows.members]
  by_cases first : a = v
  · subst first
    by_cases second : b ∈ row
    · simp [grows.outOf b second, fresh, second, different.symm]
    · simp [fresh, second, different.symm]
  · by_cases second : b = v
    · subst second
      by_cases member : a ∈ row
      · cases outwards <;> cases backwards <;> simp [grows.into a member, fresh, member]
      · simp [fresh, member, first]
    · by_cases both : a ∈ row ∧ b ∈ row
      · simp [grows.old a both.1 b both.2, first, second]
      · simp [first, second, both]

/-! ### Balance -/

/-- No more edges point backwards in the row than forwards. -/
def Balanced (g : Digraph) (row : List Nat) : Prop := g.pointing true row ≤ g.pointing false row

theorem balanced_nil (g : Digraph) : g.Balanced [] := by simp [Balanced, Digraph.pointing]

variable {active left taken : List Nat}

theorem Peels.sources_perm (peels : Peels g.inDegree active left taken) (same : row.Perm left) :
    (taken ++ row).Perm active := (same.append_left taken).trans peels.perm

theorem Peels.sinks_perm (peels : Peels g.outDegree active left taken) (same : row.Perm left) :
    (row ++ taken.reverse).Perm active :=
  (same.append (List.reverse_perm _)).trans (List.perm_append_comm.trans peels.perm)

section
variable (loopless : ∀ v, ¬ g.Adj v v)
include loopless

theorem Balanced.cons (balanced : g.Balanced row) (fresh : v ∉ row) (degrees : g.inDegree row v ≤ g.outDegree row v) :
    g.Balanced (v :: row) := by
  have grows := (grows_cons fresh).pointing fresh loopless
  have backwards := grows true
  have forwards := grows false
  simp only [Bool.false_eq_true, if_false, if_true] at backwards forwards
  unfold Balanced at balanced ⊢
  omega

theorem Balanced.append (balanced : g.Balanced row) (fresh : v ∉ row) (degrees : g.outDegree row v ≤ g.inDegree row v) :
    g.Balanced (row ++ [v]) := by
  have grows := (grows_append fresh).pointing fresh loopless
  have backwards := grows true
  have forwards := grows false
  simp only [Bool.true_eq_false, if_false, if_true] at backwards forwards
  unfold Balanced at balanced ⊢
  omega

theorem Balanced.sources {front : List Nat} (balanced : g.Balanced row) (distinct : (front ++ row).Nodup)
    (sources : ∀ v ∈ front, ∀ u ∈ front ++ row, ¬ g.Adj u v) : g.Balanced (front ++ row) := by
  induction front with
  | nil => exact balanced
  | cons v front ih =>
    obtain ⟨fresh, others⟩ := List.nodup_cons.1 distinct
    rw [List.forall_mem_cons] at sources
    have source : g.inDegree (front ++ row) v = 0 :=
      inDegree_eq_zero.2 fun u member => sources.1 u (List.mem_cons_of_mem _ member)
    have inner := ih others fun w member u inside => sources.2 w member u (List.mem_cons_of_mem _ inside)
    exact inner.cons loopless fresh (source.trans_le (Nat.zero_le _))

theorem Balanced.sinks {back : List Nat} (balanced : g.Balanced row) (distinct : (row ++ back).Nodup)
    (sinks : ∀ v ∈ back, ∀ w ∈ row ++ back, ¬ g.Adj v w) : g.Balanced (row ++ back) := by
  induction back using List.reverseRecOn with
  | nil => simpa using balanced
  | append_singleton back v ih =>
    rw [← List.append_assoc] at distinct sinks ⊢
    have fresh : v ∉ row ++ back := fun member => List.disjoint_of_nodup_append distinct member (by simp)
    have sink : g.outDegree (row ++ back) v = 0 :=
      outDegree_eq_zero.2 fun w member => sinks v (by simp) w (List.mem_append_left _ member)
    have inner := ih distinct.of_append_left fun u member w inside =>
      sinks u (List.mem_append_left _ member) w (List.mem_append_left _ inside)
    exact inner.append loopless fresh (sink.trans_le (Nat.zero_le _))

theorem Peels.balanced_sources (peels : Peels g.inDegree active left taken) (distinct : active.Nodup)
    (same : row.Perm left) (balanced : g.Balanced row) : g.Balanced (taken ++ row) := by
  induction peels with
  | done => exact balanced
  | round ready later ih =>
    have whole := (Peels.round ready later).sources_perm same
    have inner := ih (distinct.filter _) same
    rw [List.append_assoc] at whole ⊢
    refine inner.sources loopless (whole.nodup_iff.2 distinct) fun v member u inside => ?_
    have source := (List.mem_filter.1 member).2
    exact inDegree_eq_zero.1 (by simpa using source) u (whole.mem_iff.1 inside)

theorem Peels.balanced_sinks (peels : Peels g.outDegree active left taken) (distinct : active.Nodup)
    (same : row.Perm left) (balanced : g.Balanced row) : g.Balanced (row ++ taken.reverse) := by
  induction peels with
  | done => simpa using balanced
  | round ready later ih =>
    have whole := (Peels.round ready later).sinks_perm same
    have inner := ih (distinct.filter _) same
    rw [List.reverse_append, ← List.append_assoc] at whole ⊢
    refine inner.sinks loopless (whole.nodup_iff.2 distinct) fun v member w inside => ?_
    have sink := (List.mem_filter.1 (List.mem_reverse.1 member)).2
    exact outDegree_eq_zero.1 (by simpa using sink) w (whole.mem_iff.1 inside)

/-- When the foremost vertex is taken off, its degrees stay as they are. -/
theorem Foremost.degrees_row (distinct : active.Nodup) (foremost : Foremost (g.surplus active) active v)
    (same : row.Perm (active.erase v)) : g.inDegree row v ≤ g.outDegree row v := by
  calc g.inDegree row v
      ≤ g.inDegree active v := List.countP_mono_left fun u _ member => by
        simp only [decide_eq_true_eq] at member ⊢
        exact List.mem_of_mem_erase (same.mem_iff.1 member)
    _ ≤ g.outDegree active v := foremost.degrees distinct
    _ = g.outDegree row v := List.countP_congr fun w edge => by
        have different : w ≠ v := by
          rintro rfl
          exact loopless w (mem_successors.1 edge)
        simp [same.mem_iff, List.mem_erase_of_ne different]

theorem Arranges.balanced (arranges : g.Arranges active row) (distinct : active.Nodup) : g.Balanced row := by
  induction arranges with
  | done sinks sources =>
    have inner := sinks.left_nodup distinct
    have front := sources.balanced_sources loopless inner (.refl _) g.balanced_nil
    rw [List.append_nil] at front
    have same := sources.perm
    rw [List.append_nil] at same
    exact sinks.balanced_sinks loopless distinct same front
  | @pick active left back rest front row v sinks sources foremost later ih =>
    have inner := sinks.left_nodup distinct
    have apart := sources.left_nodup inner
    have same := later.perm
    have picked := ih (apart.erase v)
    have fresh : v ∉ row := fun member => apart.not_mem_erase (same.mem_iff.1 member)
    have degrees := Foremost.degrees_row loopless apart foremost same
    have middle := (same.cons v).trans (List.perm_cons_erase foremost.inside).symm
    have front := sources.balanced_sources loopless inner middle (picked.cons loopless fresh degrees)
    exact sinks.balanced_sinks loopless distinct (sources.sources_perm middle) front

end

/-- Every edge between vertices of the row points one way or the other. -/
theorem pointing_add (proper : g.Proper) (whole : row.Perm g.vertices) :
    g.edges.length = g.pointing true row + g.pointing false row := by
  rw [← List.countP_true]
  refine countP_add fun ⟨u, v⟩ edge => ?_
  obtain ⟨first, second⟩ := proper u v edge
  simp only [whole.mem_iff, mem_vertices, first, second]
  cases isBackward row (u, v) <;> rfl

theorem pointing_true (proper : g.Proper) (whole : row.Perm g.vertices) :
    g.pointing true row = g.edges.countP (isBackward row) := by
  refine List.countP_congr fun ⟨u, v⟩ edge => ?_
  obtain ⟨first, second⟩ := proper u v edge
  simp [whole.mem_iff, mem_vertices, first, second]

theorem forward_ne {order : List Nat} {e : Nat × Nat} (different : e.1 ≠ e.2) :
    forward order e ≠ e ↔ isBackward order e := by
  unfold forward
  split
  · next backward => simpa [backward, Prod.ext_iff] using fun same => absurd same.symm different
  · next stays => simp [stays]

end Digraph

open Flowchart.Digraph

/-- The graph was made by reversing at most half of the edges: all loops that arrange the vertices come to an end,
    every vertex stands in the row once, every edge is an edge of the first graph or its reverse, at the same place
    among the edges, and points forwards in the row, and those that were reversed are counted. -/
structure Acyclic.Breaks (a : Acyclic) (g : Digraph) : Prop where
  arranged : g.Arranges g.vertices a.order
  once : a.order.Perm g.vertices
  size : a.dag.size = g.size
  kept : List.Forall₂ (fun e d => d = e ∨ d = e.swap) g.edges a.dag.edges
  forwards : ∀ e ∈ a.dag.edges, a.order.idxOf e.1 < a.order.idxOf e.2
  counted : a.reversed = (g.edges.zip a.dag.edges).countP fun p => p.2 ≠ p.1
  few : 2 * a.reversed ≤ g.edges.length

/-- Breaking the cycles of a graph without self loops. -/
theorem Digraph.breakCycles_breaks {g : Digraph} (proper : g.Proper) (loopless : ∀ v, ¬ g.Adj v v) :
    g.breakCycles.Breaks g := by
  have arranged := arrangement_arranges proper
  have once := arranged.perm
  have balanced := arranged.balanced loopless List.nodup_range
  refine ⟨arranged, once, rfl, ?_, (breakCycles_isTopological proper loopless).2, ?_, ?_⟩
  · show List.Forall₂ _ g.edges (g.edges.map (forward g.arrangement))
    rw [List.forall₂_map_right_iff, List.forall₂_same]
    exact fun e _ => forward_cases g.arrangement e
  · show g.edges.countP (isBackward g.arrangement) =
      (g.edges.zip (g.edges.map (forward g.arrangement))).countP fun p => p.2 ≠ p.1
    rw [← List.map_prod_left_eq_zip, List.countP_map]
    refine List.countP_congr fun ⟨u, v⟩ edge => ?_
    have different : u ≠ v := by
      rintro rfl
      exact loopless u edge
    simpa using (forward_ne (e := (u, v)) different).symm
  · show 2 * g.edges.countP (isBackward g.arrangement) ≤ g.edges.length
    have parts := pointing_add proper once
    have backwards := pointing_true proper once
    unfold Balanced at balanced
    omega

/-- Two cycles with a vertex in common, an edge of one of them doubled, and a vertex apart. -/
def tangle : Digraph := ⟨6, [(0, 1), (1, 2), (2, 0), (2, 3), (1, 2), (3, 4), (4, 2)]⟩

theorem tangle_breaks :
    tangle.Proper ∧ (∀ v, ¬ tangle.Adj v v) ∧ tangle.breakCycles.Breaks tangle ∧
      tangle.breakCycles = ⟨⟨6, [(1, 0), (1, 2), (2, 0), (2, 3), (1, 2), (3, 4), (2, 4)]⟩,
        [1, 2, 3, 4, 0, 5], 2⟩ := by
  have ends : ∀ e ∈ tangle.edges, e.1 < 6 ∧ e.2 < 6 ∧ e.1 ≠ e.2 := by decide
  have proper : tangle.Proper := fun u v edge => ⟨(ends (u, v) edge).1, (ends (u, v) edge).2.1⟩
  have loopless : ∀ v, ¬ tangle.Adj v v := fun v loop => (ends (v, v) loop).2.2 rfl
  exact ⟨proper, loopless, Digraph.breakCycles_breaks proper loopless, by decide⟩

end Flowchart
