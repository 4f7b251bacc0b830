import Mathlib.Algebra.Order.Ring.Nat
import Flowchart.Proofs.Layout.LongestPaths

/-!
Dummies. Splitting an edge leads a way through new dummies, one on every rank between its ends; it touches no vertex but
these and the two ends (`Splits.addSplit`). So when all edges of a layering are split, every edge leads from one rank to
the next and every dummy stands between one predecessor and one successor, and when the ways through dummies are
contracted, the edges of the layering come back in their order (`splits_of_layers`).
-/
namespace Flowchart

/-! ### Layerings -/

namespace Layering
open Flowchart.Digraph

/-- Every vertex has a rank, and every edge leads to a higher one. -/
structure Rising (l : Layering) : Prop where
  sized : l.ranks.length = l.dag.size
  proper : l.dag.Proper
  rises : ∀ u v, l.dag.Adj u v → rankIn l.ranks u < rankIn l.ranks v

/-- The layerings of a graph: along any of its topological orders, and after breaking its cycles. -/
inductive Layers (g : Digraph) : Layering → Prop
  | along {order : List Nat} : g.IsTopological order → Layers g (alongOrder g order)
  | broken : Layers g (breakingCycles g)

theorem Layers.rising {g : Digraph} {l : Layering} (layers : Layers g l) (proper : g.Proper)
    (loopless : ∀ v, ¬ g.Adj v v) : l.Rising := by
  cases layers with
  | along topological => exact ⟨longestPaths_length g _, proper, (longestPaths_spec proper topological).1⟩
  | broken =>
    have acyclic := breakCycles_proper proper
    have topological := breakCycles_isTopological proper loopless
    exact ⟨longestPaths_length _ _, acyclic, (longestPaths_spec acyclic topological).1⟩

end Layering

namespace Augmented

/-! ### Ways -/

theorem pathEdges_fst (path : List Nat) : (pathEdges path).map Prod.fst = path.dropLast := by
  induction path with
  | nil => rfl
  | cons u rest ih =>
    cases rest with
    | nil => rfl
    | cons v rest => exact congrArg (u :: ·) ih

theorem pathEdges_snd (path : List Nat) : (pathEdges path).map Prod.snd = path.tail :=
  List.map_snd_zip (by simp)

theorem pathEdges_isChain (path : List Nat) : path.IsChain fun u v => (u, v) ∈ pathEdges path := by
  induction path with
  | nil => exact .nil
  | cons u rest ih =>
    cases rest with
    | nil => exact .singleton u
    | cons v rest => exact .cons_cons List.mem_cons_self (ih.imp fun _ _ member => List.mem_cons_of_mem _ member)

/-- On a way through consecutive ranks every edge leads to the next one. -/
theorem pathEdges_ranks {rank : Nat → Nat} {path : List Nat} {r n : Nat} (ranks : path.map rank = List.range' r n) :
    ∀ e ∈ pathEdges path, rank e.2 = rank e.1 + 1 := by
  induction path generalizing r n with
  | nil => exact fun _ member => absurd member List.not_mem_nil
  | cons u rest ih =>
    cases rest with
    | nil => exact fun _ member => absurd member List.not_mem_nil
    | cons v rest =>
      obtain ⟨m, rfl⟩ : ∃ m, n = m + 2 := ⟨rest.length, by simpa using (congrArg List.length ranks).symm⟩
      rw [List.range'_succ, List.map_cons, List.cons.injEq] at ranks
      obtain ⟨here, later⟩ := ranks
      intro e member
      rcases List.mem_cons.1 member with rfl | behind
      · rw [List.range'_succ, List.map_cons, List.cons.injEq] at later
        rw [here, later.1]
      · exact ih later e behind

/-- The vertex where a way ends that goes on through dummies. It meets no rank twice, so there are no more steps than
    ranks. -/
def wayEnd (a : Augmented) : (steps : Nat) → Nat → Nat
  | 0, v => v
  | steps + 1, v =>
    if a.isDummy v then
      match a.graph.successors v with
      | w :: _ => a.wayEnd steps w
      | [] => v
    else v

/-- The edges out of the vertices that are no dummies, in order, each contracted with the way that it starts. -/
def contracted (a : Augmented) : List (Nat × Nat) :=
  (a.graph.edges.filter fun e => !a.isDummy e.1).map fun e => (e.1, a.wayEnd a.rankCount e.2)

theorem wayEnd_real {a : Augmented} {v : Nat} (real : a.isDummy v = false) (steps : Nat) : a.wayEnd steps v = v := by
  cases steps with
  | zero => rfl
  | succ steps => simp [wayEnd, real]

theorem wayEnd_dummy {a : Augmented} {v w : Nat} (dummy : a.isDummy v) (next : a.graph.successors v = [w])
    (steps : Nat) : a.wayEnd (steps + 1) v = a.wayEnd steps w := by
  simp [wayEnd, dummy, next]

/-- A way through dummies of one successor each leads to its last vertex. -/
theorem wayEnd_path {a : Augmented} {path behind : List Nat} {v t : Nat} (shape : path ++ [t] = v :: behind)
    (chain : (v :: behind).IsChain a.graph.Adj)
    (through : ∀ u ∈ path, a.isDummy u ∧ (a.graph.successors u).length = 1) (real : a.isDummy t = false) {steps : Nat}
    (enough : path.length ≤ steps) : a.wayEnd steps v = t := by
  induction path generalizing v behind steps with
  | nil =>
    obtain rfl : t = v := (List.cons.inj shape).1
    exact wayEnd_real real steps
  | cons u rest ih =>
    obtain ⟨rfl, rfl⟩ : u = v ∧ rest ++ [t] = behind := List.cons.inj shape
    obtain ⟨m, rfl⟩ : ∃ m, steps = m + 1 := ⟨steps - 1, by rw [List.length_cons] at enough; omega⟩
    obtain ⟨w, later, split⟩ := List.exists_cons_of_ne_nil (l := rest ++ [t]) (by simp)
    obtain ⟨dummy, single⟩ := through u List.mem_cons_self
    rw [split, List.isChain_cons_cons] at chain
    have next : a.graph.successors u = [w] := by
      obtain ⟨x, only⟩ := List.length_eq_one_iff.1 single
      have member := Digraph.mem_successors.2 chain.1
      rw [only, List.mem_singleton] at member
      rw [only, member]
    rw [wayEnd_dummy dummy next]
    exact ih split chain.2 (fun x member => through x (List.mem_cons_of_mem _ member)) (Nat.le_of_succ_le_succ enough)

/-! ### One edge -/

/-- The new dummies of an edge that is split. -/
def newDummies (a : Augmented) (e : Nat × Nat) : List Nat :=
  List.range' a.graph.size (ranksBetween a.ranks e).length

/-- The way that an edge is split into. -/
def way (a : Augmented) (e : Nat × Nat) : List Nat := e.1 :: (a.newDummies e ++ [e.2])

theorem addSplit_edges (a : Augmented) (e : Nat × Nat) :
    (a.addSplit e).graph.edges = a.graph.edges ++ pathEdges (a.way e) := rfl

theorem mem_newDummies {a : Augmented} {e : Nat × Nat} {v : Nat} :
    v ∈ a.newDummies e ↔ a.graph.size ≤ v ∧ v < (a.addSplit e).graph.size := List.mem_range'_1

theorem newDummies_length (a : Augmented) (e : Nat × Nat) :
    (a.newDummies e).length = (ranksBetween a.ranks e).length := List.length_range'

theorem way_tails (a : Augmented) (e : Nat × Nat) : (pathEdges (a.way e)).map Prod.fst = e.1 :: a.newDummies e := by
  rw [pathEdges_fst, way, ← List.cons_append, List.dropLast_concat]

theorem way_heads (a : Augmented) (e : Nat × Nat) : (pathEdges (a.way e)).map Prod.snd = a.newDummies e ++ [e.2] :=
  pathEdges_snd _

theorem length_filter_eq_count {β : Type} (key : β → Nat) (items : List β) (v : Nat) :
    (items.filter (key · = v)).length = (items.map key).count v := by
  rw [← List.countP_eq_length_filter, List.count, List.countP_map]
  rfl

theorem successors_addSplit (a : Augmented) (e : Nat × Nat) (v : Nat) :
    (a.addSplit e).graph.successors v =
      a.graph.successors v ++ ((pathEdges (a.way e)).filter (·.1 = v)).map Prod.snd := by
  simp [Digraph.successors, addSplit_edges]

theorem successors_length (a : Augmented) (e : Nat × Nat) (v : Nat) :
    ((a.addSplit e).graph.successors v).length = (a.graph.successors v).length + (e.1 :: a.newDummies e).count v := by
  rw [successors_addSplit, List.length_append, List.length_map, length_filter_eq_count, way_tails]

theorem predecessors_addSplit (a : Augmented) (e : Nat × Nat) (v : Nat) :
    (a.addSplit e).graph.predecessors v =
      a.graph.predecessors v ++ ((pathEdges (a.way e)).filter (·.2 = v)).map Prod.fst := by
  simp [Digraph.predecessors, addSplit_edges]

theorem predecessors_length (a : Augmented) (e : Nat × Nat) (v : Nat) :
    ((a.addSplit e).graph.predecessors v).length =
      (a.graph.predecessors v).length + (a.newDummies e ++ [e.2]).count v := by
  rw [predecessors_addSplit, List.length_append, List.length_map, length_filter_eq_count, way_heads]

theorem rankIn_append {ranks more : List Nat} {v : Nat} (inside : v < ranks.length) :
    rankIn (ranks ++ more) v = rankIn ranks v := by
  simp [rankIn, List.getD_eq_getElem?_getD, List.getElem?_append_left inside]

theorem map_rankIn_append (ranks more : List Nat) :
    (List.range' ranks.length more.length).map (rankIn (ranks ++ more)) = more := by
  apply List.ext_getElem
  · simp
  · intro i inside inside'
    simp [rankIn, inside']

/-- The edges of a layering are split: its vertices keep their places and their ranks, every edge leads from one rank to
    the next, dummies have one predecessor and one successor, there is one for each rank between the ends of an
    edge, and contracting the ways through them gives the edges back. -/
structure Splits (l : Layering) (edges : List (Nat × Nat)) (a : Augmented) : Prop extends a.Sound l where
  proper : a.graph.Proper
  steps : ∀ u v, a.graph.Adj u v → rankIn a.ranks v = rankIn a.ranks u + 1
  dummies : ∀ v < a.graph.size, a.isDummy v → (a.graph.predecessors v).length = 1 ∧ (a.graph.successors v).length = 1
  rises : ∀ e ∈ edges, rankIn l.ranks e.1 < rankIn l.ranks e.2
  dummyCount : a.dummyCount = (edges.map fun e => rankIn l.ranks e.2 - rankIn l.ranks e.1 - 1).sum
  contracted : a.contracted = edges

namespace Splits
variable {l : Layering} {edges : List (Nat × Nat)} {a : Augmented} (splits : a.Splits l edges) {e : Nat × Nat}
include splits

theorem isDummy_iff {v : Nat} : a.isDummy v ↔ l.dag.size ≤ v := by
  simp [isDummy, splits.realCount]

theorem isDummy_real {v : Nat} (real : v < l.dag.size) : (a.addSplit e).isDummy v = false :=
  Bool.eq_false_iff.2 fun dummy => absurd (splits.isDummy_iff.1 dummy) (Nat.not_le.2 real)

theorem rank_old {v : Nat} (old : v < a.graph.size) : rankIn (a.addSplit e).ranks v = rankIn a.ranks v :=
  rankIn_append (splits.size ▸ old)

theorem rank_lt {v : Nat} (inside : v < a.graph.size) : rankIn a.ranks v < a.rankCount :=
  splits.bounded _ (mem_ranks.2 ⟨v, splits.size ▸ inside, rfl⟩)

theorem neighbours_new {v : Nat} (new : a.graph.size ≤ v) :
    a.graph.predecessors v = [] ∧ a.graph.successors v = [] := by
  constructor
  · refine List.eq_nil_iff_forall_not_mem.2 fun u member => ?_
    have := (splits.proper u v (Digraph.mem_predecessors.1 member)).2
    omega
  · refine List.eq_nil_iff_forall_not_mem.2 fun w member => ?_
    have := (splits.proper v w (Digraph.mem_successors.1 member)).1
    omega

variable (rising : l.Rising)
include rising

theorem real_le : l.dag.size ≤ a.graph.size := by
  rw [splits.size, ← rising.sized]
  exact splits.ranks.length_le

theorem isDummy_new {v : Nat} (new : v ∈ a.newDummies e) : (a.addSplit e).isDummy v :=
  splits.isDummy_iff.2 ((splits.real_le rising).trans (mem_newDummies.1 new).1)

theorem rank_real {v : Nat} (real : v < l.dag.size) : rankIn a.ranks v = rankIn l.ranks v := by
  obtain ⟨more, whole⟩ := splits.ranks
  rw [← whole, rankIn_append (rising.sized ▸ real)]

variable (edge : l.dag.Adj e.1 e.2)
include edge

/-! ### The way of the edge -/

theorem between_length : (ranksBetween a.ranks e).length = rankIn l.ranks e.2 - rankIn l.ranks e.1 - 1 := by
  obtain ⟨first, second⟩ := rising.proper _ _ edge
  rw [ranksBetween, List.length_range', splits.rank_real rising first, splits.rank_real rising second, Nat.sub_sub]

theorem way_lt : ∀ v ∈ a.way e, v < (a.addSplit e).graph.size := by
  obtain ⟨first, second⟩ := rising.proper _ _ edge
  have real := splits.real_le rising
  have grown : a.graph.size ≤ (a.addSplit e).graph.size := Nat.le_add_right _ _
  intro v member
  rcases List.mem_cons.1 member with rfl | behind
  · omega
  · rcases List.mem_append.1 behind with new | last
    · exact (mem_newDummies.1 new).2
    · rw [List.mem_singleton.1 last]
      omega

/-- The way leads through the ranks one after the other. -/
theorem way_ranks : (a.way e).map (rankIn (a.addSplit e).ranks) =
    List.range' (rankIn l.ranks e.1) ((ranksBetween a.ranks e).length + 2) := by
  obtain ⟨first, second⟩ := rising.proper _ _ edge
  have real := splits.real_le rising
  have higher := rising.rises _ _ edge
  have source : rankIn (a.addSplit e).ranks e.1 = rankIn l.ranks e.1 := by
    rw [splits.rank_old (by omega), splits.rank_real rising first]
  have target : rankIn (a.addSplit e).ranks e.2 = rankIn l.ranks e.2 := by
    rw [splits.rank_old (by omega), splits.rank_real rising second]
  have dummies : (a.newDummies e).map (rankIn (a.addSplit e).ranks) =
      List.range' (rankIn l.ranks e.1 + 1) (ranksBetween a.ranks e).length := by
    have appended := map_rankIn_append a.ranks (ranksBetween a.ranks e)
    rw [← splits.size] at appended
    refine appended.trans ?_
    rw [splits.between_length rising edge, ranksBetween, splits.rank_real rising first,
      splits.rank_real rising second, Nat.sub_sub]
  have last : rankIn l.ranks e.2 = rankIn l.ranks e.1 + 1 + (ranksBetween a.ranks e).length := by
    rw [splits.between_length rising edge]
    omega
  rw [way, List.map_cons, List.map_append, source, dummies, List.map_singleton, target, last, List.range'_succ,
    List.range'_1_concat]

theorem addSplit_proper : (a.addSplit e).graph.Proper := by
  intro u v member
  rcases List.mem_append.1 member with old | new
  · have grown : a.graph.size ≤ (a.addSplit e).graph.size := Nat.le_add_right _ _
    obtain ⟨first, second⟩ := splits.proper u v old
    exact ⟨first.trans_le grown, second.trans_le grown⟩
  · obtain ⟨first, second⟩ := List.of_mem_zip new
    exact ⟨splits.way_lt rising edge u first, splits.way_lt rising edge v (List.mem_of_mem_tail second)⟩

theorem addSplit_steps {u v : Nat} (member : (a.addSplit e).graph.Adj u v) :
    rankIn (a.addSplit e).ranks v = rankIn (a.addSplit e).ranks u + 1 := by
  rcases List.mem_append.1 member with old | new
  · obtain ⟨first, second⟩ := splits.proper u v old
    rw [splits.rank_old first, splits.rank_old second, splits.steps u v old]
  · exact pathEdges_ranks (splits.way_ranks rising edge) (u, v) new

/-- An old dummy gets no new neighbour, and a new one has its neighbours on the way only. -/
theorem addSplit_dummies {v : Nat} (inside : v < (a.addSplit e).graph.size) (dummy : (a.addSplit e).isDummy v) :
    ((a.addSplit e).graph.predecessors v).length = 1 ∧ ((a.addSplit e).graph.successors v).length = 1 := by
  obtain ⟨first, second⟩ := rising.proper _ _ edge
  have behind : l.dag.size ≤ v := splits.isDummy_iff.1 dummy
  have others : e.1 ≠ v ∧ e.2 ≠ v := by omega
  rw [predecessors_length, successors_length, List.count_append, List.count_cons_of_ne others.1,
    List.count_singleton, if_neg (by simpa using others.2)]
  by_cases old : v < a.graph.size
  · have none : v ∉ a.newDummies e := fun new => absurd (mem_newDummies.1 new).1 (by omega)
    rw [List.count_eq_zero.2 none]
    exact splits.dummies v old dummy
  · have new : v ∈ a.newDummies e := mem_newDummies.2 ⟨by omega, inside⟩
    obtain ⟨noPredecessor, noSuccessor⟩ := splits.neighbours_new (Nat.le_of_not_lt old)
    have once : (a.newDummies e).count v = 1 := List.count_eq_one_of_mem List.nodup_range' new
    rw [noPredecessor, noSuccessor, once]
    exact ⟨rfl, rfl⟩

/-! ### Contracting the ways -/

theorem wayEnd_old (steps : Nat) {v : Nat} (old : v < a.graph.size) :
    (a.addSplit e).wayEnd steps v = a.wayEnd steps v := by
  have source := (rising.proper _ _ edge).1
  induction steps generalizing v with
  | zero => rfl
  | succ steps ih =>
    by_cases dummy : a.isDummy v
    · have apart : ∀ p ∈ pathEdges (a.way e), p.1 ≠ v := by
        intro p member same
        have tail : p.1 ∈ e.1 :: a.newDummies e := way_tails a e ▸ List.mem_map_of_mem member
        have behind := splits.isDummy_iff.1 dummy
        rcases List.mem_cons.1 tail with start | new
        · omega
        · have := (mem_newDummies.1 new).1
          omega
      have none : (pathEdges (a.way e)).filter (·.1 = v) = [] := List.filter_eq_nil_iff.2 (by simpa using apart)
      obtain ⟨w, next⟩ := List.length_eq_one_iff.1 (splits.dummies v old dummy).2
      have next' : (a.addSplit e).graph.successors v = [w] := by
        rw [successors_addSplit, none, List.map_nil, List.append_nil, next]
      have further : a.graph.Adj v w := Digraph.mem_successors.1 (next ▸ List.mem_singleton_self w)
      rw [wayEnd_dummy dummy next, wayEnd_dummy (a := a.addSplit e) dummy next', ih (splits.proper v w further).2]
    · have real : a.isDummy v = false := by simpa using dummy
      rw [wayEnd_real real, wayEnd_real (a := a.addSplit e) real]

/-- Of the edges of the way only the first does not start at a dummy. -/
theorem way_front {w : Nat} {behind : List Nat} (shape : a.newDummies e ++ [e.2] = w :: behind) :
    (pathEdges (a.way e)).filter (fun p => !(a.addSplit e).isDummy p.1) = [(e.1, w)] := by
  have split : pathEdges (a.way e) = (e.1, w) :: pathEdges (w :: behind) := by
    rw [way, shape]
    rfl
  have tails : (pathEdges (w :: behind)).map Prod.fst = a.newDummies e := by
    rw [← shape, pathEdges_fst, List.dropLast_concat]
  have none : (pathEdges (w :: behind)).filter (fun p => !(a.addSplit e).isDummy p.1) = [] := by
    refine List.filter_eq_nil_iff.2 fun p member => ?_
    have tail : p.1 ∈ a.newDummies e := tails ▸ List.mem_map_of_mem member
    simp [splits.isDummy_new rising tail]
  have real : (a.addSplit e).isDummy e.1 = false := splits.isDummy_real (rising.proper _ _ edge).1
  rw [split, List.filter_cons_of_pos (by simp [real]), none]

/-- From its second vertex the way leads to the head of the edge. -/
theorem wayEnd_second {w : Nat} {behind : List Nat} (shape : a.newDummies e ++ [e.2] = w :: behind) :
    (a.addSplit e).wayEnd a.rankCount w = e.2 := by
  obtain ⟨-, second⟩ := rising.proper _ _ edge
  have chain : (w :: behind).IsChain (a.addSplit e).graph.Adj := by
    have whole := (pathEdges_isChain (a.way e)).tail
    rw [way, List.tail_cons, shape] at whole
    refine whole.imp fun u v member => ?_
    rw [Digraph.Adj, addSplit_edges, way, shape]
    exact List.mem_append_right _ member
  have through : ∀ v ∈ a.newDummies e,
      (a.addSplit e).isDummy v ∧ ((a.addSplit e).graph.successors v).length = 1 := by
    intro v new
    have dummy := splits.isDummy_new rising new
    exact ⟨dummy, (splits.addSplit_dummies rising edge (mem_newDummies.1 new).2 dummy).2⟩
  refine wayEnd_path shape chain through (splits.isDummy_real second) ?_
  have bound := splits.rank_lt (second.trans_le (splits.real_le rising))
  rw [splits.rank_real rising second] at bound
  rw [newDummies_length, splits.between_length rising edge]
  omega

/-- The first edge of the way is contracted with the rest of it. -/
theorem addSplit_contracted : (a.addSplit e).contracted = a.contracted ++ [e] := by
  obtain ⟨w, behind, shape⟩ := List.exists_cons_of_ne_nil (l := a.newDummies e ++ [e.2]) (by simp)
  have old : (a.graph.edges.filter fun p => !(a.addSplit e).isDummy p.1).map
      (fun p => (p.1, (a.addSplit e).wayEnd a.rankCount p.2)) = a.contracted := by
    refine List.map_congr_left fun p member => ?_
    have inside : a.graph.Adj p.1 p.2 := List.mem_of_mem_filter member
    rw [splits.wayEnd_old rising edge _ (splits.proper _ _ inside).2]
  show ((a.addSplit e).graph.edges.filter _).map (fun p => (p.1, (a.addSplit e).wayEnd a.rankCount p.2)) = _
  rw [addSplit_edges, List.filter_append, List.map_append, old, splits.way_front rising edge shape, List.map_singleton,
    splits.wayEnd_second rising edge shape]

/-! ### Every edge -/

theorem addSplit : (a.addSplit e).Splits l (edges ++ [e]) := by
  have total : (a.addSplit e).dummyCount = a.dummyCount + (ranksBetween a.ranks e).length := by
    have real := splits.real_le rising
    have real' := splits.realCount
    show a.graph.size + (ranksBetween a.ranks e).length - a.realCount = a.graph.size - a.realCount + _
    omega
  refine ⟨addSplit_sound splits.toSound e, splits.addSplit_proper rising edge,
    fun _ _ => splits.addSplit_steps rising edge, fun _ => splits.addSplit_dummies rising edge, ?_, ?_, ?_⟩
  · intro d member
    rcases List.mem_append.1 member with before | last
    · exact splits.rises d before
    · rw [List.mem_singleton.1 last]
      exact rising.rises _ _ edge
  · rw [total, splits.dummyCount, splits.between_length rising edge, List.map_append, List.sum_append,
      List.map_singleton, List.sum_singleton]
  · rw [splits.addSplit_contracted rising edge, splits.contracted]

end Splits

theorem splits_nil {l : Layering} (rising : l.Rising) :
    Splits l [] ⟨⟨l.dag.size, []⟩, l.ranks, l.count, l.dag.size⟩ := by
  refine ⟨⟨rising.sized.symm, List.prefix_rfl, fun _ => lt_rankCount, rfl⟩, by simp [Digraph.Proper, Digraph.Adj],
    by simp [Digraph.Adj], ?_, by simp, by simp [dummyCount], rfl⟩
  intro v inside dummy
  simp only [isDummy, decide_eq_true_eq] at dummy
  exact absurd inside (Nat.not_lt.2 dummy)

/-- All edges of a layering are split. -/
theorem of_splits {l : Layering} (rising : l.Rising) : (Augmented.of l).Splits l l.dag.edges := by
  suffices ∀ (rest done : List (Nat × Nat)) (a : Augmented), (∀ e ∈ rest, l.dag.Adj e.1 e.2) → a.Splits l done →
      (rest.foldl Augmented.addSplit a).Splits l (done ++ rest) from
    this l.dag.edges [] _ (fun _ member => member) (splits_nil rising)
  intro rest
  induction rest with
  | nil =>
    intro done a _ splits
    rwa [List.append_nil]
  | cons e rest ih =>
    intro done a inside splits
    have later := ih (done ++ [e]) _ (fun d member => inside d (List.mem_cons_of_mem _ member))
      (splits.addSplit rising (inside e List.mem_cons_self))
    rwa [List.append_assoc] at later

/-- Any layering of a graph without self loops has all its edges split. -/
theorem splits_of_layers {g : Digraph} (proper : g.Proper) (loopless : ∀ v, ¬ g.Adj v v) {l : Layering}
    (layers : Layering.Layers g l) : (Augmented.of l).Splits l l.dag.edges :=
  of_splits (layers.rising proper loopless)

/-- A cycle and its chords, edges across one rank and across two, one of them doubled, and a vertex apart. -/
def braid : Digraph := ⟨6, [(0, 1), (1, 2), (2, 3), (0, 3), (3, 1), (0, 3), (0, 2), (4, 3)]⟩

theorem braid_splits :
    braid.Proper ∧ (∀ v, ¬ braid.Adj v v) ∧ Layering.Layers braid (Layering.breakingCycles braid) ∧
      (Augmented.of (Layering.breakingCycles braid)).Splits (Layering.breakingCycles braid)
        [(0, 1), (1, 2), (2, 3), (0, 3), (1, 3), (0, 3), (0, 2), (4, 3)] ∧
      (Augmented.of (Layering.breakingCycles braid)).ranks = [0, 1, 2, 3, 0, 0, 1, 2, 2, 1, 2, 1, 1, 2] := by
  have ends : ∀ e ∈ braid.edges, e.1 < 6 ∧ e.2 < 6 ∧ e.1 ≠ e.2 := by decide
  have proper : braid.Proper := fun u v edge => ⟨(ends (u, v) edge).1, (ends (u, v) edge).2.1⟩
  have loopless : ∀ v, ¬ braid.Adj v v := fun v loop => (ends (v, v) loop).2.2 rfl
  exact ⟨proper, loopless, .broken, splits_of_layers proper loopless .broken, by decide⟩

end Augmented
end Flowchart
