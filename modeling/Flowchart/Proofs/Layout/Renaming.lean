import Mathlib.Data.List.GetD
import Mathlib.Data.List.Perm.Subperm
import Flowchart.Layout.Placement
import Flowchart.Proofs.Layout.Ranks

/-!
Vertices under other names. When a function gives every vertex a name of its own, what a drawing does with the new
names is what it does with the old ones: places, crossings, barycenters and sweeps stay the same, vertex by vertex
(`improve_rename`), and so do the centers of packed and aligned ranks (`across_rename`). Only where vertices are
listed in ascending order do names count (`initial_rename`).
-/
namespace Flowchart

/-- Every vertex under its new name. -/
def Digraph.rename (f : Nat → Nat) (g : Digraph) : Digraph := { g with edges := g.edges.map (Prod.map f f) }

variable {f : Nat → Nat} (inj : f.Injective)
include inj

namespace Digraph

theorem successors_rename (g : Digraph) (v : Nat) : (g.rename f).successors (f v) = (g.successors v).map f := by
  simp only [successors, rename, List.filter_map, List.map_map]
  congr 1
  refine List.filter_congr fun e _ => ?_
  simp [inj.eq_iff]

theorem predecessors_rename (g : Digraph) (v : Nat) : (g.rename f).predecessors (f v) = (g.predecessors v).map f := by
  simp only [predecessors, rename, List.filter_map, List.map_map]
  congr 1
  refine List.filter_congr fun e _ => ?_
  simp [inj.eq_iff]

end Digraph

namespace Ordering

/-! ### Crossings -/

theorem place_rename (o : Ordering) (v : Nat) : place (o.map (List.map f)) (f v) = place o v := by
  unfold place
  rw [List.foldl_map]
  congr 1
  funext p rank
  rw [List.zipIdx_map, List.foldl_map]
  congr 1
  funext p q
  simp [inj.eq_iff]

theorem segments_rename (g : Digraph) (o : Ordering) (rank : List Nat) :
    segments (g.rename f) (o.map (List.map f)) (rank.map f) = segments g o rank := by
  unfold segments
  rw [List.flatMap_map]
  congr 1
  funext v
  rw [Digraph.successors_rename inj, List.map_map]
  congr 1
  funext w
  simp only [Function.comp_apply, place_rename inj]

theorem crossings_rename (g : Digraph) (o : Ordering) :
    crossings (g.rename f) (o.map (List.map f)) = crossings g o := by
  unfold crossings
  rw [← List.map_dropLast, List.foldr_map]
  congr 1
  funext rank count
  rw [segments_rename inj]

/-! ### Sweeps -/

theorem placeOn?_rename (rank : List Nat) (v : Nat) : placeOn? (rank.map f) (f v) = placeOn? rank v := by
  unfold placeOn?
  rw [List.zipIdx_map, List.foldl_map]
  congr 1
  funext p q
  simp [inj.eq_iff]

section
variable {neighbours neighbours' : Nat → List Nat} (same : ∀ v, neighbours' (f v) = (neighbours v).map f)
include same

theorem barycenter_rename (fixed : List Nat) (v current : Nat) :
    barycenter neighbours' (fixed.map f) (f v) current = barycenter neighbours fixed v current := by
  have places : (neighbours' (f v)).filterMap (placeOn? (fixed.map f)) = (neighbours v).filterMap (placeOn? fixed) := by
    rw [same, List.filterMap_map]
    congr 1
    funext u
    exact placeOn?_rename inj fixed u
  unfold barycenter
  rw [places]

theorem reorder_rename (fixed rank : List Nat) :
    reorder neighbours' (fixed.map f) (rank.map f) = (reorder neighbours fixed rank).map f := by
  have keyed : (rank.map f).zipIdx.map (fun p => (barycenter neighbours' (fixed.map f) p.1 p.2, p.1)) =
      (rank.zipIdx.map fun p => (barycenter neighbours fixed p.1 p.2, p.1)).map (Prod.map id f) := by
    rw [List.zipIdx_map, List.map_map, List.map_map]
    congr 1
    funext p
    simp [barycenter_rename inj same]
  show (((rank.map f).zipIdx.map fun p => (barycenter neighbours' (fixed.map f) p.1 p.2, p.1)).mergeSort
      fun a b => a.1.le b.1).map (·.2) =
    (((rank.zipIdx.map fun p => (barycenter neighbours fixed p.1 p.2, p.1)).mergeSort
      fun a b => a.1.le b.1).map (·.2)).map f
  rw [keyed, ← List.map_mergeSort (f := Prod.map id f) (r := fun a b => a.1.le b.1) fun _ _ _ _ => rfl, List.map_map,
    List.map_map]
  rfl

theorem sweepFrom_rename (fixed : List Nat) (o : Ordering) :
    sweepFrom neighbours' (fixed.map f) (o.map (List.map f)) = (sweepFrom neighbours fixed o).map (List.map f) := by
  induction o generalizing fixed with
  | nil => rfl
  | cons rank rest ih =>
    simp only [List.map_cons, sweepFrom]
    rw [reorder_rename inj same, ih]

theorem sweep_rename (o : Ordering) :
    sweep neighbours' (o.map (List.map f)) = (sweep neighbours o).map (List.map f) := by
  cases o with
  | nil => rfl
  | cons rank rest =>
    simp only [List.map_cons, sweep]
    rw [sweepFrom_rename inj same]

end

theorem sweepBoth_rename (g : Digraph) (o : Ordering) :
    sweepBoth (g.rename f) (o.map (List.map f)) = (sweepBoth g o).map (List.map f) := by
  unfold sweepBoth
  rw [sweep_rename inj (Digraph.predecessors_rename inj g), ← List.map_reverse,
    sweep_rename inj (Digraph.successors_rename inj g), ← List.map_reverse]

theorem improve_rename (g : Digraph) (passes : Nat) (o : Ordering) :
    improve (g.rename f) passes (o.map (List.map f)) = (improve g passes o).map (List.map f) := by
  induction passes generalizing o with
  | zero => rfl
  | succ passes ih =>
    simp only [improve]
    rw [sweepBoth_rename inj, crossings_rename inj, crossings_rename inj, ih]
    split
    · rfl
    · split <;> rfl

end Ordering

/-! ### Centers -/

namespace Placement
variable {α : Type} {width width' : Nat → α} (wide : ∀ v, width' (f v) = width v)

/-- The entries of a rank under the new names. -/
def renamed (f : Nat → Nat) (rank : List (Nat × α)) : List (Nat × α) := rank.map (Prod.map f id)

omit inj in
include wide in
theorem map_rename (rank : List Nat) : (rank.map f).map width' = rank.map width := by
  rw [List.map_map]
  congr 1
  funext v
  exact wide v

variable [Scalar α]

section
omit inj
include wide

theorem pack_rename (gap left : α) (rank : List Nat) :
    pack gap width' left (rank.map f) = renamed f (pack gap width left rank) := by
  induction rank generalizing left with
  | nil => rfl
  | cons v rest ih =>
    simp only [List.map_cons, pack, wide, ih, renamed]
    rfl

theorem rankWidth_rename (gap : α) (rank : List Nat) :
    rankWidth gap width' (rank.map f) = rankWidth gap width rank := by
  unfold rankWidth
  rw [map_rename wide, List.length_map]

theorem packed_rename (gap : α) (o : Ordering) :
    packed gap width' (o.map (List.map f)) = (packed gap width o).map (renamed f) := by
  have widths : (o.map (List.map f)).map (rankWidth gap width') = o.map (rankWidth gap width) := by
    rw [List.map_map]
    congr 1
    funext rank
    exact rankWidth_rename wide gap rank
  unfold packed
  simp only [widths, List.map_map]
  congr 1
  funext rank
  simp only [Function.comp_apply, rankWidth_rename wide, pack_rename wide]

end

theorem centerIn_rename (placed : List (Nat × α)) (v : Nat) :
    centerIn (renamed f placed) (f v) = centerIn placed v := by
  unfold centerIn renamed
  rw [List.find?_map]
  have found : (fun p => decide (p.1 = f v)) ∘ Prod.map f id = fun p : Nat × α => decide (p.1 = v) := by
    funext p
    simp [inj.eq_iff]
  rw [found, Option.map_map]
  rfl

theorem align_rename (g : Digraph) (above rank : List (Nat × α)) :
    align (g.rename f) (renamed f above) (renamed f rank) = renamed f (align g above rank) := by
  have same : pulls (g.rename f) (renamed f above) (renamed f rank) = pulls g above rank := by
    unfold pulls
    rw [show renamed f rank = rank.map (Prod.map f id) from rfl, List.flatMap_map]
    congr 1
    funext p
    simp only [Prod.map_fst, Prod.map_snd, id_eq, Digraph.predecessors_rename inj, List.map_map]
    congr 1
    funext q
    simp only [Function.comp_apply, centerIn_rename inj]
  simp only [align, same]
  split
  · rfl
  · simp [renamed, Function.comp_def]

theorem alignFrom_rename (g : Digraph) (above : List (Nat × α)) (ranks : List (List (Nat × α))) :
    alignFrom (g.rename f) (renamed f above) (ranks.map (renamed f)) = (alignFrom g above ranks).map (renamed f) := by
  induction ranks generalizing above with
  | nil => rfl
  | cons rank rest ih =>
    simp only [List.map_cons, alignFrom]
    rw [align_rename inj, ih]

theorem aligned_rename (g : Digraph) (ranks : List (List (Nat × α))) :
    aligned (g.rename f) (ranks.map (renamed f)) = (aligned g ranks).map (renamed f) := by
  cases ranks with
  | nil => rfl
  | cons rank rest =>
    simp only [List.map_cons, aligned]
    rw [alignFrom_rename inj]

include wide in
theorem across_rename (g : Digraph) (gap : α) (o : Ordering) (v : Nat) :
    centerIn (aligned (g.rename f) (packed gap width' (o.map (List.map f)))).flatten (f v) =
      centerIn (aligned g (packed gap width o)).flatten v := by
  rw [packed_rename wide, aligned_rename inj]
  show centerIn ((aligned g (packed gap width o)).map (List.map (Prod.map f id))).flatten (f v) = _
  rw [← List.map_flatten]
  exact centerIn_rename inj _ v

end Placement

omit inj

open Augmented

/-! ### Names for the first vertices -/

/-- New names for so many vertices; those behind them keep their own. -/
structure Permutes (f : Nat → Nat) (n : Nat) : Prop where
  injective : f.Injective
  lt : ∀ v < n, f v < n
  fixed : ∀ v, n ≤ v → f v = v

section
variable {n : Nat} (permutes : Permutes f n)
include permutes

theorem Permutes.lt_iff {size : Nat} (enough : n ≤ size) {v : Nat} : f v < size ↔ v < size := by
  rcases Nat.lt_or_ge v n with first | behind
  · have := permutes.lt v first
    omega
  · rw [permutes.fixed v behind]

theorem Permutes.range_perm {size : Nat} (enough : n ≤ size) : ((List.range size).map f).Perm (List.range size) := by
  have distinct : ((List.range size).map f).Nodup := List.nodup_range.map permutes.injective
  have inside : (List.range size).map f ⊆ List.range size := by
    intro w member
    obtain ⟨v, vertex, rfl⟩ := List.mem_map.1 member
    exact List.mem_range.2 ((permutes.lt_iff enough).2 (List.mem_range.1 vertex))
  exact (List.subperm_of_subset distinct inside).perm_of_length_le (by simp)

/-! ### Layered graphs -/

/-- The second layered graph is the first one under the new names. -/
structure Augmented.Renamed (f : Nat → Nat) (a b : Augmented) : Prop where
  graph : b.graph = a.graph.rename f
  sized : a.ranks.length = a.graph.size ∧ b.ranks.length = a.graph.size
  ranks : ∀ v, rankIn b.ranks (f v) = rankIn a.ranks v
  rankCount : b.rankCount = a.rankCount
  realCount : b.realCount = a.realCount

omit permutes in
theorem Augmented.Renamed.size {a b : Augmented} (renamed : a.Renamed f b) : b.graph.size = a.graph.size := by
  rw [renamed.graph, Digraph.rename]

theorem rankCount_rename {ranks ranks' : List Nat} (enough : n ≤ ranks.length) (sized : ranks'.length = ranks.length)
    (same : ∀ v, rankIn ranks' (f v) = rankIn ranks v) : rankCount ranks' = rankCount ranks := by
  have listed : ∀ l : List Nat, (List.range l.length).map (rankIn l) = l := by
    intro l
    refine List.ext_getElem (by simp) fun v _ inside => ?_
    simp [rankIn, inside]
  have perm : ranks.Perm ranks' := by
    have shuffled := (permutes.range_perm enough).map (rankIn ranks')
    rw [List.map_map, show rankIn ranks' ∘ f = rankIn ranks from funext same, listed, ← sized, listed] at shuffled
    exact shuffled
  rw [rankCount, rankCount, perm.foldl_op_eq]

omit permutes in
theorem pathEdges_rename (path : List Nat) : pathEdges (path.map f) = (pathEdges path).map (Prod.map f f) := by
  rw [pathEdges, pathEdges, ← List.map_tail, List.zip_map]

theorem Augmented.Renamed.addSplit {a b : Augmented} (renamed : a.Renamed f b) (enough : n ≤ a.graph.size)
    (e : Nat × Nat) : (a.addSplit e).Renamed f (b.addSplit (Prod.map f f e)) := by
  have between : ranksBetween b.ranks (Prod.map f f e) = ranksBetween a.ranks e := by
    simp only [ranksBetween, Prod.map_fst, Prod.map_snd, renamed.ranks]
  have behind : ∀ v, a.graph.size ≤ v → f v = v := fun v later => permutes.fixed v (enough.trans later)
  obtain ⟨sized, sized'⟩ := renamed.sized
  refine ⟨?_, ?_, ?_, renamed.rankCount, renamed.realCount⟩
  · -- The new dummies have the same numbers in both graphs.
    have dummies : ∀ count, (List.range' a.graph.size count).map f = List.range' a.graph.size count := by
      intro count
      conv => rhs; rw [← List.map_id (List.range' a.graph.size count)]
      exact List.map_congr_left fun v member => behind v (List.mem_range'_1.1 member).1
    have path : ∀ count, (Prod.map f f e).1 :: List.range' a.graph.size count ++ [(Prod.map f f e).2] =
        (e.1 :: List.range' a.graph.size count ++ [e.2]).map f := by
      intro count
      simp [dummies]
    simp only [Augmented.addSplit, between, renamed.graph, Digraph.rename]
    rw [path, pathEdges_rename, List.map_append]
  · simp [Augmented.addSplit, between, sized, sized']
  · intro v
    simp only [Augmented.addSplit, between, rankIn]
    rcases Nat.lt_or_ge v a.graph.size with old | new
    · have old' := (permutes.lt_iff enough).2 old
      rw [List.getD_append _ _ _ _ (by omega), List.getD_append _ _ _ _ (by omega)]
      exact renamed.ranks v
    · rw [behind v new, List.getD_append_right _ _ _ _ (by omega), List.getD_append_right _ _ _ _ (by omega),
        sized, sized']

/-- Splitting the edges of two layerings that are the same but for the names gives layered graphs that are. -/
theorem of_renamed {l l' : Layering} (vertices : l.dag.size = n) (dag : l'.dag = l.dag.rename f)
    (sized : l.ranks.length = n ∧ l'.ranks.length = n) (same : ∀ v, rankIn l'.ranks (f v) = rankIn l.ranks v) :
    (Augmented.of l).Renamed f (Augmented.of l') := by
  have start : Augmented.Renamed f ⟨⟨l.dag.size, []⟩, l.ranks, l.count, l.dag.size⟩
      ⟨⟨l'.dag.size, []⟩, l'.ranks, l'.count, l'.dag.size⟩ := by
    refine ⟨by rw [dag]; rfl, by rw [vertices]; exact sized, same, ?_, by rw [dag]; rfl⟩
    exact rankCount_rename permutes sized.1.ge (sized.2.trans sized.1.symm) same
  unfold Augmented.of
  rw [show l'.dag.edges = l.dag.edges.map (Prod.map f f) by rw [dag]; rfl]
  suffices ∀ (edges : List (Nat × Nat)) (a b : Augmented), a.Renamed f b → n ≤ a.graph.size →
      (edges.foldl Augmented.addSplit a).Renamed f ((edges.map (Prod.map f f)).foldl Augmented.addSplit b) from
    this _ _ _ start vertices.ge
  intro edges
  induction edges with
  | nil => exact fun _ _ renamed _ => renamed
  | cons e rest ih =>
    intro a b renamed enough
    exact ih _ _ (renamed.addSplit permutes enough e) (enough.trans (Nat.le_add_right _ _))

end

/-! ### Orders of layered graphs -/

/-- Vertices of one rank are in the same order under both names. -/
def Ascending (f : Nat → Nat) (a : Augmented) : Prop :=
  ∀ v w, v < w → w < a.graph.size → rankIn a.ranks v = rankIn a.ranks w → f v < f w

namespace Ordering
variable {n : Nat} {a b : Augmented} (permutes : Permutes f n) (enough : n ≤ a.graph.size) (renamed : a.Renamed f b)
include permutes enough renamed

/-- Each rank holds the same vertices under both names. -/
theorem rank_perm (r : Nat) : ((a.graph.vertices.filter fun v => rankIn a.ranks v = r).map f).Perm
    (b.graph.vertices.filter fun v => rankIn b.ranks v = r) := by
  have shuffled := (permutes.range_perm enough).filter fun w => rankIn b.ranks w = r
  rw [List.filter_map] at shuffled
  simpa only [Digraph.vertices, renamed.size, Function.comp_def, renamed.ranks] using shuffled

theorem minimal_rename_perm (passes : Nat) :
    List.Forall₂ (fun rank rank' => (rank.map f).Perm rank') (minimal a passes) (minimal b passes) := by
  refine List.forall₂_iff_get.2 ⟨by rw [minimal_length, minimal_length, renamed.rankCount], fun r inside inside' => ?_⟩
  have before := (minimal_perm a passes).get inside ((minimal_perm a passes).length_eq ▸ inside)
  have after := (minimal_perm b passes).get inside' ((minimal_perm b passes).length_eq ▸ inside')
  have first := rank_perm permutes enough renamed r
  simp only [initial, List.get_eq_getElem, List.getElem_map, List.getElem_range] at before after ⊢
  exact ((before.map f).trans first).trans after.symm

section
variable (ascending : Ascending f a)
include ascending

/-- The ranks then start out the same. -/
theorem initial_rename : initial b = (initial a).map (List.map f) := by
  unfold initial
  rw [renamed.rankCount, List.map_map]
  refine List.map_congr_left fun r _ => ?_
  have sorted : ((a.graph.vertices.filter fun v => rankIn a.ranks v = r).map f).Pairwise (· < ·) := by
    rw [List.pairwise_map]
    refine (List.pairwise_lt_range.filter _).imp_of_mem fun {v w} first second less => ?_
    obtain ⟨-, rank⟩ := List.mem_filter.1 first
    obtain ⟨inside, rank'⟩ := List.mem_filter.1 second
    simp only [decide_eq_true_eq] at rank rank'
    exact ascending v w less (List.mem_range.1 inside) (rank.trans rank'.symm)
  have sorted' : (b.graph.vertices.filter fun v => rankIn b.ranks v = r).Pairwise (· < ·) :=
    List.pairwise_lt_range.filter _
  exact List.Perm.eq_of_pairwise (fun v w _ _ less more => absurd (Nat.lt_trans less more) (Nat.lt_irrefl v))
    sorted' sorted (rank_perm permutes enough renamed r).symm

theorem minimal_rename (passes : Nat) : minimal b passes = (minimal a passes).map (List.map f) := by
  rw [minimal, renamed.graph, initial_rename permutes enough renamed ascending, improve_rename permutes.injective,
    minimal]

end
end Ordering
end Flowchart
