import Mathlib.Data.List.MinMax
import Mathlib.Data.List.Perm.Basic
import Flowchart.Layout.Cycle
import Flowchart.Proofs.Layout.Degrees

/-!
The loops that put vertices in a row. As vertices are taken off, the counts stay the degrees among those that remain
(`Remaining.Counted.takeOff`). So rounds take off vertices of degree zero until none is left (`Peels`), sinks first
and then sources, and as long as a vertex remains one with the largest surplus is picked and the rounds start again
(`Arranges`). None of these loops goes on forever, and the row is what they make (`arrangement_arranges`): every
vertex once (`Arranges.perm`).
-/
namespace Flowchart
namespace Digraph
variable {g : Digraph}

/-! ### Rounds -/

/-- The active vertices are the ready ones and the others. -/
theorem ready_append_perm (p : Nat → Nat) (active : List Nat) :
    ((active.filter fun v => p v = 0) ++ active.filter fun v => p v ≠ 0).Perm active := by
  have split := List.filter_append_perm (fun v => decide (p v = 0)) active
  simpa only [decide_not] using split

/-- Rounds that take all active vertices of degree zero off, until none has degree zero: the active vertices
    before, those after, and those that are taken off, in order. -/
inductive Peels (degree : List Nat → Nat → Nat) : List Nat → List Nat → List Nat → Prop
  | done {active : List Nat} : (∀ v ∈ active, degree active v ≠ 0) → Peels degree active active []
  | round {active left taken : List Nat} : (∃ v ∈ active, degree active v = 0) →
      Peels degree (active.filter fun v => degree active v ≠ 0) left taken →
      Peels degree active left ((active.filter fun v => degree active v = 0) ++ taken)

namespace Peels
variable {degree : List Nat → Nat → Nat} {active left taken : List Nat}

theorem perm (peels : Peels degree active left taken) : (taken ++ left).Perm active := by
  induction peels with
  | done => exact .refl _
  | @round active left taken _ _ ih =>
    rw [List.append_assoc]
    exact (ih.append_left _).trans (ready_append_perm (degree active) active)

theorem taken_subset (peels : Peels degree active left taken) : taken ⊆ active :=
  fun _ member => peels.perm.subset (List.mem_append_left _ member)

theorem left_nodup (peels : Peels degree active left taken) (distinct : active.Nodup) : left.Nodup :=
  (peels.perm.nodup_iff.2 distinct).of_append_right

/-- The rounds end only when no vertex of degree zero is left. -/
theorem stuck (peels : Peels degree active left taken) : ∀ v ∈ left, degree left v ≠ 0 := by
  induction peels with
  | done none => exact none
  | round _ _ ih => exact ih

theorem of_nil (peels : Peels degree [] left taken) : left = [] ∧ taken = [] := by
  have none := List.perm_nil.1 peels.perm
  rw [List.append_eq_nil_iff] at none
  exact ⟨none.2, none.1⟩

end Peels

/-- Where some vertex has degree zero, fewer are active in the next round. -/
theorem filter_length_lt {degree : Nat → Nat} {active : List Nat} (ready : ∃ v ∈ active, degree v = 0) :
    (active.filter fun v => degree v ≠ 0).length < active.length := by
  obtain ⟨v, member, zero⟩ := ready
  exact List.length_filter_lt_length_iff_exists.2 ⟨v, member, by simp [zero]⟩

theorem exists_ready {degree : Nat → Nat} {active : List Nat} :
    (active.filter fun v => degree v = 0).isEmpty = false ↔ ∃ v ∈ active, degree v = 0 := by
  simp

/-- Outgoing less incoming edges among the active vertices. -/
def surplus (g : Digraph) (active : List Nat) (v : Nat) : Int :=
  (g.outDegree active v : Int) - g.inDegree active v

/-- The first of the active vertices with the largest value. -/
structure Foremost (value : Nat → Int) (active : List Nat) (v : Nat) : Prop where
  inside : v ∈ active
  largest : ∀ w ∈ active, value w ≤ value v
  first : ∀ w ∈ active, value v ≤ value w → active.idxOf v ≤ active.idxOf w

/-- Sinks go to the back and sources to the front. When nothing remains the row is there; otherwise the first
    vertex with the largest surplus goes to the front, and the others are put in a row in the same way. -/
inductive Arranges (g : Digraph) : List Nat → List Nat → Prop
  | done {active left back front : List Nat} : Peels g.outDegree active left back →
      Peels g.inDegree left [] front → Arranges g active (front ++ back.reverse)
  | pick {active left back rest front row : List Nat} {v : Nat} : Peels g.outDegree active left back →
      Peels g.inDegree left rest front → Foremost (g.surplus rest) rest v → Arranges g (rest.erase v) row →
      Arranges g active (front ++ v :: row ++ back.reverse)

theorem Arranges.perm {active row : List Nat} (arranges : g.Arranges active row) : row.Perm active := by
  induction arranges with
  | done sinks sources =>
    have front := sources.perm
    rw [List.append_nil] at front
    exact ((front.append (List.reverse_perm _)).trans List.perm_append_comm).trans sinks.perm
  | pick sinks sources foremost _ ih =>
    have middle := (ih.cons _).trans (List.perm_cons_erase foremost.inside).symm
    have inner := (middle.append_left _).trans sources.perm
    exact ((inner.append (List.reverse_perm _)).trans List.perm_append_comm).trans sinks.perm

end Digraph

/-! ### Counts -/

namespace Remaining
open Flowchart.Digraph
variable {g : Digraph} {r : Remaining}

/-- The counts of the active vertices are their degrees among each other. -/
structure Counted (g : Digraph) (r : Remaining) : Prop where
  distinct : r.active.Nodup
  outgoing : ∀ v ∈ r.active, r.outgoing[v]? = some (g.outDegree r.active v : Int)
  incoming : ∀ v ∈ r.active, r.incoming[v]? = some (g.inDegree r.active v : Int)

theorem all_counted (proper : g.Proper) : (all g).Counted g := by
  have counts : ∀ (degree : Nat → Int), ∀ v ∈ g.vertices, (g.vertices.map degree)[v]? = some (degree v) := by
    intro degree v member
    simp [vertices, mem_vertices.1 member]
  refine ⟨List.nodup_range, fun v member => ?_, fun v member => ?_⟩
  · rw [all, counts _ v member, outDegree_vertices proper]
  · rw [all, counts _ v member, inDegree_vertices proper]

/-- Of the count of an active vertex, one is taken off each time it is listed. -/
theorem discount_getElem? {active : List Nat} {v : Nat} (member : v ∈ active) (vertices : List Nat)
    (counts : List Int) :
    (discount active counts vertices)[v]? = counts[v]?.map fun count => count - (vertices.count v : Int) := by
  unfold discount
  induction vertices generalizing counts with
  | nil => simp
  | cons w rest ih =>
    rw [List.foldl_cons, ih, List.count_cons]
    by_cases same : w = v
    · subst same
      rw [if_pos member, List.getElem?_modify_eq, Option.map_eq_map, Option.map_map]
      congr 1
      funext count
      simp
      omega
    · split <;> simp [same]

theorem takeOff_active (g : Digraph) (r : Remaining) (v : Nat) : (r.takeOff g v).active = r.active.erase v := rfl

/-- One vertex less, and the counts are degrees again. -/
theorem Counted.takeOff (counted : r.Counted g) {v : Nat} (inside : v ∈ r.active) : (r.takeOff g v).Counted g := by
  refine ⟨counted.distinct.erase v, fun u member => ?_, fun u member => ?_⟩
  · rw [takeOff_active] at member ⊢
    have before := g.outDegree_erase counted.distinct inside u
    have count := counted.outgoing u (List.mem_of_mem_erase member)
    show (discount (r.active.erase v) r.outgoing (g.predecessors v))[u]? = some (g.outDegree (r.active.erase v) u : Int)
    rw [discount_getElem? member, count, count_predecessors, Option.map_some]
    congr 1
    omega
  · rw [takeOff_active] at member ⊢
    have before := g.inDegree_erase counted.distinct inside u
    have count := counted.incoming u (List.mem_of_mem_erase member)
    show (discount (r.active.erase v) r.incoming (g.successors v))[u]? = some (g.inDegree (r.active.erase v) u : Int)
    rw [discount_getElem? member, count, count_successors, Option.map_some]
    congr 1
    omega

/-- Several vertices less. -/
theorem Counted.takeOff_all (counted : r.Counted g) {now : List Nat} (distinct : now.Nodup) (inside : now ⊆ r.active) :
    (now.foldl (Remaining.takeOff g) r).Counted g ∧
      (now.foldl (Remaining.takeOff g) r).active = r.active.filter (· ∉ now) := by
  induction now generalizing r with
  | nil => simpa using counted
  | cons v now ih =>
    obtain ⟨fresh, others⟩ := List.nodup_cons.1 distinct
    obtain ⟨first, later⟩ := List.cons_subset.1 inside
    have remain : now ⊆ r.active.erase v := by
      intro w member
      have different : w ≠ v := by
        rintro rfl
        exact fresh member
      exact (List.mem_erase_of_ne different).2 (later member)
    obtain ⟨counts, active⟩ := ih (counted.takeOff first) others remain
    refine ⟨counts, active.trans ?_⟩
    rw [takeOff_active, counted.distinct.erase_eq_filter, List.filter_filter]
    exact List.filter_congr fun w _ => by simp [Bool.and_comm, Bool.beq_eq_decide_eq, bne]

/-! ### Runs of the loops -/

/-- The vertices that are ready are those of degree zero. -/
def Finds (g : Digraph) (ready : Remaining → List Nat) (degree : List Nat → Nat → Nat) : Prop :=
  ∀ r : Remaining, r.Counted g → ready r = r.active.filter fun v => degree r.active v = 0

theorem finds_sinks (g : Digraph) : Finds g sinks g.outDegree := fun r counted =>
  List.filter_congr fun v member => by simp [counted.outgoing v member]

theorem finds_sources (g : Digraph) : Finds g sources g.inDegree := fun r counted =>
  List.filter_congr fun v member => by simp [counted.incoming v member]

/-- There are no more rounds than active vertices, since each of them takes one off at least. -/
theorem takeOffReady_peels {ready : Remaining → List Nat} {degree : List Nat → Nat → Nat} (finds : Finds g ready degree)
    {fuel : Nat} (counted : r.Counted g) (enough : r.active.length ≤ fuel) :
    Peels degree r.active (takeOffReady g ready fuel r).1.active (takeOffReady g ready fuel r).2 ∧
      (takeOffReady g ready fuel r).1.Counted g := by
  induction fuel generalizing r with
  | zero =>
    have nothing := List.length_eq_zero_iff.1 (Nat.le_zero.1 enough)
    refine ⟨?_, counted⟩
    rw [takeOffReady, nothing]
    exact .done (by simp)
  | succ fuel ih =>
    rw [takeOffReady, finds r counted]
    split
    · next none => exact ⟨.done (by simpa using none), counted⟩
    · next some =>
      have some := exists_ready.1 (eq_false_of_ne_true some)
      obtain ⟨counts, active⟩ := counted.takeOff_all (counted.distinct.filter fun v => degree r.active v = 0)
        (List.filter_subset_self _)
      have left : r.active.filter (· ∉ r.active.filter fun v => degree r.active v = 0) =
          r.active.filter fun v => degree r.active v ≠ 0 :=
        List.filter_congr fun v member => by simp [member]
      rw [left] at active
      have fewer := filter_length_lt some
      rw [← active] at fewer
      obtain ⟨peels, counts⟩ := ih counts (by omega)
      rw [active] at peels
      exact ⟨.round some peels, counts⟩

/-- The vertex that is picked is the first with the largest surplus, and there is one if any vertex is active. -/
theorem largestSurplus?_spec (r : Remaining) :
    (∀ v, r.largestSurplus? = some v → Foremost r.surplus r.active v) ∧
      (r.largestSurplus? = none → r.active = []) := by
  have argmax : r.largestSurplus? = r.active.argmax r.surplus := by
    unfold largestSurplus? List.argmax
    congr 1
    funext best v
    cases best <;> rfl
  rw [argmax]
  refine ⟨fun v found => ?_, List.argmax_eq_none.1⟩
  obtain ⟨inside, largest, first⟩ := List.mem_argmax_iff.1 found
  exact ⟨inside, largest, first⟩

theorem Counted.foremost (counted : r.Counted g) {v : Nat} (foremost : Foremost r.surplus r.active v) :
    Foremost (g.surplus r.active) r.active v := by
  have surplus : ∀ w ∈ r.active, g.surplus r.active w = r.surplus w := by
    intro w member
    simp [Remaining.surplus, Digraph.surplus, counted.outgoing w member, counted.incoming w member]
  refine ⟨foremost.inside, fun w member => ?_, fun w member => ?_⟩
  · rw [surplus v foremost.inside, surplus w member]
    exact foremost.largest w member
  · rw [surplus v foremost.inside, surplus w member]
    exact foremost.first w member

theorem arrange_arranges {fuel : Nat} (counted : r.Counted g) (enough : r.active.length < fuel) :
    g.Arranges r.active (arrange g fuel r) := by
  induction fuel generalizing r with
  | zero => omega
  | succ fuel ih =>
    obtain ⟨sinks, counts⟩ := takeOffReady_peels (finds_sinks g) counted (Nat.le_refl _)
    obtain ⟨sources, counts⟩ := takeOffReady_peels (finds_sources g) counts (Nat.le_refl _)
    rw [arrange]
    dsimp only
    split
    · next v found =>
      have foremost := counts.foremost ((largestSurplus?_spec _).1 v found)
      have fewer := List.length_erase_of_mem foremost.inside
      have some := List.length_pos_of_mem foremost.inside
      have before := sinks.perm.length_eq
      have after := sources.perm.length_eq
      rw [List.length_append] at before after
      exact .pick sinks sources foremost (ih (counts.takeOff foremost.inside) (by rw [takeOff_active]; omega))
    · next nothing =>
      rw [(largestSurplus?_spec _).2 nothing] at sources
      exact .done sinks sources

end Remaining

/-- All loops that arrange the vertices come to an end, with the arrangement as their row. -/
theorem Digraph.arrangement_arranges {g : Digraph} (proper : g.Proper) : g.Arranges g.vertices g.arrangement :=
  Remaining.arrange_arranges (Remaining.all_counted proper) (by simp [Remaining.all, Digraph.vertices])

end Flowchart
