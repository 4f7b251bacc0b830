import Flowchart.Proofs.Graph.Parts

/-!
The edge ids of loose parts. An edge keeps its id unless it has none or an edge before it got the same one; then it
gets a generated id, whose number is not smaller than its place (`settleEdgeId_cases`). An id is generated without a
look at the edges that are still to come, so it can be the one that a later edge brings along, and that edge loses
it (`anonymous_takes_given_id`). An id that no other edge brings along is kept just when it is not generated for an
edge before it (`ofParts_keeps_own_id`).
-/
namespace Flowchart.Graph

/-- The edge at the place got the id in place of its own. -/
def Regenerated (given settled : List Edge) (i : Nat) (id : Text) : Prop :=
  ∃ e ∈ given[i]?, ∃ f ∈ settled[i]?, e.id ≠ id ∧ f.id = id

/-- An id of its own stays; one that is empty or taken gives way to a generated one. -/
theorem settleEdgeId_cases (settled : List Edge) (e : Edge) :
    (e.id ≠ [] ∧ e.id ∉ settled.map (·.id) ∧ settleEdgeId settled e = e) ∨
      ((e.id = [] ∨ e.id ∈ settled.map (·.id)) ∧ ∃ k, settled.length ≤ k ∧ k ≤ 2 * settled.length ∧
        settleEdgeId settled e = { e with id := edgeId k e.source e.target }) := by
  by_cases own : e.id ≠ [] ∧ e.id ∉ settled.map (·.id)
  · exact .inl ⟨own.1, own.2, settleEdgeId_own own.1 own.2⟩
  · have foreign : e.id = [] ∨ e.id ∈ settled.map (·.id) := by
      rwa [not_and_or, not_not, not_not] at own
    obtain ⟨k, near, same, -⟩ := freshEdgeId_free settled e.source e.target
    have renewed : settleEdgeId settled e = { e with id := freshEdgeId settled e.source e.target } := by
      rw [settleEdgeId, if_pos (by simpa using foreign)]
    rw [List.mem_range'_1] at near
    exact .inr ⟨foreign, k, near.1, by omega, by rw [renewed, same]⟩

/-- Each edge gets its id behind the edges in front of it. -/
theorem settleEdges_getElem? {edges : List Edge} {j : Nat} {e : Edge} (here : edges[j]? = some e) :
    (settleEdges [] edges)[j]? = some (settleEdgeId ((settleEdges [] edges).take j) e) := by
  obtain ⟨inside, rfl⟩ := List.getElem?_eq_some_iff.1 here
  -- The edges behind the place play no part: an id is settled by the edges in front of it.
  let front := settleEdges [] (edges.take j)
  have length : front.length = j := by rw [settleEdges_length, List.length_take_of_le (Nat.le_of_lt inside)]
  have split : settleEdges [] edges = front ++ settleEdges front (edges[j] :: edges.drop (j + 1)) := by
    have parts : edges = edges.take j ++ edges[j] :: edges.drop (j + 1) := by simp
    conv_lhs => rw [parts, settleEdges_append, List.nil_append]
  rw [split, List.take_left' length, List.getElem?_append_right (Nat.le_of_eq length), length, Nat.sub_self]
  rfl

/-- Where an id is generated, the edge had none or a taken one, and the number is not smaller than the place. -/
theorem Regenerated.number {edges : List Edge} {i : Nat} {id : Text}
    (regenerated : Regenerated edges (settleEdges [] edges) i id) :
    ∃ e ∈ edges[i]?, (e.id = [] ∨ e.id ∈ ((settleEdges [] edges).take i).map (·.id)) ∧
      ∃ k, i ≤ k ∧ k ≤ 2 * i ∧ id = edgeId k e.source e.target := by
  obtain ⟨e, here, f, there, other, rfl⟩ := regenerated
  obtain rfl : settleEdgeId ((settleEdges [] edges).take i) e = f :=
    Option.some.inj ((settleEdges_getElem? here).symm.trans there)
  have length : ((settleEdges [] edges).take i).length = i := by
    rw [List.length_take_of_le]
    rw [settleEdges_length]
    exact Nat.le_of_lt (List.getElem?_eq_some_iff.1 here).1
  rcases settleEdgeId_cases ((settleEdges [] edges).take i) e with ⟨-, -, kept⟩ | ⟨foreign, k, above, below, renewed⟩
  · rw [kept] at other
    exact absurd rfl other
  · rw [length] at above below
    exact ⟨e, here, foreign, k, above, below, by rw [renewed]⟩

/-- What one edge alone brings along, no edge before it does. -/
theorem not_mem_take_of_count {edges : List Edge} {j : Nat} {e : Edge} (here : edges[j]? = some e)
    (once : (edges.map (·.id)).count e.id = 1) : e.id ∉ (edges.take j).map (·.id) := by
  obtain ⟨inside, rfl⟩ := List.getElem?_eq_some_iff.1 here
  have parts : edges.map (·.id) =
      (edges.take j).map (·.id) ++ edges[j].id :: (edges.drop (j + 1)).map (·.id) := by
    rw [← List.map_cons, ← List.map_append, List.getElem_cons_drop, List.take_append_drop]
  rw [parts, List.count_append, List.count_cons_self] at once
  exact List.count_eq_zero.1 (by omega)

/-- An id that no edge before the place brings along is taken there just when it is generated for one of them. -/
theorem mem_take_settleEdges {edges : List Edge} {j : Nat} {id : Text} (foreign : id ∉ (edges.take j).map (·.id)) :
    id ∈ ((settleEdges [] edges).take j).map (·.id) ↔ ∃ i < j, Regenerated edges (settleEdges [] edges) i id := by
  have place : ∀ {es : List Edge} {f : Edge}, f ∈ es.take j ↔ ∃ i < j, es[i]? = some f := by
    intro es f
    simp only [List.mem_iff_getElem?, List.getElem?_take]
    constructor
    · rintro ⟨i, there⟩
      split at there
      · next before => exact ⟨i, before, there⟩
      · cases there
    · rintro ⟨i, before, there⟩
      exact ⟨i, by rw [if_pos before, there]⟩
  constructor
  · intro taken
    obtain ⟨f, member, same⟩ := List.mem_map.1 taken
    obtain ⟨i, before, there⟩ := place.1 member
    have inside : i < edges.length := settleEdges_length [] edges ▸ (List.getElem?_eq_some_iff.1 there).1
    have given : edges[i]? = some edges[i] := List.getElem?_eq_getElem inside
    have other : edges[i].id ≠ id := by
      rintro rfl
      exact foreign (List.mem_map_of_mem (place.2 ⟨i, before, given⟩))
    exact ⟨i, before, edges[i], given, f, there, other, same⟩
  · rintro ⟨i, before, -, -, f, there, -, rfl⟩
    exact List.mem_map_of_mem (place.2 ⟨i, before, there⟩)

/-- An id that one edge alone brings along is kept just when it is not generated for
    an edge before it. So it is kept if it is not the generated id of the ends of an
    edge before it, with a number from that edge's place to twice that. -/
theorem ofParts_keeps_own_id {nodes : List Node} {edges : List Edge} {g : Graph} (made : ofParts nodes edges = .ok g)
    {j : Nat} {e : Edge} (here : edges[j]? = some e) (named : e.id ≠ []) (once : (edges.map (·.id)).count e.id = 1) :
    (g.edges[j]? = some e ↔ ∀ i < j, ¬ Regenerated edges g.edges i e.id) ∧
      ∀ i < j, Regenerated edges g.edges i e.id →
        ∃ d ∈ edges[i]?, (d.id = [] ∨ d.id ∈ (g.edges.take i).map (·.id)) ∧
          ∃ k, i ≤ k ∧ k ≤ 2 * i ∧ e.id = edgeId k d.source d.target := by
  obtain ⟨-, rfl⟩ := ofParts_eq_ok.1 made
  rw [assemble_edges]
  refine ⟨?_, fun i _ regenerated => regenerated.number⟩
  have taken := mem_take_settleEdges (not_mem_take_of_count here once)
  rw [settleEdges_getElem? here, Option.some_inj]
  constructor
  · intro kept i before regenerated
    have new := (settleEdgeId_fresh ((settleEdges [] edges).take j) e).2
    rw [kept] at new
    exact new (taken.2 ⟨i, before, regenerated⟩)
  · intro free
    refine settleEdgeId_own named fun old => ?_
    obtain ⟨i, before, regenerated⟩ := taken.1 old
    exact free i before regenerated

/-- Edges without an id, each with one behind it whose id looks generated: the first
    of these is free, the second is not. -/
def crowdedEdges : List Edge :=
  [⟨[], ['A'], ['B'], none, false⟩, ⟨edgeId 1 ['A'] ['B'], ['A'], ['B'], some ['x'], true⟩,
   ⟨[], ['A'], ['B'], none, false⟩, ⟨edgeId 2 ['A'] ['B'], ['B'], ['A'], none, false⟩]

/-- The graph that they make. -/
def crowdedGraph : Graph :=
  ⟨[.bare ['A'], .bare ['B']],
    [⟨edgeId 0 ['A'] ['B'], ['A'], ['B'], none, false⟩, ⟨edgeId 1 ['A'] ['B'], ['A'], ['B'], some ['x'], true⟩,
     ⟨edgeId 2 ['A'] ['B'], ['A'], ['B'], none, false⟩, ⟨edgeId 3 ['B'] ['A'], ['B'], ['A'], none, false⟩]⟩

theorem crowdedGraph_keeps_own_id :
    ofParts [] crowdedEdges = .ok crowdedGraph ∧
      (crowdedEdges.map (·.id)).count (edgeId 1 ['A'] ['B']) = 1 ∧
      (∀ i < 1, ¬ Regenerated crowdedEdges crowdedGraph.edges i (edgeId 1 ['A'] ['B'])) ∧
      (crowdedEdges.map (·.id)).count (edgeId 2 ['A'] ['B']) = 1 ∧
      crowdedGraph.edges[3]? ≠ some ⟨edgeId 2 ['A'] ['B'], ['B'], ['A'], none, false⟩ := by
  have made : ofParts [] crowdedEdges = .ok crowdedGraph := by decide +kernel
  have first : (crowdedEdges.map (·.id)).count (edgeId 1 ['A'] ['B']) = 1 := by decide +kernel
  have second : (crowdedEdges.map (·.id)).count (edgeId 2 ['A'] ['B']) = 1 := by decide +kernel
  have free := (ofParts_keeps_own_id (j := 1) made rfl (edgeId_ne_nil _ _ _) first).1.1 rfl
  have generated : Regenerated crowdedEdges crowdedGraph.edges 2 (edgeId 2 ['A'] ['B']) :=
    ⟨_, rfl, _, rfl, (edgeId_ne_nil _ _ _).symm, rfl⟩
  have lost : crowdedGraph.edges[3]? ≠ some ⟨edgeId 2 ['A'] ['B'], ['B'], ['A'], none, false⟩ := by
    intro kept
    exact (ofParts_keeps_own_id (j := 3) made rfl (edgeId_ne_nil _ _ _) second).1.1 kept 2 (by decide) generated
  exact ⟨made, first, free, second, lost⟩

/-- An edge without an id takes the id that the edge behind it, and no other, brings along. -/
theorem anonymous_takes_given_id :
    ¬ ∀ (nodes : List Node) (edges : List Edge) (g : Graph), ofParts nodes edges = .ok g →
      ∀ (j : Nat) (e : Edge), edges[j]? = some e → e.id ≠ [] → (edges.map (·.id)).count e.id = 1 →
        ∃ f, g.edges[j]? = some f ∧ f.id = e.id := by
  intro kept
  let anonymous : Edge := ⟨[], ['A'], ['B'], none, false⟩
  let given : Edge := { anonymous with id := edgeId 0 ['A'] ['B'] }
  have made : ofParts [] [anonymous, given] =
      .ok ⟨[.bare ['A'], .bare ['B']], [given, { anonymous with id := edgeId 1 ['A'] ['B'] }]⟩ := by decide +kernel
  obtain ⟨f, there, same⟩ := kept _ _ _ made 1 given rfl (edgeId_ne_nil _ _ _) (by decide +kernel)
  obtain rfl := Option.some.inj there
  exact absurd same (by decide +kernel)

end Flowchart.Graph
