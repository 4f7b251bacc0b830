import Flowchart.Proofs.Graph.Reachable

/-!
Graphs from loose parts. Putting parts together looks at the ids that they name one by one and stops at the first
that is no node id; when there is none, it gives a graph (`ofParts_eq`). Nodes enter as the first of each id, and
the ends of the edges enter behind them as bare nodes (`appendLoose_nodes`); the edges stay as they are, but for the
ids that they get behind the edges before them (`settleEdges`). So it is known which parts make a graph, and which
graph it is (`ofParts_assembles`).
-/
namespace Flowchart

/-- The two ends of an edge, its source first. -/
def Edge.ends (e : Edge) : List Text := [e.source, e.target]

/-- The second edge is the first one, under an id of its own. -/
def Edge.Renamed (e f : Edge) : Prop := f = { e with id := f.id }

namespace Graph

/-- The ids that parts name, in the order in which they are looked at. -/
def namedIds (nodes : List Node) (edges : List Edge) : List Text :=
  nodes.map (·.id) ++ edges.flatMap Edge.ends

/-- What a graph has of the parts that it is made of. -/
structure Assembled (nodes : List Node) (edges : List Edge) (g : Graph) : Prop where
  /-- The first node of each id; behind them a bare node for each end without one, in the order of first use. -/
  nodes : g.nodes = firstOfEach nodes ++
    (firstOfEach ((edges.flatMap Edge.ends).map .bare)).filter (·.id ∉ nodes.map (·.id))
  /-- Each edge as it is given, but for its id. -/
  edges : List.Forall₂ Edge.Renamed edges g.edges

/-! ### Edges -/

/-- The edges with the ids that they get one after the other, behind those that are settled. -/
def settleEdges (settled : List Edge) : List Edge → List Edge
  | [] => []
  | e :: rest => settleEdgeId settled e :: settleEdges (settled ++ [settleEdgeId settled e]) rest

theorem settleEdges_append (settled front back : List Edge) :
    settleEdges settled (front ++ back) =
      settleEdges settled front ++ settleEdges (settled ++ settleEdges settled front) back := by
  induction front generalizing settled with
  | nil => simp [settleEdges]
  | cons e rest ih => simp [settleEdges, ih]

theorem settleEdges_length (settled es : List Edge) : (settleEdges settled es).length = es.length := by
  induction es generalizing settled with
  | nil => rfl
  | cons e rest ih => simp [settleEdges, ih]

theorem settleEdgeId_renamed (settled : List Edge) (e : Edge) : e.Renamed (settleEdgeId settled e) := by
  unfold Edge.Renamed settleEdgeId
  split <;> rfl

/-- An edge keeps an id of its own. -/
theorem settleEdgeId_own {settled : List Edge} {e : Edge} (named : e.id ≠ []) (new : e.id ∉ settled.map (·.id)) :
    settleEdgeId settled e = e := by
  have free : (e.id.isEmpty || settled.any (·.id = e.id)) = false := by simpa [named] using new
  rw [settleEdgeId, free]
  rfl

theorem settleEdges_forall₂ (settled es : List Edge) :
    List.Forall₂ Edge.Renamed es (settleEdges settled es) := by
  induction es generalizing settled with
  | nil => exact .nil
  | cons e rest ih => exact .cons (settleEdgeId_renamed settled e) (ih _)

/-- Edges that all have ids of their own keep them. -/
theorem settleEdges_own (settled : List Edge) {es : List Edge} (named : ∀ e ∈ es, e.id ≠ [])
    (distinct : ((settled ++ es).map (·.id)).Nodup) : settleEdges settled es = es := by
  induction es generalizing settled with
  | nil => rfl
  | cons e rest ih =>
    have new : e.id ∉ settled.map (·.id) := by
      intro taken
      rw [List.map_append, List.nodup_append'] at distinct
      exact distinct.2.2 taken (List.mem_map_of_mem List.mem_cons_self)
    rw [settleEdges, settleEdgeId_own (named e List.mem_cons_self) new,
      ih _ (fun f member => named f (List.mem_cons_of_mem _ member)) (by simpa using distinct)]

/-- Puts an edge and the ends that it misses behind what is there. -/
def appendLoose (g : Graph) (e : Edge) : Graph :=
  let g := (g.mention e.source).mention e.target
  g.append (settleEdgeId g.edges e)

theorem appendLoose_edges (es : List Edge) (g : Graph) :
    (es.foldl appendLoose g).edges = g.edges ++ settleEdges g.edges es := by
  induction es generalizing g with
  | nil => simp [settleEdges]
  | cons e rest ih => simp [ih, appendLoose, mention, settleEdges]

/-- The ends of edges enter as bare nodes. -/
theorem appendLoose_nodes (es : List Edge) (g : Graph) :
    (es.foldl appendLoose g).nodes = (((es.flatMap Edge.ends).map .bare).foldl insertNode g).nodes := by
  induction es generalizing g with
  | nil => rfl
  | cons e rest ih =>
    -- What enters depends on the nodes alone, so the edge that is put behind the others plays no part.
    have alike : (appendLoose g e).nodes = ((g.mention e.source).mention e.target).nodes := rfl
    rw [List.foldl_cons, ih, insertNodes_nodes, alike, ← insertNodes_nodes]
    rfl

/-! ### Parts -/

/-- The graph of parts that name node ids only. -/
def assemble (nodes : List Node) (edges : List Edge) : Graph :=
  edges.foldl appendLoose (nodes.foldl insertNode empty)

/-- Steps that each look at some ids first: the run fails at the first of all these ids that is no node id. -/
theorem foldlM_checked {α : Type} {step : Graph → α → Except EditError Graph} {ids : α → List Text}
    {change : Graph → α → Graph}
    (checked : ∀ g a, step g a = ((ids a).find? (!isId ·)).elim (.ok (change g a)) (.error ∘ .notAnId))
    (items : List α) (g : Graph) :
    items.foldlM step g =
      ((items.flatMap ids).find? (!isId ·)).elim (.ok (items.foldl change g)) (.error ∘ .notAnId) := by
  induction items generalizing g with
  | nil => rfl
  | cons a rest ih =>
    rw [List.foldlM_cons, checked, List.flatMap_cons, List.find?_append]
    cases (ids a).find? (!isId ·) with
    | none => exact ih _
    | some id => rfl

/-- Parts make a graph just when they name node ids only; otherwise the first id that is none is reported. -/
theorem ofParts_eq (nodes : List Node) (edges : List Edge) :
    ofParts nodes edges =
      ((namedIds nodes edges).find? (!isId ·)).elim (.ok (assemble nodes edges)) (.error ∘ .notAnId) := by
  have ofNode : ∀ g n, addLooseNode g n = ([n.id].find? (!isId ·)).elim (.ok (g.insertNode n)) (.error ∘ .notAnId) := by
    intro g n
    by_cases valid : isId n.id <;> simp [addLooseNode, valid]
  have ofEdge : ∀ g e, addLooseEdge g e =
      (e.ends.find? (!isId ·)).elim (.ok (appendLoose g e)) (.error ∘ .notAnId) := by
    intro g e
    by_cases source : isId e.source <;> by_cases target : isId e.target <;>
      simp [addLooseEdge, Edge.ends, appendLoose, source, target]
  rw [ofParts, foldlM_checked ofNode, namedIds, List.find?_append, List.map_eq_flatMap]
  cases (nodes.flatMap fun n => [n.id]).find? (!isId ·) with
  | none => exact foldlM_checked ofEdge edges _
  | some id => rfl

theorem assemble_edges (nodes : List Node) (edges : List Edge) :
    (assemble nodes edges).edges = settleEdges [] edges := by
  rw [assemble, appendLoose_edges, insertNodes_edges]
  rfl

theorem assemble_nodes (nodes : List Node) (edges : List Edge) :
    (assemble nodes edges).nodes = firstOfEach nodes ++
      (firstOfEach ((edges.flatMap Edge.ends).map .bare)).filter (·.id ∉ nodes.map (·.id)) := by
  have entered : (nodes.foldl insertNode empty).nodes = firstOfEach nodes := by
    simp [insertNodes_nodes, empty]
  rw [assemble, appendLoose_nodes, insertNodes_nodes, entered]
  simp only [firstOfEach_ids]

theorem assembled (nodes : List Node) (edges : List Edge) : Assembled nodes edges (assemble nodes edges) :=
  ⟨assemble_nodes nodes edges, assemble_edges nodes edges ▸ settleEdges_forall₂ [] edges⟩

theorem ofParts_eq_ok {nodes : List Node} {edges : List Edge} {g : Graph} :
    ofParts nodes edges = .ok g ↔ (∀ id ∈ namedIds nodes edges, isId id) ∧ g = assemble nodes edges := by
  rw [ofParts_eq]
  cases found : (namedIds nodes edges).find? (!isId ·) with
  | none =>
    have valid : ∀ id ∈ namedIds nodes edges, isId id := by simpa using found
    simp only [Option.elim, Except.ok.injEq, eq_comm (a := g)]
    exact ⟨fun same => ⟨valid, same⟩, And.right⟩
  | some id =>
    have bad : isId id = false := by simpa using List.find?_some found
    simp only [Option.elim, Function.comp_apply, reduceCtorEq, false_iff, not_and]
    intro valid
    rw [valid id (List.mem_of_find?_eq_some found)] at bad
    cases bad

theorem ofParts_eq_error {nodes : List Node} {edges : List Edge} {e : EditError} :
    ofParts nodes edges = .error e ↔ ∃ id, (namedIds nodes edges).find? (!isId ·) = some id ∧ e = .notAnId id := by
  rw [ofParts_eq]
  cases (namedIds nodes edges).find? (!isId ·) with
  | none => simp
  | some id => simp [eq_comm]

/-- The ids that the parts of a well-formed graph name are those of its nodes. -/
theorem WellFormed.named {g : Graph} (good : g.WellFormed) {id : Text} (member : id ∈ namedIds g.nodes g.edges) :
    id ∈ g.nodes.map (·.id) := by
  rcases List.mem_append.1 member with ofNode | ofEdge
  · exact ofNode
  · obtain ⟨e, inside, here⟩ := List.mem_flatMap.1 ofEdge
    obtain ⟨source, target⟩ := good.ends_present e inside
    simp only [Edge.ends, List.mem_cons, List.not_mem_nil, or_false] at here
    rcases here with rfl | rfl
    · exact hasNode_iff.1 source
    · exact hasNode_iff.1 target

/-- The parts of a well-formed graph are put together as that graph. -/
theorem ofParts_self {g : Graph} (good : g.WellFormed) : ofParts g.nodes g.edges = .ok g := by
  have valid : ∀ id ∈ namedIds g.nodes g.edges, isId id := by
    intro id member
    obtain ⟨n, inside, rfl⟩ := List.mem_map.1 (good.named member)
    exact good.node_ids n inside
  have nothingNew : (firstOfEach ((g.edges.flatMap Edge.ends).map .bare)).filter (·.id ∉ g.nodes.map (·.id)) = [] := by
    rw [List.filter_eq_nil_iff]
    intro n member
    have used : n.id ∈ ((g.edges.flatMap Edge.ends).map Node.bare).map (·.id) :=
      firstOfEach_ids.1 (List.mem_map_of_mem member)
    have present : n.id ∈ g.nodes.map (·.id) :=
      good.named (List.mem_append_right _ (by simpa [Node.bare] using used))
    simpa using present
  have nodes : (assemble g.nodes g.edges).nodes = g.nodes := by
    rw [assemble_nodes, firstOfEach_nodup good.nodes_nodup, nothingNew, List.append_nil]
  have edges : (assemble g.nodes g.edges).edges = g.edges := by
    rw [assemble_edges, settleEdges_own [] good.edge_ids good.edges_nodup]
  exact ofParts_eq_ok.2 ⟨valid, congrArg₂ Graph.mk nodes.symm edges.symm⟩

/-- Parts are refused for the first id that they name and that is no node id, and for
    nothing else; without one they make a graph of their first nodes, of bare nodes for
    the ends that are left and of all edges. A graph is made of its own parts. -/
theorem ofParts_assembles (nodes : List Node) (edges : List Edge) :
    (∀ e, ofParts nodes edges = .error e ↔
        ∃ id, (namedIds nodes edges).find? (!isId ·) = some id ∧ e = .notAnId id) ∧
      ((∀ id ∈ namedIds nodes edges, isId id) → ∃ g, ofParts nodes edges = .ok g ∧ Assembled nodes edges g) ∧
      ∀ g, Reachable g → ofParts g.nodes g.edges = .ok g :=
  ⟨fun _ => ofParts_eq_error, fun valid => ⟨_, ofParts_eq_ok.2 ⟨valid, rfl⟩, assembled nodes edges⟩,
    fun _ reachable => ofParts_self reachable.wellFormed⟩

/-- A node that is given twice, between others. -/
def repeatedNodes : List Node := [⟨['A'], ['1'], .circle⟩, ⟨['C'], ['c'], .hexagon⟩, ⟨['A'], ['2'], .diamond⟩]

/-- Edges without an id, with an id of their own and with that id again; two of their ends are no nodes. -/
def looseEdges : List Edge :=
  [⟨[], ['Z'], ['A'], some ['x'], false⟩, ⟨['d'], ['A'], ['B'], none, true⟩,
    ⟨['d'], ['B'], ['Z'], some [], false⟩]

/-- What they make. -/
def gatheredParts : Graph :=
  ⟨[⟨['A'], ['1'], .circle⟩, ⟨['C'], ['c'], .hexagon⟩, .bare ['Z'], .bare ['B']],
    [⟨edgeId 0 ['Z'] ['A'], ['Z'], ['A'], some ['x'], false⟩, ⟨['d'], ['A'], ['B'], none, true⟩,
     ⟨edgeId 2 ['B'] ['Z'], ['B'], ['Z'], some [], false⟩]⟩

theorem gatheredParts_assembled :
    (∀ id ∈ namedIds repeatedNodes looseEdges, isId id) ∧ ofParts repeatedNodes looseEdges = .ok gatheredParts ∧
      Assembled repeatedNodes looseEdges gatheredParts ∧ Reachable gatheredParts ∧
      ofParts gatheredParts.nodes gatheredParts.edges = .ok gatheredParts ∧
      ofParts (repeatedNodes ++ [.bare ['a', ' ']]) (⟨[], ['-'], [], none, false⟩ :: looseEdges) =
        .error (.notAnId ['a', ' ']) := by
  have valid : ∀ id ∈ namedIds repeatedNodes looseEdges, isId id := by decide +kernel
  have made : ofParts repeatedNodes looseEdges = .ok gatheredParts := by decide +kernel
  have reachable : Reachable gatheredParts := .built (.parts made)
  obtain ⟨-, makes, again⟩ := ofParts_assembles repeatedNodes looseEdges
  obtain ⟨g, result, assembled⟩ := makes valid
  rw [made] at result
  obtain rfl := Except.ok.inj result
  have refused :=
    ((ofParts_assembles (repeatedNodes ++ [.bare ['a', ' ']]) (⟨[], ['-'], [], none, false⟩ :: looseEdges)).1
      (.notAnId ['a', ' '])).2 ⟨_, by decide +kernel, rfl⟩
  exact ⟨valid, made, assembled, reachable, again _ reachable, refused⟩

end Graph
end Flowchart
