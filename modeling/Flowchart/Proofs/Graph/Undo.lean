import Flowchart.Proofs.Graph.Edits

/-!
Additions that are taken back. A graph is a row of items, its nodes and edges, and taking an item out by its id
leaves the items that it does not take along (`run_removal`): a node takes the edges along that touch it. Many items
can be taken out one after the other just when none of them has been taken along before (`run_removals`). What was
added takes nothing along that was there before, so the graph is back when all that was added is gone, in whatever
order (`additions_undone`).
-/
namespace Flowchart

/-- A node or an edge of a graph. -/
inductive Item where
  | node (n : Node)
  | edge (e : Edge)
  deriving DecidableEq, Repr

namespace Item

/-- The node that the item is. -/
def node? : Item → Option Node
  | .node n => some n
  | .edge _ => none

/-- The edge that the item is. -/
def edge? : Item → Option Edge
  | .node _ => none
  | .edge e => some e

/-- Taking the item out, by its id. -/
def removal : Item → Edit
  | .node n => .eraseNode n.id
  | .edge e => .eraseEdge e.id

/-- Taking out the first item takes out the second: both have one id, or the second
    is an edge that touches the first. -/
def takes : Item → Item → Bool
  | .node n, .node m => m.id = n.id
  | .node n, .edge e => e.touches n.id
  | .edge e, .edge f => f.id = e.id
  | .edge _, .node _ => false

theorem takes_self (a : Item) : a.takes a := by
  cases a <;> simp [takes]

end Item

namespace Graph

/-- The graph of a row of items. -/
def ofItems (items : List Item) : Graph := ⟨items.filterMap Item.node?, items.filterMap Item.edge?⟩

/-- The items of a graph. -/
def items (g : Graph) : List Item := g.nodes.map .node ++ g.edges.map .edge

/-- A run of additions, with what each of them added. -/
inductive Extended : Graph → List Item → Graph → Prop where
  | done {g : Graph} : Extended g [] g
  | node {g h k : Graph} {n : Node} {added : List Item} :
    g.addNode n = .ok h → Extended h added k → Extended g (.node n :: added) k
  | edge {g h k : Graph} {source target : Text} {label : Option Text} {e : Edge} {added : List Item} :
    g.addEdge source target label = .ok (e, h) → Extended h added k → Extended g (.edge e :: added) k

/-! ### Items -/

theorem mem_items {g : Graph} {a : Item} :
    a ∈ g.items ↔ (∃ n ∈ g.nodes, a = .node n) ∨ ∃ e ∈ g.edges, a = .edge e := by
  simp [items, eq_comm]

theorem ofItems_append (front back : List Item) :
    ofItems (front ++ back) =
      ⟨(ofItems front).nodes ++ (ofItems back).nodes, (ofItems front).edges ++ (ofItems back).edges⟩ := by
  simp [ofItems]

theorem ofItems_items (g : Graph) : ofItems g.items = g := by
  have nodes : g.items.filterMap Item.node? = g.nodes := by
    simp [items, List.filterMap_map, Function.comp_def, Item.node?]
  have edges : g.items.filterMap Item.edge? = g.edges := by
    simp [items, List.filterMap_map, Function.comp_def, Item.edge?]
  rw [ofItems, nodes, edges]

theorem mem_node_ids {items : List Item} {id : Text} :
    id ∈ (ofItems items).nodes.map (·.id) ↔ .eraseNode id ∈ items.map Item.removal := by
  induction items with
  | nil => simp [ofItems]
  | cons b rest ih => cases b <;> simp_all [ofItems, Item.node?, Item.removal, eq_comm]

theorem mem_edge_ids {items : List Item} {id : Text} :
    id ∈ (ofItems items).edges.map (·.id) ↔ .eraseEdge id ∈ items.map Item.removal := by
  induction items with
  | nil => simp [ofItems]
  | cons b rest ih => cases b <;> simp_all [ofItems, Item.edge?, Item.removal, eq_comm]

/-- The items of a well-formed graph are told apart by how they are taken out. -/
theorem removals_nodup {items : List Item} (good : (ofItems items).WellFormed) : (items.map Item.removal).Nodup := by
  have nodes := good.nodes_nodup
  have edges := good.edges_nodup
  rw [ofItems, List.Nodup, List.pairwise_map, List.pairwise_filterMap] at nodes edges
  rw [List.Nodup, List.pairwise_map]
  refine (nodes.and edges).imp ?_
  rintro (n | e) (m | f) ⟨apartNodes, apartEdges⟩
  · simpa [Item.removal] using apartNodes n rfl m rfl
  · simp [Item.removal]
  · simp [Item.removal]
  · simpa [Item.removal] using apartEdges e rfl f rfl

theorem ofItems_filter_node (items : List Item) (n : Node) :
    ofItems (items.filter (!(Item.node n).takes ·)) =
      ⟨(ofItems items).nodes.filter (·.id ≠ n.id), (ofItems items).edges.filter (!·.touches n.id)⟩ := by
  simp only [ofItems, List.filterMap_filter, List.filter_filterMap]
  congr 2 <;> funext b <;> cases b <;> simp [Item.node?, Item.edge?, Item.takes, Option.filter]

theorem ofItems_filter_edge (items : List Item) (e : Edge) :
    ofItems (items.filter (!(Item.edge e).takes ·)) =
      { ofItems items with edges := (ofItems items).edges.filter (·.id ≠ e.id) } := by
  simp only [ofItems, List.filterMap_filter, List.filter_filterMap]
  congr 2 <;> funext b <;> cases b <;> simp [Item.node?, Item.edge?, Item.takes, Option.filter]

/-! ### Taking items out -/

section Removing
variable {whole : List Item} (good : (ofItems whole).WellFormed)
include good

/-- Of the items of a well-formed graph, taking out one that is still there leaves what it does not take along. -/
theorem run_removal {items : List Item} (part : items.Sublist whole) {a : Item} (member : a ∈ whole) {k : Graph} :
    a.removal.run (ofItems items) = .ok k ↔ a ∈ items ∧ k = ofItems (items.filter (!a.takes ·)) := by
  have there : a.removal ∈ items.map Item.removal ↔ a ∈ items := by
    constructor
    · intro found
      obtain ⟨b, inside, alike⟩ := List.mem_map.1 found
      exact List.inj_on_of_nodup_map (removals_nodup good) (part.subset inside) member alike ▸ inside
    · exact List.mem_map_of_mem
  rw [← there]
  cases a with
  | node n => rw [ofItems_filter_node, Item.removal, ← mem_node_ids, run_eraseNode_eq_ok]
  | edge e =>
    have edges : ((ofItems items).edges.map (·.id)).Nodup :=
      good.edges_nodup.sublist ((part.filterMap Item.edge?).map _)
    rw [ofItems_filter_edge, Item.removal, ← mem_edge_ids, run_eraseEdge_eq_ok, eraseP_eq_filter edges]

/-- Items of a well-formed graph can be taken out one after the other just when none takes along one that is still
    to come. What none of them takes along is left. -/
theorem run_removals {order : List Item} (inside : ∀ a ∈ order, a ∈ whole) {items : List Item}
    (part : items.Sublist whole) {k : Graph} :
    (order.map Item.removal).foldlM Edit.run (ofItems items) = .ok k ↔
      (∀ a ∈ order, a ∈ items) ∧ order.Pairwise (fun a b => ¬ a.takes b) ∧
        k = ofItems (items.filter fun b => order.all (!·.takes b)) := by
  -- The items that are there shrink with each removal; the whole they are part of stays, and keeps their ids apart.
  induction order generalizing items with
  | nil => simp [pure_eq_ok]
  | cons a rest ih =>
    have left : items.filter (fun b => (a :: rest).all (!·.takes b)) =
        (items.filter (!a.takes ·)).filter fun b => rest.all (!·.takes b) := by
      simp [List.filter_filter, Bool.and_comm]
    rw [List.map_cons, List.foldlM_cons, bind_eq_ok, left]
    simp only [run_removal good part (inside a List.mem_cons_self), and_assoc, exists_and_left, exists_eq_left,
      ih (fun b member => inside b (List.mem_cons_of_mem _ member)) (List.filter_sublist.trans part),
      List.forall_mem_cons, List.pairwise_cons, List.mem_filter, forall_and, Bool.not_eq_true', Bool.not_eq_true]

end Removing

/-! ### Additions -/

theorem addNode_wellFormed {g h : Graph} {n : Node} (good : g.WellFormed) (added : g.addNode n = .ok h) :
    h.WellFormed :=
  run_wellFormed (e := .addNode n) good added

theorem addEdge_wellFormed {g h : Graph} {source target : Text} {label : Option Text} {e : Edge} (good : g.WellFormed)
    (added : g.addEdge source target label = .ok (e, h)) : h.WellFormed :=
  run_wellFormed (e := .addEdge source target label) good (map_snd_eq_ok.2 ⟨e, added⟩)

theorem Extended.wellFormed {g h : Graph} {added : List Item} (run : Extended g added h) (good : g.WellFormed) :
    h.WellFormed := by
  induction run with
  | done => exact good
  | node added _ ih => exact ih (addNode_wellFormed good added)
  | edge added _ ih => exact ih (addEdge_wellFormed good added)

/-- What was added stands behind what was there. -/
theorem Extended.result {g h : Graph} {added : List Item} (run : Extended g added h) :
    h = ofItems (g.items ++ added) := by
  induction run with
  | done => rw [List.append_nil, ofItems_items]
  | node entered _ ih =>
    obtain ⟨-, -, rfl⟩ := addNode_eq_ok.1 entered
    rw [ih, ofItems_append, ofItems_append, ofItems_items, ofItems_items]
    simp [ofItems, Item.node?, Item.edge?, List.filterMap_cons]
  | edge entered _ ih =>
    obtain ⟨-, -, -, rfl⟩ := addEdge_eq_ok.1 entered
    rw [ih, ofItems_append, ofItems_append, ofItems_items, ofItems_items]
    simp [ofItems, Item.node?, Item.edge?, List.filterMap_cons, append]

/-- What was added takes nothing along that was there before: its id is new, and no
    edge touches a node that is not there. -/
theorem not_takes_old {g : Graph} (good : g.WellFormed) {added : List Item}
    (whole : (ofItems (g.items ++ added)).WellFormed) {a b : Item} (new : a ∈ added) (old : b ∈ g.items) :
    ¬ a.takes b := by
  have apart : ∀ c ∈ g.items, c.removal ≠ a.removal := by
    have distinct := removals_nodup whole
    rw [List.map_append, List.nodup_append'] at distinct
    exact fun c inside same => distinct.2.2 (List.mem_map_of_mem inside) (same ▸ List.mem_map_of_mem new)
  -- An added node was not there, so the ends of the old edges, which were, are other nodes.
  have noNode : ∀ {n : Node}, a = .node n → ¬ g.hasNode n.id := by
    rintro n rfl present
    obtain ⟨m, inside, same⟩ := hasNode_iff_exists.1 present
    exact apart (.node m) (mem_items.2 (.inl ⟨m, inside, rfl⟩)) (congrArg Edit.eraseNode same)
  cases a with
  | node n =>
    rcases mem_items.1 old with ⟨m, inside, rfl⟩ | ⟨e, inside, rfl⟩
    · intro same
      exact noNode rfl (hasNode_iff_exists.2 ⟨m, inside, by simpa [Item.takes] using same⟩)
    · obtain ⟨source, target⟩ := good.ends_present e inside
      intro touches
      have ends : e.source = n.id ∨ e.target = n.id := by simpa [Item.takes, Edge.touches] using touches
      rcases ends with here | here
      · exact noNode rfl (here ▸ source)
      · exact noNode rfl (here ▸ target)
  | edge e =>
    rcases mem_items.1 old with ⟨m, inside, rfl⟩ | ⟨f, inside, rfl⟩
    · simp [Item.takes]
    · intro same
      have alike : f.id = e.id := by simpa [Item.takes] using same
      exact apart _ old (congrArg Edit.eraseEdge alike)

/-- What was added is gone, and nothing else, when all of it has been taken out or along. -/
theorem Extended.undone {g h k : Graph} {added order : List Item} (run : Extended g added h) (good : g.WellFormed)
    (inside : order ⊆ added) (all : ∀ b ∈ added, ∃ a ∈ order, a.takes b) :
    (order.map Item.removal).foldlM Edit.run h = .ok k ↔ order.Pairwise (fun a b => ¬ a.takes b) ∧ k = g := by
  have whole : (ofItems (g.items ++ added)).WellFormed := run.result ▸ run.wellFormed good
  have member : ∀ a ∈ order, a ∈ g.items ++ added := fun a here => List.mem_append_right _ (inside here)
  have stays : g.items.filter (fun b => order.all (!·.takes b)) = g.items := by
    rw [List.filter_eq_self]
    intro b old
    simpa using fun a here => by simpa using not_takes_old good whole (inside here) old
  have goes : added.filter (fun b => order.all (!·.takes b)) = [] := by
    rw [List.filter_eq_nil_iff]
    intro b new
    obtain ⟨a, here, takes⟩ := all b new
    simpa using ⟨a, here, takes⟩
  rw [run.result, run_removals whole member (List.Sublist.refl _), List.filter_append, stays, goes, List.append_nil,
    ofItems_items]
  exact and_iff_right member

/-- What comes later takes nothing along that was added earlier. -/
theorem Extended.later_keep {g h : Graph} {added : List Item} (run : Extended g added h) (good : g.WellFormed) :
    added.Pairwise fun a b => ¬ b.takes a := by
  have first : ∀ {mid k : Graph} {a : Item} {rest : List Item}, mid.WellFormed → a ∈ mid.items →
      Extended mid rest k → ∀ b ∈ rest, ¬ b.takes a :=
    fun grown there more _ later => not_takes_old grown (more.result ▸ more.wellFormed grown) later there
  induction run with
  | done => exact .nil
  | node entered more ih =>
    have grown := addNode_wellFormed good entered
    obtain ⟨-, -, rfl⟩ := addNode_eq_ok.1 entered
    exact .cons (first grown (mem_items.2 (.inl ⟨_, by simp, rfl⟩)) more) (ih grown)
  | edge entered more ih =>
    have grown := addEdge_wellFormed good entered
    obtain ⟨-, -, -, rfl⟩ := addEdge_eq_ok.1 entered
    exact .cons (first grown (mem_items.2 (.inr ⟨_, by simp, rfl⟩)) more) (ih grown)

/-- An added edge is given back by its id, and its graph with it. -/
theorem eraseEdge_addEdge {g h : Graph} {source target : Text} {label : Option Text} {e : Edge}
    (added : g.addEdge source target label = .ok (e, h)) : h.eraseEdge e.id = .ok (e, g) := by
  obtain ⟨-, -, made, rfl⟩ := addEdge_eq_ok.1 added
  have fresh : e.id ∉ g.edges.map (·.id) := made ▸ freshEdgeId_not_mem g.edges source target
  have others : ∀ f ∈ g.edges, f.id ≠ e.id := fun f member same => fresh (List.mem_map.2 ⟨f, member, same⟩)
  rw [eraseEdge_eq_ok, append_edges, eraseP_split_at rfl others, List.append_nil]
  refine ⟨?_, rfl⟩
  rw [edge?, append_edges, List.find?_append, List.find?_eq_none.2 (by simpa using others)]
  simp

/-- An added node is given back by its id, and its graph with it: no edge touches it yet. -/
theorem eraseNode_addNode {g h : Graph} {n : Node} (good : g.WellFormed) (added : g.addNode n = .ok h) :
    h.eraseNode n.id = .ok (n, g) := by
  have grown := addNode_wellFormed good added
  obtain ⟨-, absent, rfl⟩ := addNode_eq_ok.1 added
  have others : ∀ m ∈ g.nodes, m.id ≠ n.id := fun m member same => absent (hasNode_iff_exists.2 ⟨m, member, same⟩)
  have untouched : ∀ e ∈ g.edges, (!e.touches n.id) = true := by
    intro e member
    obtain ⟨source, target⟩ := good.ends_present e member
    rw [not_touches, decide_eq_true_iff]
    exact ⟨fun same => absent (same ▸ source), fun same => absent (same ▸ target)⟩
  rw [eraseNode_eq_ok, node?_eq_some grown.nodes_nodup, List.filter_eq_self.2 untouched,
    filter_split_at rfl others (by simp), List.append_nil]
  exact ⟨⟨by simp, rfl⟩, rfl⟩

/-- Additions are taken back by removals. An edge or a node that was added is given back by its id, and the graph is
    as it was before. After a run of additions the graph is back when all that was added has been taken out, in any
    order in which each removal is accepted; backwards is such an order. What a node takes along need not be asked
    for. Removals are accepted just when none takes along what a later one asks for. -/
theorem additions_undone {g : Graph} (reachable : Reachable g) :
    (∀ source target label e h, g.addEdge source target label = .ok (e, h) → h.eraseEdge e.id = .ok (e, g)) ∧
      (∀ n h, g.addNode n = .ok h → h.eraseNode n.id = .ok (n, g)) ∧
      ∀ added h, Extended g added h →
        (added.reverse.map Item.removal).foldlM Edit.run h = .ok g ∧
        (∀ order : List Item, order.Perm added → ∀ k, (order.map Item.removal).foldlM Edit.run h = .ok k → k = g) ∧
        ∀ order : List Item, order ⊆ added → (∀ b ∈ added, ∃ a ∈ order, a.takes b) → ∀ k,
          (order.map Item.removal).foldlM Edit.run h = .ok k ↔ order.Pairwise (fun a b => ¬ a.takes b) ∧ k = g := by
  have good := reachable.wellFormed
  refine ⟨fun _ _ _ _ _ => eraseEdge_addEdge, fun _ _ => eraseNode_addNode good, fun added h run => ⟨?_, ?_, ?_⟩⟩
  · have all : ∀ b ∈ added, ∃ a ∈ added.reverse, a.takes b :=
      fun b new => ⟨b, List.mem_reverse.2 new, b.takes_self⟩
    rw [run.undone good (List.reverse_subset.2 (List.Subset.refl _)) all]
    exact ⟨List.pairwise_reverse.2 (run.later_keep good), rfl⟩
  · intro order rearranged k done
    have all : ∀ b ∈ added, ∃ a ∈ order, a.takes b := fun b new => ⟨b, rearranged.mem_iff.2 new, b.takes_self⟩
    exact ((run.undone good rearranged.subset all).1 done).2
  · exact fun order inside all k => run.undone good inside all

/-- Two nodes, and an edge whose id has a number that the next edge would get. -/
def host : Graph :=
  ⟨[.bare ['A'], .bare ['B']], [⟨['e', '1', '-', 'A', '-', 'B'], ['A'], ['B'], some ['x'], true⟩]⟩

/-- Two nodes more, and edges between all of them. -/
def guests : List Item :=
  [.node (.bare ['C']), .edge ⟨['e', '2', '-', 'A', '-', 'B'], ['A'], ['B'], none, false⟩,
   .edge ⟨['e', '2', '-', 'A', '-', 'C'], ['A'], ['C'], some ['y'], false⟩, .node ⟨['D'], ['d'], .circle⟩,
   .edge ⟨['e', '3', '-', 'D', '-', 'C'], ['D'], ['C'], none, false⟩]

theorem guests_undone :
    Reachable host ∧ Extended host guests (ofItems (host.items ++ guests)) ∧
      (guests.reverse.map Item.removal).foldlM Edit.run (ofItems (host.items ++ guests)) = .ok host ∧
      -- The two nodes take two of the edges along.
      [Edit.eraseNode ['C'], .eraseEdge ['e', '2', '-', 'A', '-', 'B'], .eraseNode ['D']].foldlM Edit.run
        (ofItems (host.items ++ guests)) = .ok host ∧
      -- The first node takes along the edge that is asked for next.
      ∀ k, [Edit.eraseNode ['D'], .eraseEdge ['e', '3', '-', 'D', '-', 'C'], .eraseNode ['C'],
        .eraseEdge ['e', '2', '-', 'A', '-', 'B']].foldlM Edit.run (ofItems (host.items ++ guests)) ≠ .ok k := by
  have made : ofParts host.nodes host.edges = .ok host := by decide +kernel
  have reachable : Reachable host := .built (.parts made)
  have grown : Extended host guests (ofItems (host.items ++ guests)) :=
    .node rfl (.edge (show addEdge _ ['A'] ['B'] none = _ from rfl)
      (.edge (show addEdge _ ['A'] ['C'] (some ['y']) = _ from rfl)
        (.node rfl (.edge (show addEdge _ ['D'] ['C'] none = _ from rfl) .done))))
  obtain ⟨backwards, -, orders⟩ := (additions_undone reachable).2.2 _ _ grown
  refine ⟨reachable, grown, backwards, ?_, fun k done => ?_⟩
  · exact (orders [guests[0], guests[1], guests[3]] (by decide) (by decide) host).2 ⟨by decide, rfl⟩
  · have apart := ((orders [guests[3], guests[4], guests[0], guests[1]] (by decide) (by decide) k).1 done).1
    exact absurd apart (by decide)

end Graph
end Flowchart
