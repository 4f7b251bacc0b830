import Flowchart.Proofs.Graph.Reachable
import Flowchart.Proofs.Line.Blanks

/-!
Graphs whose labels have their runs of blanks collapsed. A graph grows by ids alone, and ids hold no blanks, so
collapsing the labels of statements and of the graph that they make comes to the same
(`ofStatements_collapsed`).
-/
namespace Flowchart
open Text Repair Line

/-- An edge with the runs of blanks in its label collapsed. -/
def Edge.collapsed (e : Edge) : Edge := { e with label := e.label.map collapseBlanks }

namespace Graph

/-- The graph with the runs of blanks in its labels collapsed. -/
def collapsed (g : Graph) : Graph := ⟨g.nodes.map Node.collapsed, g.edges.map Edge.collapsed⟩

theorem collapsed_eq_self {g : Graph} :
    g.collapsed = g ↔ (∀ n ∈ g.nodes, n.collapsed = n) ∧ ∀ e ∈ g.edges, e.label.map collapseBlanks = e.label := by
  obtain ⟨nodes, edges⟩ := g
  have node := List.map_inj_left (l := nodes) (f := Node.collapsed) (g := id)
  have edge := List.map_inj_left (l := edges) (f := Edge.collapsed) (g := id)
  have label : ∀ e : Edge, e.collapsed = e ↔ e.label.map collapseBlanks = e.label := by
    rintro ⟨⟩
    simp [Edge.collapsed]
  rw [List.map_id] at node edge
  simp [collapsed, node, edge, label]

@[simp] theorem collapsed_hasNode (g : Graph) (id : Text) : g.collapsed.hasNode id = g.hasNode id := by
  rw [hasNode, collapsed, List.any_map]
  rfl

theorem insertNode_collapsed (g : Graph) (n : Node) :
    (g.insertNode n).collapsed = g.collapsed.insertNode n.collapsed := by
  have same : n.collapsed.id = n.id := rfl
  unfold insertNode
  rw [same, collapsed_hasNode]
  split
  · rfl
  · simp [collapsed]

theorem insertNodes_collapsed (ns : List Node) (g : Graph) :
    (ns.foldl insertNode g).collapsed = (ns.map Node.collapsed).foldl insertNode g.collapsed := by
  induction ns generalizing g with
  | nil => rfl
  | cons n rest ih => rw [List.foldl_cons, ih, insertNode_collapsed, List.map_cons, List.foldl_cons]

/-- An id holds no blanks, nor does the label of a bare node. -/
theorem mention_collapsed {id : Text} (valid : isId id) (g : Graph) :
    (g.mention id).collapsed = g.collapsed.mention id := by
  have bare : (Node.bare id).collapsed = Node.bare id := by
    have stays : collapseBlanks id = id := collapse_of_ink fun c member => idChar_not_blank (isId_run valid c member)
    simp [Node.collapsed, Node.bare, stays]
  rw [mention, insertNode_collapsed, bare, mention]

theorem join_collapsed (g : Graph) (source target : Text) (label : Option Text) (animated : Bool) :
    (g.join source target label animated).collapsed =
      g.collapsed.join source target (label.map collapseBlanks) animated := by
  have fresh : freshEdgeId g.collapsed.edges source target = freshEdgeId g.edges source target := by
    simp only [freshEdgeId, collapsed, List.any_map, List.length_map]
    rfl
  have edge : g.collapsed.freshEdge source target (label.map collapseBlanks) animated =
      (g.freshEdge source target label animated).collapsed := by rw [freshEdge, fresh]; rfl
  rw [join, join, edge]
  simp [collapsed, append]

theorem enterSource_collapsed {link : Option Link} (valid : ∀ l ∈ link, isId l.source) (g : Graph) (ns : List Node) :
    (g.enterSource ns link).collapsed = g.collapsed.enterSource (ns.map Node.collapsed) (link.map Link.collapsed) := by
  cases link with
  | none => rfl
  | some l =>
    have declared : (ns.map Node.collapsed).any (·.id = l.source) = ns.any (·.id = l.source) := by
      rw [List.any_map]
      rfl
    simp only [enterSource, Option.map_some, Link.collapsed, declared]
    split
    · rfl
    · exact mention_collapsed (valid l rfl) g

theorem enterLink_collapsed {link : Option Link} (valid : ∀ l ∈ link, isId l.source ∧ isId l.target) (g : Graph) :
    (g.enterLink link).collapsed = g.collapsed.enterLink (link.map Link.collapsed) := by
  cases link with
  | none => rfl
  | some l =>
    obtain ⟨source, target⟩ := valid l rfl
    simp only [enterLink, join_collapsed, mention_collapsed source, mention_collapsed target]
    rfl

theorem enter_collapsed {s : Statement} (named : s.Named) (g : Graph) :
    (g.enter s).collapsed = g.collapsed.enter s.collapsed := by
  cases s with
  | skip => rfl
  | unparseable => rfl
  | content declarations link =>
    rw [enter, enterLink_collapsed named.2, insertNodes_collapsed, enterSource_collapsed fun l h => (named.2 l h).1]
    rfl

/-- Collapsing the labels of all statements collapses those of their graph. -/
theorem ofStatements_collapsed {ss : List Statement} (named : ∀ s ∈ ss, s.Named) :
    (ofStatements ss).collapsed = ofStatements (ss.map Statement.collapsed) := by
  have stays : ∀ g : Graph, (ss.foldl enter g).collapsed = (ss.map Statement.collapsed).foldl enter g.collapsed := by
    induction ss with
    | nil => exact fun _ => rfl
    | cons s rest ih =>
      intro g
      rw [List.foldl_cons, ih fun s member => named s (List.mem_cons_of_mem _ member),
        enter_collapsed (named s List.mem_cons_self), List.map_cons, List.foldl_cons]
  exact stays empty

end Graph
end Flowchart
