import Flowchart.Graph.Document
import Flowchart.Parse
import Flowchart.Proofs.Graph.Operations
import Flowchart.Proofs.Line.Ids

/-!
The graphs that can come about. A graph is built from nothing, from text, from lists of parts or
from JSON (`Built`), and then edited any number of times (`Reachable`). Each way of building one
and each edit keeps what a well-formed graph promises, so that every graph that comes about is
well formed (`reachable_invariant`).
-/
namespace Flowchart

/-- An edit with its arguments. -/
inductive Edit where
  | addNode (node : Node)
  | eraseNode (id : Text)
  | setLabel (id label : Text)
  | setShape (id : Text) (shape : Shape)
  | addEdge (source target : Text) (label : Option Text)
  | eraseEdge (id : Text)
  | setEdgeLabel (id : Text) (label : Option Text)
  | setEnds (id source target : Text)
  | setAnimated (id : Text) (animated : Bool)
  deriving DecidableEq, Repr

/-- The edited graph, or the refusal. -/
def Edit.run (g : Graph) : Edit → Except EditError Graph
  | .addNode n => g.addNode n
  | .eraseNode id => (g.eraseNode id).map (·.2)
  | .setLabel id label => g.setLabel id label
  | .setShape id shape => g.setShape id shape
  | .addEdge source target label => (g.addEdge source target label).map (·.2)
  | .eraseEdge id => (g.eraseEdge id).map (·.2)
  | .setEdgeLabel id label => g.setEdgeLabel id label
  | .setEnds id source target => g.setEnds id source target
  | .setAnimated id animated => g.setAnimated id animated

namespace Graph
open Line

/-- A graph that is built and not yet edited. -/
inductive Built : Graph → Prop where
  | empty : Built .empty
  | text {t : Text} {g : Graph} : Flowchart.parse t = .ok g → Built g
  | parts {nodes : List Node} {edges : List Edge} {g : Graph} : ofParts nodes edges = .ok g → Built g
  | json {j : Json} {g : Graph} : ofJson j = .ok g → Built g

/-- A graph that is built and then edited. Refused edits change nothing. -/
inductive Reachable : Graph → Prop where
  | built {g : Graph} : Built g → Reachable g
  | edited {g h : Graph} (e : Edit) : Reachable g → e.run g = .ok h → Reachable h

/-! ### Operations keep graphs well formed -/

theorem empty_wellFormed : empty.WellFormed :=
  ⟨List.nodup_nil, by simp [empty], by simp [empty], List.nodup_nil, by simp [empty]⟩

theorem insertNode_wellFormed {g : Graph} {n : Node} (good : g.WellFormed) (valid : isId n.id) :
    (g.insertNode n).WellFormed := by
  have kept : ∀ id, g.hasNode id → (g.insertNode n).hasNode id := fun id h => insertNode_hasNode.2 (.inl h)
  have ends : ∀ e ∈ (g.insertNode n).edges, (g.insertNode n).hasNode e.source ∧ (g.insertNode n).hasNode e.target := by
    intro e member
    rw [insertNode_edges] at member
    obtain ⟨source, target⟩ := good.ends_present e member
    exact ⟨kept _ source, kept _ target⟩
  by_cases present : g.hasNode n.id
  · rwa [insertNode_present present]
  · rw [insertNode_absent present] at ends ⊢
    refine ⟨?_, ?_, ends, good.edges_nodup, good.edge_ids⟩
    · have new : n.id ∉ g.nodes.map (·.id) := fun member => present (hasNode_iff.2 member)
      rw [List.map_append, List.nodup_append']
      exact ⟨good.nodes_nodup, List.nodup_singleton _, by simpa using new⟩
    · intro m member
      rcases List.mem_append.1 member with before | last
      · exact good.node_ids m before
      · rwa [List.mem_singleton.1 last]

theorem mention_wellFormed {g : Graph} {id : Text} (good : g.WellFormed) (valid : isId id) :
    (g.mention id).WellFormed := insertNode_wellFormed good valid

theorem append_wellFormed {g : Graph} {e : Edge} (good : g.WellFormed) (source : g.hasNode e.source)
    (target : g.hasNode e.target) (named : e.id ≠ []) (new : e.id ∉ g.edges.map (·.id)) :
    (g.append e).WellFormed := by
  refine ⟨good.nodes_nodup, good.node_ids, ?_, ?_, ?_⟩
  · intro f member
    rcases List.mem_append.1 member with before | last
    · exact good.ends_present f before
    · rw [List.mem_singleton.1 last]
      exact ⟨source, target⟩
  · rw [append_edges, List.map_append, List.nodup_append']
    exact ⟨good.edges_nodup, List.nodup_singleton _, by simpa using new⟩
  · intro f member
    rcases List.mem_append.1 member with before | last
    · exact good.edge_ids f before
    · rwa [List.mem_singleton.1 last]

theorem join_wellFormed {g : Graph} {source target : Text} {label : Option Text} {animated : Bool}
    (good : g.WellFormed) (sourcePresent : g.hasNode source) (targetPresent : g.hasNode target) :
    (g.join source target label animated).WellFormed :=
  append_wellFormed good sourcePresent targetPresent (freshEdgeId_ne_nil _ _ _) (freshEdgeId_not_mem _ _ _)

/-- Changing nodes but not their ids. -/
theorem changeNode_wellFormed {g : Graph} {id : Text} {change : Node → Node} (good : g.WellFormed)
    (keepsId : ∀ n, (change n).id = n.id) : (g.changeNode id change).WellFormed := by
  have ids : (g.changeNode id change).nodes.map (·.id) = g.nodes.map (·.id) := by
    simp only [changeNode, List.map_map]
    apply List.map_congr_left
    intro n _
    simp only [Function.comp_apply]
    split
    · exact keepsId n
    · rfl
  have present : ∀ other, (g.changeNode id change).hasNode other ↔ g.hasNode other := by
    simp only [hasNode_iff, ids, implies_true]
  refine ⟨?_, ?_, ?_, good.edges_nodup, good.edge_ids⟩
  · rw [ids]
    exact good.nodes_nodup
  · intro n member
    have : n.id ∈ g.nodes.map (·.id) := ids ▸ List.mem_map_of_mem member
    obtain ⟨m, before, same⟩ := List.mem_map.1 this
    rw [← same]
    exact good.node_ids m before
  · intro e member
    obtain ⟨source, target⟩ := good.ends_present e member
    exact ⟨(present _).2 source, (present _).2 target⟩

/-- Changing edges but not their ids, so that they still join nodes that are there. -/
theorem changeEdge_wellFormed {g : Graph} {id : Text} {change : Edge → Edge} (good : g.WellFormed)
    (keepsId : ∀ e, (change e).id = e.id)
    (keepsEnds : ∀ e ∈ g.edges, g.hasNode (change e).source ∧ g.hasNode (change e).target) :
    (g.changeEdge id change).WellFormed := by
  have ids : (g.changeEdge id change).edges.map (·.id) = g.edges.map (·.id) := by
    simp only [changeEdge, List.map_map]
    apply List.map_congr_left
    intro e _
    simp only [Function.comp_apply]
    split
    · exact keepsId e
    · rfl
  refine ⟨good.nodes_nodup, good.node_ids, ?_, ?_, ?_⟩
  · intro e member
    obtain ⟨f, before, rfl⟩ := List.mem_map.1 member
    split
    · exact keepsEnds f before
    · exact good.ends_present f before
  · rw [ids]
    exact good.edges_nodup
  · intro e member
    have : e.id ∈ g.edges.map (·.id) := ids ▸ List.mem_map_of_mem member
    obtain ⟨f, before, same⟩ := List.mem_map.1 this
    rw [← same]
    exact good.edge_ids f before

theorem eraseNode_wellFormed {g : Graph} {id : Text} (good : g.WellFormed) :
    WellFormed { nodes := g.nodes.filter (·.id ≠ id), edges := g.edges.filter (!·.touches id) } := by
  have kept : ∀ other, other ≠ id → g.hasNode other →
      hasNode { nodes := g.nodes.filter (·.id ≠ id), edges := g.edges.filter (!·.touches id) } other := by
    intro other different present
    obtain ⟨n, member, rfl⟩ := hasNode_iff_exists.1 present
    exact hasNode_iff_exists.2 ⟨n, List.mem_filter.2 ⟨member, by simpa using different⟩, rfl⟩
  refine ⟨?_, ?_, ?_, ?_, ?_⟩
  · exact good.nodes_nodup.sublist (List.filter_sublist.map _)
  · intro n member
    exact good.node_ids n (List.mem_filter.1 member).1
  · intro e member
    obtain ⟨before, apart⟩ := List.mem_filter.1 member
    obtain ⟨source, target⟩ := good.ends_present e before
    simp only [Edge.touches, Bool.not_eq_true', Bool.or_eq_false_iff, decide_eq_false_iff_not] at apart
    exact ⟨kept _ apart.1 source, kept _ apart.2 target⟩
  · exact good.edges_nodup.sublist (List.filter_sublist.map _)
  · intro e member
    exact good.edge_ids e (List.mem_filter.1 member).1

theorem eraseEdge_wellFormed {g : Graph} {id : Text} (good : g.WellFormed) :
    WellFormed { g with edges := g.edges.eraseP (·.id = id) } := by
  refine ⟨good.nodes_nodup, good.node_ids, ?_, ?_, ?_⟩
  · intro e member
    exact good.ends_present e (List.mem_of_mem_eraseP member)
  · exact good.edges_nodup.sublist (List.eraseP_sublist.map _)
  · intro e member
    exact good.edge_ids e (List.mem_of_mem_eraseP member)

/-! ### Every edit -/

/-- What an edit that hands something back leaves as the graph. -/
theorem map_snd_eq_ok {ε α β : Type} {result : Except ε (α × β)} {b : β} :
    result.map (·.2) = .ok b ↔ ∃ a, result = .ok (a, b) := by
  cases result with
  | error _ => simp [Except.map]
  | ok pair => cases pair; simp [Except.map]

/-- One edit keeps a graph well formed. -/
theorem run_wellFormed {g h : Graph} {e : Edit} (good : g.WellFormed) (done : e.run g = .ok h) : h.WellFormed := by
  cases e with
  | addNode n =>
    obtain ⟨valid, absent, rfl⟩ := addNode_eq_ok.1 done
    rw [← insertNode_absent absent]
    exact insertNode_wellFormed good valid
  | eraseNode id =>
    obtain ⟨n, erased⟩ := map_snd_eq_ok.1 done
    obtain ⟨-, rfl⟩ := eraseNode_eq_ok.1 erased
    exact eraseNode_wellFormed good
  | setLabel id label =>
    obtain ⟨-, rfl⟩ := setLabel_eq_ok.1 done
    exact changeNode_wellFormed good fun _ => rfl
  | setShape id shape =>
    obtain ⟨-, rfl⟩ := setShape_eq_ok.1 done
    exact changeNode_wellFormed good fun _ => rfl
  | addEdge source target label =>
    obtain ⟨e, added⟩ := map_snd_eq_ok.1 done
    obtain ⟨sourcePresent, targetPresent, rfl, rfl⟩ := addEdge_eq_ok.1 added
    exact join_wellFormed good sourcePresent targetPresent
  | eraseEdge id =>
    obtain ⟨e, erased⟩ := map_snd_eq_ok.1 done
    obtain ⟨-, rfl⟩ := eraseEdge_eq_ok.1 erased
    exact eraseEdge_wellFormed good
  | setEdgeLabel id label =>
    obtain ⟨-, rfl⟩ := setEdgeLabel_eq_ok.1 done
    exact changeEdge_wellFormed good (fun _ => rfl) good.ends_present
  | setEnds id source target =>
    obtain ⟨-, sourcePresent, targetPresent, rfl⟩ := setEnds_eq_ok.1 done
    exact changeEdge_wellFormed good (fun _ => rfl) fun _ _ => ⟨sourcePresent, targetPresent⟩
  | setAnimated id animated =>
    obtain ⟨-, rfl⟩ := setAnimated_eq_ok.1 done
    exact changeEdge_wellFormed good (fun _ => rfl) good.ends_present

/-! ### Every way of building -/

theorem insertNodes_wellFormed {g : Graph} (good : g.WellFormed) (nodes : List Node)
    (valid : ∀ n ∈ nodes, isId n.id) : (nodes.foldl insertNode g).WellFormed := by
  induction nodes generalizing g with
  | nil => exact good
  | cons n rest ih =>
    have here := insertNode_wellFormed good (valid n List.mem_cons_self)
    exact ih here fun m member => valid m (List.mem_cons_of_mem _ member)

theorem enterSource_wellFormed {g : Graph} {declarations : List Node} {link : Option Link} (good : g.WellFormed)
    (valid : ∀ l ∈ link, isId l.source ∧ isId l.target) : (g.enterSource declarations link).WellFormed := by
  unfold enterSource
  split
  · next l =>
    split
    · exact good
    · exact mention_wellFormed good (valid l rfl).1
  · exact good

theorem enterLink_wellFormed {g : Graph} {link : Option Link} (good : g.WellFormed)
    (valid : ∀ l ∈ link, isId l.source ∧ isId l.target) : (g.enterLink link).WellFormed := by
  unfold enterLink
  split
  · next l =>
    obtain ⟨source, target⟩ := valid l rfl
    have both := mention_wellFormed (mention_wellFormed good source) target
    exact join_wellFormed both (mention_hasNode.2 (.inl (mention_hasNode.2 (.inr rfl)))) (mention_hasNode.2 (.inr rfl))
  · exact good

/-- One statement keeps a graph well formed. -/
theorem enter_wellFormed {g : Graph} {s : Statement} (good : g.WellFormed) (named : s.Named) :
    (g.enter s).WellFormed := by
  cases s with
  | skip => exact good
  | unparseable => exact good
  | content declarations link =>
    obtain ⟨declared, linked⟩ := named
    exact enterLink_wellFormed (insertNodes_wellFormed (enterSource_wellFormed good linked) _ declared) linked

theorem ofStatements_wellFormed (statements : List Statement) (named : ∀ s ∈ statements, s.Named) :
    (ofStatements statements).WellFormed := by
  suffices ∀ g : Graph, g.WellFormed → (statements.foldl enter g).WellFormed from this _ empty_wellFormed
  induction statements with
  | nil => exact fun g good => good
  | cons s rest ih =>
    intro g good
    have here := enter_wellFormed good (named s List.mem_cons_self)
    exact ih (fun s member => named s (List.mem_cons_of_mem _ member)) _ here

theorem parse_eq_ok {t : Text} {g : Graph} :
    Flowchart.parse t = .ok g ↔ ¬ t.isWhiteOnly ∧ g = ofStatements (statements t) ∧ g.nodes ≠ [] := by
  unfold Flowchart.parse checked
  by_cases blank : t.isWhiteOnly
  · simp [blank]
  · by_cases bare : (ofStatements (statements t)).nodes = []
    · simp only [blank, bare]
      constructor
      · intro impossible
        cases impossible
      · rintro ⟨-, rfl, filled⟩
        exact absurd bare filled
    · simp only [blank, List.isEmpty_iff, bare, Bool.false_eq_true, if_false, Except.ok.injEq]
      constructor
      · rintro rfl
        exact ⟨not_false, rfl, bare⟩
      · rintro ⟨-, rfl, -⟩
        rfl

/-- The lines of a text name nothing but node ids. -/
theorem statements_named (t : Text) : ∀ s ∈ statements t, s.Named := by
  intro s member
  obtain ⟨line, -, rfl⟩ := List.mem_map.1 member
  exact parse_named line

theorem parse_wellFormed {t : Text} {g : Graph} (read : Flowchart.parse t = .ok g) : g.WellFormed := by
  obtain ⟨-, rfl, -⟩ := parse_eq_ok.1 read
  exact ofStatements_wellFormed _ (statements_named t)

theorem addLooseNode_wellFormed {g h : Graph} {n : Node} (good : g.WellFormed) (added : addLooseNode g n = .ok h) :
    h.WellFormed := by
  unfold addLooseNode at added
  split at added
  · next valid =>
    obtain rfl := Except.ok.inj added
    exact insertNode_wellFormed good valid
  · cases added

/-- An edge of the parts gets an id that no edge before it has. -/
theorem settleEdgeId_fresh (edges : List Edge) (e : Edge) :
    (settleEdgeId edges e).id ≠ [] ∧ (settleEdgeId edges e).id ∉ edges.map (·.id) := by
  unfold settleEdgeId
  split
  · exact ⟨freshEdgeId_ne_nil _ _ _, freshEdgeId_not_mem _ _ _⟩
  · next given =>
    simp only [Bool.or_eq_true, not_or, List.isEmpty_iff, List.any_eq_true, decide_eq_true_eq] at given
    exact ⟨given.1, fun taken => given.2 (by simpa using taken)⟩

theorem settleEdgeId_source (edges : List Edge) (e : Edge) : (settleEdgeId edges e).source = e.source := by
  unfold settleEdgeId
  split <;> rfl

theorem settleEdgeId_target (edges : List Edge) (e : Edge) : (settleEdgeId edges e).target = e.target := by
  unfold settleEdgeId
  split <;> rfl

theorem addLooseEdge_wellFormed {g h : Graph} {e : Edge} (good : g.WellFormed) (added : addLooseEdge g e = .ok h) :
    h.WellFormed := by
  unfold addLooseEdge at added
  split at added
  · cases added
  · next source =>
    split at added
    · cases added
    · next target =>
      obtain rfl := Except.ok.inj added
      simp only [Bool.not_eq_true', Bool.not_eq_false] at source target
      have both := mention_wellFormed (mention_wellFormed good source) target
      obtain ⟨named, new⟩ := settleEdgeId_fresh ((g.mention e.source).mention e.target).edges e
      apply append_wellFormed both _ _ named new
      · rw [settleEdgeId_source]
        exact mention_hasNode.2 (.inl (mention_hasNode.2 (.inr rfl)))
      · rw [settleEdgeId_target]
        exact mention_hasNode.2 (.inr rfl)

/-- What each step of a run keeps, the run keeps. -/
theorem foldlM_keeps {α : Type} {step : Graph → α → Except EditError Graph} {P : Graph → Prop}
    (keeps : ∀ g a h, P g → step g a = .ok h → P h) {items : List α} {g h : Graph} (start : P g)
    (run : items.foldlM step g = .ok h) : P h := by
  induction items generalizing g with
  | nil =>
    obtain rfl := pure_eq_ok.1 run
    exact start
  | cons a rest ih =>
    rw [List.foldlM_cons] at run
    obtain ⟨next, first, later⟩ := bind_eq_ok.1 run
    exact ih (keeps g a next start first) later

theorem ofParts_wellFormed {nodes : List Node} {edges : List Edge} {g : Graph} (made : ofParts nodes edges = .ok g) :
    g.WellFormed := by
  obtain ⟨h, withNodes, withEdges⟩ := bind_eq_ok.1 made
  have good : h.WellFormed :=
    foldlM_keeps (fun _ _ _ good added => addLooseNode_wellFormed good added) empty_wellFormed withNodes
  exact foldlM_keeps (fun _ _ _ good added => addLooseEdge_wellFormed good added) good withEdges

/-- A graph that is read from JSON is made from the parts that the JSON holds. -/
theorem ofJson_eq_ok {j : Json} {g : Graph} (read : ofJson j = .ok g) :
    ∃ nodes edges, ofParts nodes edges = .ok g := by
  obtain ⟨parts, -, made⟩ := bind_eq_ok.1 read
  refine ⟨parts.nodes, parts.edges, ?_⟩
  cases built : ofParts parts.nodes parts.edges with
  | ok h =>
    simp only [built] at made
    rw [pure_eq_ok.1 made]
  | error e => simp [built] at made

theorem Built.wellFormed {g : Graph} (built : Built g) : g.WellFormed := by
  cases built with
  | empty => exact empty_wellFormed
  | text read => exact parse_wellFormed read
  | parts made => exact ofParts_wellFormed made
  | json read =>
    obtain ⟨nodes, edges, made⟩ := ofJson_eq_ok read
    exact ofParts_wellFormed made

theorem Reachable.wellFormed {g : Graph} (reachable : Reachable g) : g.WellFormed := by
  induction reachable with
  | built built => exact built.wellFormed
  | edited e _ done good => exact run_wellFormed good done

/-- Every graph that comes about is well formed, and its nodes are found under their own ids. -/
theorem reachable_invariant {g : Graph} (reachable : Reachable g) :
    g.WellFormed ∧ ∀ id n, g.node? id = some n ↔ n ∈ g.nodes ∧ n.id = id :=
  ⟨reachable.wellFormed, fun _ _ => node?_eq_some reachable.wellFormed.nodes_nodup⟩

/-- Two nodes; the first of their edges, which carried a name that looks generated, was removed
    after a second one had been added, and its name is in use again. -/
def renewed : Graph :=
  ⟨[.bare ['A'], .bare ['B']],
    [⟨['e', '2', '-', 'A', '-', 'B'], ['A'], ['B'], some ['x'], false⟩,
     ⟨['e', '1', '-', 'A', '-', 'B'], ['A'], ['B'], none, false⟩]⟩

theorem renewed_invariant :
    Reachable renewed ∧ renewed.WellFormed ∧
      ∀ id n, renewed.node? id = some n ↔ n ∈ renewed.nodes ∧ n.id = id := by
  have made : ofParts [.bare ['A']] [⟨['e', '1', '-', 'A', '-', 'B'], ['A'], ['B'], none, false⟩] =
      .ok ⟨[.bare ['A'], .bare ['B']], [⟨['e', '1', '-', 'A', '-', 'B'], ['A'], ['B'], none, false⟩]⟩ := rfl
  have added := Reachable.edited (.addEdge ['A'] ['B'] (some ['x'])) (.built (.parts made)) rfl
  have removed := Reachable.edited (.eraseEdge ['e', '1', '-', 'A', '-', 'B']) added rfl
  have reachable : Reachable renewed := .edited (.addEdge ['A'] ['B'] none) removed rfl
  exact ⟨reachable, reachable_invariant reachable⟩

end Graph
end Flowchart
