import Flowchart.Proofs.Graph.Reachable
import Flowchart.Proofs.Line.Rows
import Flowchart.Proofs.Writer.Line

/-!
A written graph is read back (`toTextUnder_readBack`). While the lines are read, the graph so far
echoes the written one (`Echo`): it holds the nodes that the lines so far name, as they are
written, and the edges of these lines. One edge line keeps the echo (`Echo.enter_edge`), and so do all of
them (`Echo.edgeLines`); the orphans behind them complete the nodes.
-/
namespace Flowchart
open Text Line

/-- What an edge joins, and how, apart from its id. -/
def Edge.content (e : Edge) : Text × Text × Option Text × Bool := (e.source, e.target, e.label, e.animated)

/-- The content that is read where an edge is written. -/
def Writer.writtenContent (e : Edge) : Text × Text × Option Text × Bool :=
  (e.source, e.target, writtenLabel e, e.animated)

/-- What comes back of a graph that is written: its nodes and its edges as they are written, the nodes
    in any order. -/
structure ReadBack (g h : Graph) : Prop where
  nodes : h.nodes.Perm (g.nodes.map Writer.written)
  edges : h.edges.map Edge.content = g.edges.map Writer.writtenContent

/-- All lines of the text are passed over. -/
def Silent (t : Text) : Prop := ∀ line ∈ t.lines, Line.parse line = .skip

namespace Writer
open Flowchart.Graph

/-! ### Lines that are passed over -/

theorem enter_skips {skipped : List Statement} (silent : ∀ s ∈ skipped, s = .skip) (g : Graph) :
    skipped.foldl enter g = g := by
  induction skipped with
  | nil => rfl
  | cons s rest ih =>
    rw [List.foldl_cons, silent s List.mem_cons_self]
    exact ih fun s member => silent s (List.mem_cons_of_mem _ member)

/-- A header that is passed over leaves the lines behind it as they are. -/
theorem statements_header {header : Text} (silent : Silent header) (t : Text) :
    ∃ skipped, (∀ s ∈ skipped, s = .skip) ∧ statements (header ++ '\n' :: t) = skipped ++ statements t := by
  refine ⟨(rows header).map fun row => Line.parse (dropReturn row), ?_, ?_⟩
  · intro s member
    obtain ⟨row, inside, rfl⟩ := List.mem_map.1 member
    rw [parse_dropReturn]
    rcases mem_linesOfRows inside with rfl | kept | shortened
    · rfl
    · exact silent row kept
    · rw [← parse_dropReturn]
      exact silent _ shortened
  · rw [statements, lines_append_newline, List.map_append, List.map_map]
    rfl

theorem statements_white {t : Text} (white : White t) : ∀ s ∈ statements t, s = .skip := by
  intro s member
  obtain ⟨line, inside, rfl⟩ := List.mem_map.1 member
  have whiteLine : White line := fun c found => white c (mem_of_mem_lines inside found)
  have trimmed : line.trim = [] := trim_append_white (t := []) whiteLine
  rw [Line.parse, trimmed]
  rfl

/-! ### The echo of a graph -/

/-- The graph that is read so far, when the lines so far name the ids and hold the edges. -/
structure Echo (g : Graph) (names : List Text) (done : List Edge) (h : Graph) : Prop where
  nodes : ∀ n ∈ h.nodes, n ∈ g.nodes.map written
  names : ∀ id, h.hasNode id ↔ id ∈ names
  edges : h.edges.map Edge.content = done.map writtenContent

theorem echo_empty (g : Graph) : Echo g [] [] .empty := by
  refine ⟨?_, ?_, rfl⟩
  · intro n member
    cases member
  · simp [hasNode, Graph.empty]

variable {g h : Graph} {names : List Text} {done : List Edge}

theorem Echo.rename (echo : Echo g names done h) {others : List Text} (same : ∀ id, id ∈ names ↔ id ∈ others) :
    Echo g others done h :=
  ⟨echo.nodes, fun id => (echo.names id).trans (same id), echo.edges⟩

theorem Echo.insertNode (echo : Echo g names done h) {n : Node} (member : n ∈ g.nodes) :
    Echo g (n.id :: names) done (h.insertNode (written n)) := by
  refine ⟨?_, ?_, ?_⟩
  · by_cases present : h.hasNode (written n).id
    · rw [insertNode_present present]
      exact echo.nodes
    · rw [insertNode_absent present]
      intro m inside
      rcases List.mem_append.1 inside with before | last
      · exact echo.nodes m before
      · rw [List.mem_singleton.1 last]
        exact List.mem_map_of_mem member
  · intro id
    rw [insertNode_hasNode, echo.names, List.mem_cons, or_comm]
    exact or_congr_left eq_comm
  · rw [insertNode_edges]
    exact echo.edges

/-- A node that stands in full enters; one that stands by its id is there. -/
theorem Echo.declared (echo : Echo g names done h) {n : Node} (member : n ∈ g.nodes) {full : Bool}
    (known : full ∨ n.id ∈ names) : Echo g (n.id :: names) done ((declared full n).foldl Graph.insertNode h) := by
  cases full with
  | true => exact echo.insertNode member
  | false =>
    have named : n.id ∈ names := by simpa using known
    exact echo.rename fun id => by simp [or_iff_right_of_imp (fun same : id = n.id => same ▸ named)]

/-- The source of a link that does not stand in full is there already. -/
theorem Echo.enterSource (echo : Echo g names done h) {source : Node} {e : Edge} (fromSource : source.id = e.source)
    {full : Bool} (known : full ∨ source.id ∈ names) (others : List Node) :
    h.enterSource (Writer.declared full source ++ others) (some (writtenLink e)) = h := by
  unfold Graph.enterSource
  split
  · next l same =>
    obtain rfl := Option.some.inj same
    split
    · rfl
    -- The line names the source by its id only, so that a line above has declared it.
    · next undeclared =>
      cases full with
      | true =>
        refine absurd ?_ undeclared
        simp [Writer.declared, written, writtenLink, fromSource]
      | false =>
        apply mention_present
        rw [writtenLink, ← fromSource]
        exact (echo.names _).2 (by simpa using known)
  · rfl

theorem Echo.enterLink (echo : Echo g names done h) {e : Edge} (source : e.source ∈ names) (target : e.target ∈ names) :
    Echo g names (done ++ [e]) (h.enterLink (some (writtenLink e))) := by
  have sourceThere : h.mention (writtenLink e).source = h := mention_present ((echo.names _).2 source)
  have targetThere : h.mention (writtenLink e).target = h := mention_present ((echo.names _).2 target)
  have joined : h.enterLink (some (writtenLink e)) =
      h.join e.source e.target (writtenLabel e) e.animated := by
    simp only [Graph.enterLink, sourceThere, targetThere, writtenLink_animated]
    rfl
  rw [joined]
  refine ⟨echo.nodes, echo.names, ?_⟩
  rw [Graph.join, append_edges, List.map_append, List.map_append, echo.edges]
  rfl

/-- The line of an edge keeps the echo: its ends are named and the edge is there. -/
theorem Echo.enter_edge (echo : Echo g names done h) {source target : Node} {e : Edge} (sourceMember : source ∈ g.nodes)
    (targetMember : target ∈ g.nodes) (fromSource : source.id = e.source) (toTarget : target.id = e.target)
    {sourceFull targetFull : Bool} (sourceKnown : sourceFull ∨ source.id ∈ names)
    (targetKnown : targetFull ∨ target.id ∈ source.id :: names) :
    Echo g (target.id :: source.id :: names) (done ++ [e])
      (h.enter (.content (Writer.declared sourceFull source ++ Writer.declared targetFull target)
        (some (writtenLink e)))) := by
  have ends := (echo.declared sourceMember sourceKnown).declared targetMember targetKnown
  have entered : h.enter (.content (Writer.declared sourceFull source ++ Writer.declared targetFull target)
      (some (writtenLink e))) =
      ((Writer.declared targetFull target).foldl Graph.insertNode
        ((Writer.declared sourceFull source).foldl Graph.insertNode h)).enterLink (some (writtenLink e)) := by
    rw [Graph.enter, echo.enterSource fromSource sourceKnown, List.foldl_append]
  rw [entered]
  exact ends.enterLink (by simp [← fromSource]) (by simp [← toTarget])

/-! ### All lines -/

theorem touches_iff {e : Edge} {id : Text} : e.touches id ↔ e.source = id ∨ e.target = id := by
  simp [Edge.touches]

/-- The ends of an edge are named with the others or touched with the others. -/
theorem named_cons {e : Edge} {rest : List Edge} {id : Text} :
    (id ∈ e.target :: e.source :: names ∨ ∃ f ∈ rest, f.touches id) ↔
      id ∈ names ∨ ∃ f ∈ e :: rest, f.touches id := by
  simp only [List.mem_cons, exists_eq_or_imp, touches_iff]
  constructor
  · rintro ((target | source | named) | later)
    · exact .inr (.inl (.inr target.symm))
    · exact .inr (.inl (.inl source.symm))
    · exact .inl named
    · exact .inr (.inr later)
  · rintro (named | (source | target) | later)
    · exact .inl (.inr (.inr named))
    · exact .inl (.inr (.inl source.symm))
    · exact .inl (.inl target.symm)
    · exact .inr later

/-- Reading the lines of edges, in front of other lines. -/
theorem Echo.edgeLines (good : g.WellFormed) {edges : List Edge} (inside : edges ⊆ g.edges)
    (echo : Echo g names done h) (t : Text) :
    ∃ h' others, (statements (Writer.edgeLines g names edges ++ t)).foldl enter h = (statements t).foldl enter h' ∧
      (∀ id, id ∈ others ↔ id ∈ names ∨ ∃ e ∈ edges, e.touches id) ∧ Echo g others (done ++ edges) h' := by
  induction edges generalizing names done h with
  | nil => exact ⟨h, names, rfl, by simp, by simpa using echo⟩
  | cons e rest ih =>
    obtain ⟨sourceThere, targetThere⟩ := good.ends_present e (inside List.mem_cons_self)
    obtain ⟨source, sourceFound⟩ := Option.isSome_iff_exists.1 (node?_isSome.2 sourceThere)
    obtain ⟨target, targetFound⟩ := Option.isSome_iff_exists.1 (node?_isSome.2 targetThere)
    have fromSource := node?_id sourceFound
    have toTarget := node?_id targetFound
    have sourceValid := good.node_ids source (node?_mem sourceFound)
    have targetValid := good.node_ids target (node?_mem targetFound)
    let later := Writer.edgeLines g (target.id :: source.id :: names) rest ++ t
    obtain ⟨sourceFull, targetFull, sourceKnown, targetKnown, read⟩ :=
      statements_edgeLine sourceValid targetValid e fromSource toTarget names later
    have step := echo.enter_edge (node?_mem sourceFound) (node?_mem targetFound) fromSource toTarget sourceKnown
      targetKnown
    obtain ⟨h', others, run, named, final⟩ := ih (fun f member => inside (List.mem_cons_of_mem _ member)) step
    refine ⟨h', others, ?_, ?_, ?_⟩
    · rw [Writer.edgeLines, sourceFound, targetFound, List.append_assoc, read, List.foldl_cons]
      exact run
    · intro id
      rw [named, fromSource, toTarget]
      exact named_cons
    · rw [List.append_assoc] at final
      exact final

/-- The lines of single nodes add these nodes. -/
theorem enter_nodeLines (good : g.WellFormed) {ns : List Node} (inside : ns ⊆ g.nodes) (h : Graph) :
    (statements (ns.flatMap fun n => indent ++ fullForm n ++ ['\n'])).foldl enter h =
      (ns.map written).foldl Graph.insertNode h := by
  induction ns generalizing h with
  | nil => rfl
  | cons n rest ih =>
    have read := statements_nodeLine (good.node_ids n (inside List.mem_cons_self))
      (rest.flatMap fun n => indent ++ fullForm n ++ ['\n'])
    rw [nodeLines_cons, read, List.foldl_cons, ih fun m later => inside (List.mem_cons_of_mem _ later)]
    rfl

theorem Echo.insertNodes {ns : List Node} (inside : ns ⊆ g.nodes) (echo : Echo g names done h) :
    ∃ others, (∀ id, id ∈ others ↔ id ∈ names ∨ id ∈ ns.map (·.id)) ∧
      Echo g others done ((ns.map written).foldl Graph.insertNode h) := by
  induction ns generalizing names h with
  | nil => exact ⟨names, by simp, echo⟩
  | cons n rest ih =>
    have here := echo.insertNode (inside List.mem_cons_self)
    obtain ⟨others, named, final⟩ := ih (fun m later => inside (List.mem_cons_of_mem _ later)) here
    refine ⟨others, fun id => ?_, final⟩
    rw [named, List.mem_cons, List.map_cons, List.mem_cons]
    tauto

/-- A graph that echoes all nodes and edges is what is read back. -/
theorem Echo.readBack (good : g.WellFormed) (distinct : (h.nodes.map (·.id)).Nodup) (echo : Echo g names g.edges h)
    (complete : ∀ n ∈ g.nodes, n.id ∈ names) : ReadBack g h := by
  have writtenIds : (g.nodes.map written).map (·.id) = g.nodes.map (·.id) := by
    rw [List.map_map]
    rfl
  refine ⟨?_, echo.edges⟩
  rw [List.perm_ext_iff_of_nodup (.of_map _ distinct) (.of_map (·.id) (writtenIds ▸ good.nodes_nodup))]
  intro n
  constructor
  · exact echo.nodes n
  · intro member
    obtain ⟨m, inside, rfl⟩ := List.mem_map.1 member
    obtain ⟨k, there, sameId⟩ := hasNode_iff_exists.1 ((echo.names m.id).2 (complete m inside))
    obtain ⟨l, from_g, rfl⟩ := List.mem_map.1 (echo.nodes k there)
    have same : l = m := List.inj_on_of_nodup_map good.nodes_nodup from_g inside sameId
    rwa [← same]

/-- Reading the lines of all edges, in front of those of the orphans. -/
theorem exists_echo (good : g.WellFormed) {header : Text} (silent : Silent header) :
    ∃ h touched, Echo g touched g.edges h ∧ (∀ id, id ∈ touched ↔ ∃ e ∈ g.edges, e.touches id) ∧
      ofStatements (statements (g.toTextUnder header)) = (statements (orphanLines g)).foldl enter h := by
  obtain ⟨skipped, skips, read⟩ := statements_header silent (Writer.edgeLines g [] g.edges ++ orphanLines g)
  obtain ⟨h, touched, run, named, ends⟩ := (echo_empty g).edgeLines good (List.Subset.refl g.edges) (orphanLines g)
  refine ⟨h, touched, ends, fun id => by simp [named], ?_⟩
  have text : g.toTextUnder header = header ++ '\n' :: (Writer.edgeLines g [] g.edges ++ orphanLines g) := by
    simp [toTextUnder]
  rw [ofStatements, text, read, List.foldl_append, enter_skips skips, run]

theorem ofStatements_toTextUnder (good : g.WellFormed) {header : Text} (silent : Silent header) :
    ReadBack g (ofStatements (statements (g.toTextUnder header))) := by
  obtain ⟨h, touched, ends, named, result⟩ := exists_echo good silent
  have orphans : (g.nodes.filter fun n => g.isOrphan n.id) ⊆ g.nodes := List.filter_subset_self _
  obtain ⟨others, orphaned, final⟩ := ends.insertNodes orphans
  have distinct : ((ofStatements (statements (g.toTextUnder header))).nodes.map (·.id)).Nodup :=
    (ofStatements_wellFormed _ (statements_named _)).nodes_nodup
  rw [result, orphanLines, enter_nodeLines good orphans] at distinct ⊢
  refine final.readBack good distinct fun n member => (orphaned n.id).2 ?_
  by_cases orphan : g.isOrphan n.id
  · exact .inr (List.mem_map_of_mem (List.mem_filter.2 ⟨member, orphan⟩))
  · refine .inl ((named n.id).2 ?_)
    simpa [isOrphan] using orphan

theorem defaultHeader_silent : Silent defaultHeader := by
  unfold Silent
  decide +kernel

end Writer

namespace Graph

/-- A graph with nodes, written under a header that is passed over, is read back. -/
theorem toTextUnder_readBack {g : Graph} (reachable : Reachable g) (filled : g.nodes ≠ []) :
    Silent Writer.defaultHeader ∧ ∀ header, Silent header →
      ∃ h, Flowchart.parse (g.toTextUnder header) = .ok h ∧ ReadBack g h := by
  refine ⟨Writer.defaultHeader_silent, fun header silent => ?_⟩
  have back := Writer.ofStatements_toTextUnder reachable.wellFormed silent
  have someNode : (ofStatements (statements (g.toTextUnder header))).nodes ≠ [] := by
    intro none
    have same := back.nodes
    rw [none, List.nil_perm] at same
    exact filled (List.map_eq_nil_iff.1 same)
  refine ⟨_, parse_eq_ok.2 ⟨?_, rfl, someNode⟩, back⟩
  intro white
  have skips := Writer.statements_white (t := g.toTextUnder header) (by simpa [isWhiteOnly, White] using white)
  rw [ofStatements, Writer.enter_skips skips] at someNode
  exact someNode rfl

/-- A node with the id of a directive and brackets in its label, joined to itself and to an empty circle,
    and a node that no edge touches. -/
def awkward : Graph :=
  ⟨[⟨"end".toList, "say [\"hi\"]".toList, .diamond⟩, ⟨"B".toList, [], .circle⟩,
     ⟨"C".toList, " see C ".toList, .cylinder⟩],
    [⟨"loop".toList, "end".toList, "end".toList, some "a|b".toList, true⟩,
     ⟨"out".toList, "end".toList, "B".toList, some " ".toList, false⟩]⟩

theorem awkward_readBack :
    Reachable awkward ∧
      awkward.toText.lines =
        ["flowchart TD".toList,
         "    end\x7b\"say ('hi')\"\x7d -.->|a/b| end".toList,
         "    end\x7b\"say ('hi')\"\x7d --> B(())".toList,
         "    C[(see C)]".toList] ∧
      ∃ h, Flowchart.parse awkward.toText = .ok h ∧ ReadBack awkward h := by
  have made : ofParts awkward.nodes awkward.edges = .ok awkward := by decide +kernel
  have reachable : Reachable awkward := .built (.parts made)
  have back := toTextUnder_readBack reachable (by decide)
  exact ⟨reachable, by decide +kernel, back.2 Writer.defaultHeader back.1⟩

end Graph
end Flowchart
