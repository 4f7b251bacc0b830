import Flowchart.Proofs.Line.Rows

/-!
What a text is read as, said of the statements of its lines. The node of an id is what the first line that names the
id says about it: its first declaration there, or the bare node where that line only links it. Each link is one
edge, in the order of the lines, and the edges are numbered from zero (`Records`). One statement adds to what is
looked up and to the edges (`node?_enter`, `enter_edges`), and a run of statements adds what the first of them says
(`node?_foldl_enter`). What states nothing plays no part (`parse_records`).
-/
namespace Flowchart
open Line

namespace Line

/-- The statement declares the id or links it. -/
def Statement.mentions (id : Text) : Statement → Bool
  | .content declarations link => declarations.any (·.id = id) || link.any fun l => l.source = id || l.target = id
  | _ => false

/-- What the statement says about an id: its first declaration of it, or the bare node. -/
def Statement.record (id : Text) : Statement → Node
  | .content declarations _ => (declarations.find? (·.id = id)).getD (.bare id)
  | _ => .bare id

/-- The link of the statement. -/
def Statement.link : Statement → Option Link
  | .content _ link => link
  | _ => none

/-- The edge of a link, when so many links come before it. -/
def Link.edge (number : Nat) (l : Link) : Edge :=
  ⟨edgeId number l.source l.target, l.source, l.target, l.label, l.arrow = .dotted⟩

end Line

/-- What a graph has of the statements that it is read from, line by line. -/
structure Records (ss : List Statement) (g : Graph) : Prop where
  /-- The ids are those that are declared or linked. -/
  ids : ∀ id, g.hasNode id ↔ ∃ s ∈ ss, s.mentions id
  /-- Each id has one node. -/
  distinct : (g.nodes.map (·.id)).Nodup
  /-- The node of an id is what the first statement that mentions the id says about it. -/
  nodes : ∀ n, n ∈ g.nodes ↔ ∃ s, ss.find? (·.mentions n.id) = some s ∧ n = s.record n.id
  /-- Each link is an edge, numbered in the order of the lines. -/
  edges : g.edges = (ss.filterMap (·.link)).mapIdx Link.edge

namespace Graph

/-! ### Nodes -/

theorem node?_insertNode (g : Graph) (n : Node) (id : Text) :
    (g.insertNode n).node? id = (g.node? id).or (if n.id = id then some n else none) := by
  by_cases present : g.hasNode n.id
  · rw [insertNode_present present]
    by_cases same : n.id = id
    · subst same
      obtain ⟨m, found⟩ := Option.isSome_iff_exists.1 (node?_isSome.2 present)
      simp [found]
    · simp [same]
  · rw [insertNode_absent present, node?, node?, List.find?_append, List.find?_singleton]
    simp

/-- Of several nodes with one id the first stays. -/
theorem node?_insertNodes (ns : List Node) (g : Graph) (id : Text) :
    (ns.foldl insertNode g).node? id = (g.node? id).or (ns.find? (·.id = id)) := by
  induction ns generalizing g with
  | nil => simp
  | cons n rest ih =>
    rw [List.foldl_cons, ih, node?_insertNode, Option.or_assoc, List.find?_cons]
    by_cases same : n.id = id <;> simp [same]

theorem node?_mention (g : Graph) (id other : Text) :
    (g.mention id).node? other = (g.node? other).or (if id = other then some (.bare other) else none) := by
  rw [mention, node?_insertNode]
  by_cases same : id = other
  · subst same
    rfl
  · simp [Node.bare, same]

theorem any_eq_find?_isSome (declarations : List Node) (id : Text) :
    declarations.any (·.id = id) = (declarations.find? (·.id = id)).isSome := by
  rw [Bool.eq_iff_iff, List.find?_isSome, List.any_eq_true]

/-- The source enters in front of the declarations, and only where the line does not declare it. -/
theorem node?_enterSource (g : Graph) (declarations : List Node) (l : Link) (id : Text) :
    (g.enterSource declarations (some l)).node? id =
      (g.node? id).or (if (declarations.find? (·.id = id)).isNone ∧ l.source = id then some (.bare id) else none) := by
  simp only [enterSource]
  split
  · next declared =>
    have other : ¬ ((declarations.find? (·.id = id)).isNone ∧ l.source = id) := by
      rintro ⟨undeclared, rfl⟩
      rw [any_eq_find?_isSome, Option.isSome_eq_false_iff.2 undeclared] at declared
      cases declared
    rw [if_neg other, Option.or_none]
  · next undeclared =>
    rw [node?_mention]
    by_cases same : l.source = id
    · subst same
      have absent : (declarations.find? (·.id = l.source)).isNone := by simpa using undeclared
      simp [absent]
    · simp [same]

/-- A statement adds what it says about the ids that it mentions and that are new. -/
theorem node?_enter (g : Graph) (s : Statement) (id : Text) :
    (g.enter s).node? id = (g.node? id).or (if s.mentions id then some (s.record id) else none) := by
  cases s with
  | skip => simp [enter, Statement.mentions]
  | unparseable => simp [enter, Statement.mentions]
  | content declarations link =>
    rw [Statement.mentions, Statement.record, any_eq_find?_isSome, enter]
    cases link with
    | none =>
      simp only [enterSource, enterLink, node?_insertNodes]
      cases declarations.find? (·.id = id) <;> simp
    | some l =>
      -- The source is there before the declarations if the line does not declare it, so the ends add only bare nodes.
      have joined : ∀ h : Graph, (h.enterLink (some l)).node? id = ((h.mention l.source).mention l.target).node? id :=
        fun _ => rfl
      rw [joined, node?_mention, node?_mention, node?_insertNodes, node?_enterSource]
      cases declarations.find? (·.id = id) with
      | some n => simp
      | none => by_cases source : l.source = id <;> by_cases target : l.target = id <;> simp [source, target]

/-- Of several statements that mention an id, the first says what its node is. -/
theorem node?_foldl_enter (ss : List Statement) (g : Graph) (id : Text) :
    (ss.foldl enter g).node? id = (g.node? id).or ((ss.find? (·.mentions id)).map (·.record id)) := by
  induction ss generalizing g with
  | nil => simp
  | cons s rest ih =>
    rw [List.foldl_cons, ih, node?_enter, Option.or_assoc, List.find?_cons]
    cases s.mentions id <;> simp

/-! ### Edges -/

/-- Behind numbered edges, the next number is free. -/
theorem freshEdgeId_numbered (ls : List Link) (source target : Text) :
    freshEdgeId (ls.mapIdx Link.edge) source target = edgeId ls.length source target := by
  obtain ⟨i, -, fresh, least⟩ := freshEdgeId_first (ls.mapIdx Link.edge) source target
  rw [List.length_mapIdx] at least
  have free : edgeId ls.length source target ∉ (ls.mapIdx Link.edge).map (·.id) := by
    -- The number can be told from an id, and all numbers in use are smaller.
    intro taken
    obtain ⟨e, member, same⟩ := List.mem_map.1 taken
    obtain ⟨k, inside, rfl⟩ := List.mem_mapIdx.1 member
    exact Nat.ne_of_lt inside (edgeId_inj same)
  have next : i = ls.length := Nat.le_antisymm (least.2 ⟨Nat.le_refl _, free⟩) least.1.1
  rw [fresh, next]

/-- A statement adds the edge of its link, with the next number. -/
theorem enter_edges {g : Graph} {ls : List Link} (numbered : g.edges = ls.mapIdx Link.edge) (s : Statement) :
    (g.enter s).edges = (ls ++ s.link.toList).mapIdx Link.edge := by
  cases s with
  | skip => simpa [enter, Statement.link] using numbered
  | unparseable => simpa [enter, Statement.link] using numbered
  | content declarations link =>
    cases link with
    | none => simpa [enter, Statement.link, enterSource, enterLink, insertNodes_edges] using numbered
    | some l =>
      have sourced : (g.enterSource declarations (some l)).edges = g.edges := by
        simp only [enterSource]
        split
        · rfl
        · rw [mention, insertNode_edges]
      have before : ((declarations.foldl insertNode (g.enterSource declarations (some l))).mention l.source |>.mention
          l.target).edges = ls.mapIdx Link.edge := by
        rw [mention, insertNode_edges, mention, insertNode_edges, insertNodes_edges, sourced, numbered]
      simp only [enter, enterLink, join, append_edges, before, freshEdge, freshEdgeId_numbered, Statement.link,
        Option.toList_some, List.mapIdx_concat]
      rfl

theorem foldl_enter_edges (ss : List Statement) {g : Graph} {ls : List Link}
    (numbered : g.edges = ls.mapIdx Link.edge) :
    (ss.foldl enter g).edges = (ls ++ ss.filterMap (·.link)).mapIdx Link.edge := by
  induction ss generalizing g ls with
  | nil => simpa using numbered
  | cons s rest ih =>
    rw [List.foldl_cons, ih (enter_edges numbered s), List.filterMap_cons, List.append_assoc]
    cases s.link <;> rfl

/-! ### Texts -/

theorem ofStatements_records {ss : List Statement} (named : ∀ s ∈ ss, s.Named) : Records ss (ofStatements ss) := by
  have looked : ∀ id, (ofStatements ss).node? id = (ss.find? (·.mentions id)).map (·.record id) :=
    node?_foldl_enter ss empty
  have distinct := (ofStatements_wellFormed ss named).nodes_nodup
  have none : empty.edges = ([] : List Link).mapIdx Link.edge := rfl
  refine ⟨fun id => ?_, distinct, fun n => ?_, foldl_enter_edges ss none⟩
  · rw [← node?_isSome, looked, Option.isSome_map, List.find?_isSome]
  · have looksUp : n ∈ (ofStatements ss).nodes ↔ (ofStatements ss).node? n.id = some n := by
      simp [node?_eq_some distinct]
    rw [looksUp, looked, Option.map_eq_some_iff]
    simp only [eq_comm]

/-- A line that states something mentions an id. -/
theorem exists_mentions {line : Text} (stated : (Line.parse line).isStated) : ∃ id, (Line.parse line).mentions id := by
  obtain ⟨said, declared | linked⟩ := parse_of_isStated stated
  · obtain ⟨n, rest, first⟩ := List.exists_cons_of_ne_nil declared
    exact ⟨n.id, by simp [said, first, Statement.mentions]⟩
  · obtain ⟨l, found⟩ := Option.isSome_iff_exists.1 linked
    exact ⟨l.source, by simp [said, found, Statement.mentions]⟩

theorem isStated_of_mentions {s : Statement} {id : Text} (mentioned : s.mentions id) : s.isStated := by
  cases s with
  | skip => cases mentioned
  | unparseable => cases mentioned
  | content declarations link => rfl

/-- The graph of a text has a node just when some line states something. -/
theorem ofStatements_nodes_eq_nil {t : Text} :
    (ofStatements (statements t)).nodes = [] ↔ ∀ s ∈ statements t, ¬ s.isStated := by
  have made := ofStatements_records (statements_named t)
  constructor
  · intro none s member stated
    obtain ⟨line, inside, rfl⟩ := List.mem_map.1 member
    obtain ⟨id, mentioned⟩ := exists_mentions stated
    have present := (made.ids id).2 ⟨_, member, mentioned⟩
    simp [hasNode, none] at present
  · intro silent
    by_contra filled
    obtain ⟨n, rest, nodes⟩ := List.exists_cons_of_ne_nil filled
    obtain ⟨s, found, -⟩ := (made.nodes n).1 (by simp [nodes])
    have mentioned : s.mentions n.id := List.find?_some found
    exact silent s (List.mem_of_find?_eq_some found) (isStated_of_mentions mentioned)

theorem parse_of_filled {t : Text} (filled : ¬ t.isWhiteOnly) :
    Flowchart.parse t = (ofStatements (statements t)).checked := by
  rw [Flowchart.parse, if_neg filled]

/-- A node is bare, or a line declares it. -/
theorem bare_or_declared {t : Text} {g : Graph} (read : Flowchart.parse t = .ok g) {n : Node} (member : n ∈ g.nodes) :
    n = .bare n.id ∨ ∃ line ∈ t.lines, n ∈ declarations line.trim := by
  obtain ⟨-, rfl, -⟩ := parse_eq_ok.1 read
  obtain ⟨s, found, same⟩ := ((ofStatements_records (statements_named t)).nodes n).1 member
  obtain ⟨line, inside, rfl⟩ := List.mem_map.1 (List.mem_of_find?_eq_some found)
  cases stated : Line.parse line with
  | skip => exact .inl (by rw [same, stated]; rfl)
  | unparseable => exact .inl (by rw [same, stated]; rfl)
  | content declared link =>
    rw [stated, Statement.record] at same
    obtain ⟨rfl, -, -⟩ := parse_eq_content stated
    cases first : (declarations line.trim).find? (·.id = n.id) with
    | none => exact .inl (by rw [same, first]; rfl)
    | some m =>
      have here : n = m := by rw [same, first]; rfl
      exact .inr ⟨line, inside, here ▸ List.mem_of_find?_eq_some first⟩

theorem checked_eq_error {g : Graph} : g.checked = .error .noNodes ↔ g.nodes = [] := by
  unfold checked
  split <;> simp_all

end Graph

open Flowchart.Graph

/-- Reading a text that is not blank fails just when no line states anything. Otherwise the graph has what the lines
    state, and only the lines that state something count. -/
theorem parse_records {t : Text} (filled : ¬ t.isWhiteOnly) :
    (parse t = .error .noNodes ↔ ∀ s ∈ statements t, ¬ s.isStated) ∧
      ((∃ s ∈ statements t, s.isStated) → ∃ g, parse t = .ok g ∧ Records (statements t) g) ∧
      ∀ u : Text, ¬ u.isWhiteOnly → (statements u).filter (·.isStated) = (statements t).filter (·.isStated) →
        parse u = parse t := by
  have fails : parse t = .error .noNodes ↔ ∀ s ∈ statements t, ¬ s.isStated := by
    rw [parse_of_filled filled, checked_eq_error, ofStatements_nodes_eq_nil]
  refine ⟨fails, ?_, ?_⟩
  · rintro ⟨s, member, stated⟩
    have someNode : (ofStatements (statements t)).nodes ≠ [] :=
      fun none => ofStatements_nodes_eq_nil.1 none s member stated
    exact ⟨_, parse_eq_ok.2 ⟨filled, rfl, someNode⟩, ofStatements_records (statements_named t)⟩
  · intro u uFilled same
    rw [parse_of_filled uFilled, parse_of_filled filled, ← ofStatements_filter, same, ofStatements_filter]

/-- Ids that are linked, declared and declared again, on lines with a comment and noise between them. -/
def scattered : Text := "B --> A\n%% A\x7bNote\x7d\nC((c)) -.-> A[First] D[d] D(e)\n? ? ?\nA[Second] -.->|x| B".toList

/-- The same lines without the two that state nothing. -/
def condensed : Text := "B --> A\nC((c)) -.-> A[First] D[d] D(e)\nA[Second] -.->|x| B".toList

/-- The graph of both: the first line links `A` and `B` only, so that they stay bare. -/
def gathered : Graph :=
  ⟨[.bare ['B'], .bare ['A'], ⟨['C'], ['c'], .circle⟩, ⟨['D'], ['d'], .rectangle⟩],
    [⟨edgeId 0 ['B'] ['A'], ['B'], ['A'], none, false⟩, ⟨edgeId 1 ['C'] ['A'], ['C'], ['A'], none, true⟩,
     ⟨edgeId 2 ['A'] ['B'], ['A'], ['B'], some ['x'], true⟩]⟩

theorem scattered_records :
    ¬ scattered.isWhiteOnly ∧ (∃ s ∈ statements scattered, s.isStated) ∧ parse scattered = .ok gathered ∧
      Records (statements scattered) gathered ∧ ¬ condensed.isWhiteOnly ∧
      (statements condensed).filter (·.isStated) = (statements scattered).filter (·.isStated) ∧
      parse condensed = parse scattered := by
  let first : Statement := .content [] (some ⟨['B'], ['A'], none, .solid⟩)
  let second : Statement :=
    .content
      [⟨['C'], ['c'], .circle⟩, ⟨['A'], "First".toList, .rectangle⟩, ⟨['D'], ['d'], .rectangle⟩,
        ⟨['D'], ['e'], .rounded⟩]
      (some ⟨['C'], ['A'], none, .dotted⟩)
  let third : Statement := .content [⟨['A'], "Second".toList, .rectangle⟩] (some ⟨['A'], ['B'], some ['x'], .dotted⟩)
  have lines : statements scattered = [first, .skip, second, .unparseable, third] := by decide +kernel
  have fewer : statements condensed = [first, second, third] := by decide +kernel
  have filled : ¬ scattered.isWhiteOnly := by decide +kernel
  have stays : ¬ condensed.isWhiteOnly := by decide +kernel
  have stated : ∃ s ∈ statements scattered, s.isStated := ⟨first, by simp [lines], rfl⟩
  have kept : (statements condensed).filter (·.isStated) = (statements scattered).filter (·.isStated) := by
    rw [lines, fewer]
    decide +kernel
  have read : parse scattered = .ok gathered :=
    parse_eq_ok.2 ⟨filled, by rw [lines]; decide +kernel, List.cons_ne_nil _ _⟩
  obtain ⟨-, makes, alike⟩ := parse_records filled
  obtain ⟨g, found, records⟩ := makes stated
  rw [read] at found
  obtain rfl := Except.ok.inj found
  exact ⟨filled, stated, read, records, stays, kept, alike condensed stays kept⟩

end Flowchart
