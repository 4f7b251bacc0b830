import Mathlib.Data.List.Nodup
import Mathlib.Data.List.Perm.Subperm
import Mathlib.Order.Bounds.Defs
import Mathlib.Tactic.Common
import Flowchart.Graph.Edit

/-!
The nodes and edges of a graph, and what each operation does to them. Nodes enter by `insertNode` and `mention`, the
first of each id (`insertNodes_nodes`), edges by `append`; an edge that joins two ids gets a name that is still free
(`freshEdgeId_free`). Every edit has one lemma that says when it is accepted and which graph it gives then
(`addNode_eq_ok` and those that follow it).
-/
namespace Flowchart
open Text

namespace Graph

/-! ### Looking up -/

theorem hasNode_iff {g : Graph} {id : Text} : g.hasNode id ↔ id ∈ g.nodes.map (·.id) := by
  simp [hasNode]

theorem hasNode_iff_exists {g : Graph} {id : Text} : g.hasNode id ↔ ∃ n ∈ g.nodes, n.id = id := by
  simp [hasNode]

theorem node?_id {g : Graph} {id : Text} {n : Node} (found : g.node? id = some n) : n.id = id := by
  simpa using List.find?_some found

theorem node?_mem {g : Graph} {id : Text} {n : Node} (found : g.node? id = some n) : n ∈ g.nodes :=
  List.mem_of_find?_eq_some found

theorem node?_isSome {g : Graph} {id : Text} : (g.node? id).isSome ↔ g.hasNode id := by
  simp [node?, hasNode]

theorem hasEdge_iff {g : Graph} {id : Text} : g.hasEdge id ↔ id ∈ g.edges.map (·.id) := by
  simp [hasEdge]

theorem edge?_isSome {g : Graph} {id : Text} : (g.edge? id).isSome ↔ g.hasEdge id := by
  simp [edge?, hasEdge]

/-- An id is looked up in a list of nodes that all have ids of their own. -/
theorem node?_eq_some {g : Graph} (distinct : (g.nodes.map (·.id)).Nodup) {id : Text} {n : Node} :
    g.node? id = some n ↔ n ∈ g.nodes ∧ n.id = id := by
  constructor
  · intro found
    exact ⟨node?_mem found, node?_id found⟩
  · rintro ⟨member, rfl⟩
    obtain ⟨m, found⟩ := Option.isSome_iff_exists.1 (node?_isSome.2 (hasNode_iff_exists.2 ⟨n, member, rfl⟩))
    have same : m = n := List.inj_on_of_nodup_map distinct (node?_mem found) member (node?_id found)
    rw [found, same]

/-! ### Growing -/

theorem insertNode_present {g : Graph} {n : Node} (present : g.hasNode n.id) : g.insertNode n = g := by
  simp [insertNode, present]

theorem insertNode_absent {g : Graph} {n : Node} (absent : ¬ g.hasNode n.id) :
    g.insertNode n = { g with nodes := g.nodes ++ [n] } := by
  simp [insertNode, absent]

@[simp] theorem insertNode_edges (g : Graph) (n : Node) : (g.insertNode n).edges = g.edges := by
  unfold insertNode
  split <;> rfl

theorem insertNode_hasNode {g : Graph} {n : Node} {id : Text} :
    (g.insertNode n).hasNode id ↔ g.hasNode id ∨ n.id = id := by
  by_cases present : g.hasNode n.id
  · rw [insertNode_present present]
    constructor
    · exact .inl
    · rintro (before | rfl)
      · exact before
      · exact present
  · simp [insertNode_absent present, hasNode]

theorem mention_hasNode {g : Graph} {id other : Text} :
    (g.mention id).hasNode other ↔ g.hasNode other ∨ id = other := insertNode_hasNode

theorem mention_present {g : Graph} {id : Text} (present : g.hasNode id) : g.mention id = g :=
  insertNode_present present

theorem insertNodes_edges (ns : List Node) (g : Graph) : (ns.foldl insertNode g).edges = g.edges := by
  induction ns generalizing g with
  | nil => rfl
  | cons n rest ih => rw [List.foldl_cons, ih, insertNode_edges]

/-- The first node of each id, in their order. -/
def firstOfEach : List Node → List Node
  | [] => []
  | n :: rest => n :: (firstOfEach rest).filter (·.id ≠ n.id)

theorem firstOfEach_ids {ns : List Node} {id : Text} : id ∈ (firstOfEach ns).map (·.id) ↔ id ∈ ns.map (·.id) := by
  induction ns with
  | nil => rfl
  | cons n rest ih =>
    by_cases same : n.id = id
    · simp [firstOfEach, same]
    · simp only [List.mem_map] at ih
      simp only [firstOfEach, List.map_cons, List.mem_cons, Ne.symm same, false_or, List.mem_map, List.mem_filter,
        decide_eq_true_eq, ← ih]
      constructor
      · rintro ⟨m, ⟨member, -⟩, named⟩
        exact ⟨m, member, named⟩
      · rintro ⟨m, member, rfl⟩
        exact ⟨m, ⟨member, Ne.symm same⟩, rfl⟩

/-- Nodes that all have ids of their own are the first of each. -/
theorem firstOfEach_nodup {ns : List Node} (distinct : (ns.map (·.id)).Nodup) : firstOfEach ns = ns := by
  induction ns with
  | nil => rfl
  | cons n rest ih =>
    obtain ⟨apart, others⟩ := List.nodup_cons.1 distinct
    rw [firstOfEach, ih others, List.filter_eq_self.2]
    intro m member
    simpa using fun same => apart (List.mem_map.2 ⟨m, member, same⟩)

/-- Of several nodes the first of each id enters, if the id is new. -/
theorem insertNodes_nodes (ns : List Node) (g : Graph) :
    (ns.foldl insertNode g).nodes = g.nodes ++ (firstOfEach ns).filter (·.id ∉ g.nodes.map (·.id)) := by
  induction ns generalizing g with
  | nil => simp [firstOfEach]
  | cons n rest ih =>
    rw [List.foldl_cons, ih, firstOfEach]
    -- A node that is there already keeps the later ones of its id out, and so does one that has just entered.
    by_cases present : g.hasNode n.id
    · have old : n.id ∈ g.nodes.map (·.id) := hasNode_iff.1 present
      rw [insertNode_present present, List.filter_cons_of_neg (by simpa using old), List.filter_filter]
      congr 1
      apply List.filter_congr
      intro m _
      by_cases same : m.id = n.id
      · simp [same, old]
      · simp [same]
    · have new : n.id ∉ g.nodes.map (·.id) := fun old => present (hasNode_iff.2 old)
      rw [insertNode_absent present, List.filter_cons_of_pos (by simpa using new), List.filter_filter,
        List.append_assoc, List.singleton_append]
      congr 2
      apply List.filter_congr
      intro m _
      simp [not_or]

/-- Nodes with new ids of their own all enter, in their order. -/
theorem insertNodes_fresh {ns : List Node} (distinct : (ns.map (·.id)).Nodup) {g : Graph}
    (fresh : ∀ n ∈ ns, ¬ g.hasNode n.id) : ns.foldl insertNode g = { g with nodes := g.nodes ++ ns } := by
  have new : ns.filter (·.id ∉ g.nodes.map (·.id)) = ns :=
    List.filter_eq_self.2 fun n member => by simpa [hasNode_iff] using fresh n member
  have nodes : (ns.foldl insertNode g).nodes = g.nodes ++ ns := by
    rw [insertNodes_nodes, firstOfEach_nodup distinct, new]
  exact congrArg₂ Graph.mk nodes (insertNodes_edges ns g)

@[simp] theorem append_edges (g : Graph) (e : Edge) : (g.append e).edges = g.edges ++ [e] := rfl

/-! ### Fresh edge ids -/

/-- The number can be told from a generated id: its digits end at the first dash. -/
theorem edgeId_inj {i j : Nat} {source target source' target' : Text}
    (same : edgeId i source target = edgeId j source' target') : i = j := by
  have digits : ∀ (n : Nat) (t : Text), (Text.ofNat n ++ '-' :: t).takeWhile Char.isDigit = Text.ofNat n := by
    intro n t
    have run : ∀ c ∈ Text.ofNat n, c.isDigit :=
      fun c member => Nat.isDigit_of_mem_toDigits (by decide) (by decide) member
    rw [List.takeWhile_append_of_pos run, List.takeWhile_cons_of_neg (by decide), List.append_nil]
  have behind : Text.ofNat i ++ '-' :: (source ++ '-' :: target) =
      Text.ofNat j ++ '-' :: (source' ++ '-' :: target') := by
    simpa [edgeId] using same
  have written : Text.ofNat i = Text.ofNat j := by rw [← digits i, behind, digits]
  rw [← Nat.ofDigitChars_ten_toDigits (n := i), show Nat.toDigits 10 i = Nat.toDigits 10 j from written,
    Nat.ofDigitChars_ten_toDigits]

theorem edgeId_ne_nil (i : Nat) (source target : Text) : edgeId i source target ≠ [] := by simp [edgeId]

/-- Fewer edges than numbers leave one number free. -/
theorem exists_free_number (edges : List Edge) (source target : Text) (first : Nat) :
    ∃ i ∈ List.range' first (edges.length + 1), edgeId i source target ∉ edges.map (·.id) := by
  -- One more id than there are edges, all different: they cannot all be taken.
  by_contra none
  push Not at none
  let candidates := (List.range' first (edges.length + 1)).map fun i => edgeId i source target
  have distinct : candidates.Nodup :=
    (List.nodup_range' (s := first) (n := edges.length + 1)).map fun _ _ same => edgeId_inj same
  have taken : candidates ⊆ edges.map (·.id) := by
    intro id member
    obtain ⟨i, inside, rfl⟩ := List.mem_map.1 member
    exact none i inside
  have count := (List.subperm_of_subset distinct taken).length_le
  simp only [candidates, List.length_map, List.length_range'] at count
  omega

/-- A fresh edge id has the least number, from the count of edges on, that makes an
    id no edge has. It is not far behind. -/
theorem freshEdgeId_first (edges : List Edge) (source target : Text) :
    ∃ i ∈ List.range' edges.length (edges.length + 1), freshEdgeId edges source target = edgeId i source target ∧
      IsLeast {n | edges.length ≤ n ∧ edgeId n source target ∉ edges.map (·.id)} i := by
  obtain ⟨i, inside, free⟩ := exists_free_number edges source target edges.length
  let isFree := fun number => !edges.any (·.id = edgeId number source target)
  have isFree_iff : ∀ n, isFree n = true ↔ edgeId n source target ∉ edges.map (·.id) := by simp [isFree]
  have hit : ((List.range' edges.length (edges.length + 1)).find? isFree).isSome := by
    rw [List.find?_isSome]
    exact ⟨i, inside, (isFree_iff i).2 free⟩
  obtain ⟨j, found⟩ := Option.isSome_iff_exists.1 hit
  obtain ⟨unused, near, before⟩ := List.find?_range'_eq_some.1 found
  refine ⟨j, near, ?_, ⟨(List.mem_range'_1.1 near).1, (isFree_iff j).1 unused⟩, ?_⟩
  · simp only [freshEdgeId]
    rw [show List.find? _ _ = some j from found]
    rfl
  · rintro n ⟨behind, other⟩
    by_contra smaller
    have taken := before n behind (Nat.lt_of_not_le smaller)
    rw [(isFree_iff n).2 other] at taken
    cases taken

/-- A fresh edge id is a generated one that no edge has, with a number not far behind the count of edges. -/
theorem freshEdgeId_free (edges : List Edge) (source target : Text) :
    ∃ i ∈ List.range' edges.length (edges.length + 1), freshEdgeId edges source target = edgeId i source target ∧
      edgeId i source target ∉ edges.map (·.id) := by
  obtain ⟨i, near, same, least⟩ := freshEdgeId_first edges source target
  exact ⟨i, near, same, least.1.2⟩

theorem freshEdgeId_not_mem (edges : List Edge) (source target : Text) :
    freshEdgeId edges source target ∉ edges.map (·.id) := by
  obtain ⟨i, -, same, free⟩ := freshEdgeId_free edges source target
  rwa [same]

theorem freshEdgeId_ne_nil (edges : List Edge) (source target : Text) :
    freshEdgeId edges source target ≠ [] := edgeId_ne_nil _ _ _

/-! ### Edits -/

/-- A run of two parts succeeds when both do. -/
theorem bind_eq_ok {ε α β : Type} {first : Except ε α} {next : α → Except ε β} {b : β} :
    (first >>= next) = .ok b ↔ ∃ a, first = .ok a ∧ next a = .ok b := by
  cases first <;> simp [bind, Except.bind]

theorem pure_eq_ok {ε α : Type} {a b : α} : (pure a : Except ε α) = .ok b ↔ b = a := by
  simp [pure, Except.pure, eq_comm]

theorem findNode_eq_ok {g : Graph} {id : Text} {n : Node} : g.findNode id = .ok n ↔ g.node? id = some n := by
  unfold findNode
  cases g.node? id <;> simp

theorem findEdge_eq_ok {g : Graph} {id : Text} {e : Edge} : g.findEdge id = .ok e ↔ g.edge? id = some e := by
  unfold findEdge
  cases g.edge? id <;> simp

theorem exists_findNode {g : Graph} {id : Text} {P : Prop} :
    (∃ n, g.findNode id = .ok n ∧ P) ↔ g.hasNode id ∧ P := by
  simp only [findNode_eq_ok, exists_and_right, ← Option.isSome_iff_exists, node?_isSome]

theorem exists_findEdge {g : Graph} {id : Text} {P : Prop} :
    (∃ e, g.findEdge id = .ok e ∧ P) ↔ g.hasEdge id ∧ P := by
  simp only [findEdge_eq_ok, exists_and_right, ← Option.isSome_iff_exists, edge?_isSome]

theorem addNode_eq_ok {g h : Graph} {n : Node} :
    g.addNode n = .ok h ↔ isId n.id ∧ ¬ g.hasNode n.id ∧ h = { g with nodes := g.nodes ++ [n] } := by
  unfold addNode
  by_cases valid : isId n.id
  · by_cases present : g.hasNode n.id
    · simp [valid, present]
    · simp [valid, present, eq_comm]
  · simp [valid]

theorem eraseNode_eq_ok {g h : Graph} {id : Text} {n : Node} :
    g.eraseNode id = .ok (n, h) ↔ g.node? id = some n ∧
      h = { nodes := g.nodes.filter (·.id ≠ id), edges := g.edges.filter (!·.touches id) } := by
  unfold eraseNode
  rw [bind_eq_ok]
  simp only [findNode_eq_ok, pure_eq_ok, Prod.mk.injEq]
  constructor
  · rintro ⟨m, found, rfl, rfl⟩
    exact ⟨found, rfl⟩
  · rintro ⟨found, rfl⟩
    exact ⟨n, found, rfl, rfl⟩

theorem setLabel_eq_ok {g h : Graph} {id label : Text} :
    g.setLabel id label = .ok h ↔ g.hasNode id ∧ h = g.changeNode id ({ · with label }) := by
  unfold setLabel
  simp only [bind_eq_ok, exists_findNode, pure_eq_ok]

theorem setShape_eq_ok {g h : Graph} {id : Text} {shape : Shape} :
    g.setShape id shape = .ok h ↔ g.hasNode id ∧ h = g.changeNode id ({ · with shape }) := by
  unfold setShape
  simp only [bind_eq_ok, exists_findNode, pure_eq_ok]

theorem addEdge_eq_ok {g h : Graph} {source target : Text} {label : Option Text} {e : Edge} :
    g.addEdge source target label = .ok (e, h) ↔ g.hasNode source ∧ g.hasNode target ∧
      e = g.freshEdge source target label false ∧ h = g.append e := by
  unfold addEdge
  simp only [bind_eq_ok, exists_findNode, pure_eq_ok, Prod.mk.injEq]
  constructor
  · rintro ⟨sourcePresent, targetPresent, rfl, rfl⟩
    exact ⟨sourcePresent, targetPresent, rfl, rfl⟩
  · rintro ⟨sourcePresent, targetPresent, rfl, rfl⟩
    exact ⟨sourcePresent, targetPresent, rfl, rfl⟩

theorem eraseEdge_eq_ok {g h : Graph} {id : Text} {e : Edge} :
    g.eraseEdge id = .ok (e, h) ↔ g.edge? id = some e ∧ h = { g with edges := g.edges.eraseP (·.id = id) } := by
  unfold eraseEdge
  simp only [bind_eq_ok, findEdge_eq_ok, pure_eq_ok, Prod.mk.injEq]
  constructor
  · rintro ⟨f, found, rfl, rfl⟩
    exact ⟨found, rfl⟩
  · rintro ⟨found, rfl⟩
    exact ⟨e, found, rfl, rfl⟩

theorem setEdgeLabel_eq_ok {g h : Graph} {id : Text} {label : Option Text} :
    g.setEdgeLabel id label = .ok h ↔
      g.hasEdge id ∧ h = g.changeEdge id ({ · with label := label.filter (!·.isEmpty) }) := by
  unfold setEdgeLabel
  simp only [bind_eq_ok, exists_findEdge, pure_eq_ok]

theorem setEnds_eq_ok {g h : Graph} {id source target : Text} :
    g.setEnds id source target = .ok h ↔ g.hasEdge id ∧ g.hasNode source ∧ g.hasNode target ∧
      h = g.changeEdge id ({ · with source, target }) := by
  unfold setEnds
  simp only [bind_eq_ok, exists_findEdge, exists_findNode, pure_eq_ok]

theorem setAnimated_eq_ok {g h : Graph} {id : Text} {animated : Bool} :
    g.setAnimated id animated = .ok h ↔ g.hasEdge id ∧ h = g.changeEdge id ({ · with animated }) := by
  unfold setAnimated
  simp only [bind_eq_ok, exists_findEdge, pure_eq_ok]

end Graph
end Flowchart
