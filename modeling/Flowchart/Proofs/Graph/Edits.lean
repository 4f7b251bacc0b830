import Flowchart.Proofs.Graph.Reachable

/-!
What edits do. An edit is accepted just when the ids that it speaks of are there, or new
where it adds a node (`run_accepted`). It then does one thing at one place (`Outcome`): an
item is put behind the others, is taken out or is changed where it stands. All that it does
not name stays as it was and in its order, and what is new comes last (`Frame`).
-/
namespace Flowchart

/-! ### Lists whose items have ids of their own -/

section Items
variable {α : Type} {name : α → Text}

/-- The item of an id, between items of other ids. -/
theorem exists_split_at {items : List α} (distinct : (items.map name).Nodup) {id : Text}
    (present : id ∈ items.map name) :
    ∃ front a back, items = front ++ a :: back ∧ name a = id ∧ (∀ b ∈ front, name b ≠ id) ∧
      ∀ b ∈ back, name b ≠ id := by
  obtain ⟨a, member, rfl⟩ := List.mem_map.1 present
  obtain ⟨front, back, rfl⟩ := List.append_of_mem member
  rw [List.map_append, List.map_cons, List.nodup_middle, List.nodup_cons, List.mem_append, not_or] at distinct
  obtain ⟨⟨inFront, inBack⟩, -⟩ := distinct
  exact ⟨front, a, back, rfl, rfl, fun b here same => inFront (List.mem_map.2 ⟨b, here, same⟩),
    fun b here same => inBack (List.mem_map.2 ⟨b, here, same⟩)⟩

variable {front back : List α} {a : α} {id : Text} (here : name a = id) (inFront : ∀ b ∈ front, name b ≠ id)
  (inBack : ∀ b ∈ back, name b ≠ id)
include here inFront inBack

theorem map_split_at (change : α → α) :
    (front ++ a :: back).map (fun b => if name b = id then change b else b) = front ++ change a :: back := by
  have stays : ∀ {part : List α}, (∀ b ∈ part, name b ≠ id) →
      part.map (fun b => if name b = id then change b else b) = part :=
    fun apart => (List.map_congr_left fun b member => if_neg (apart b member)).trans (List.map_id _)
  rw [List.map_append, List.map_cons, stays inFront, stays inBack, if_pos here]

theorem filter_split_at : (front ++ a :: back).filter (fun b => name b ≠ id) = front ++ back := by
  have stays : ∀ {part : List α}, (∀ b ∈ part, name b ≠ id) → part.filter (fun b => name b ≠ id) = part :=
    fun apart => List.filter_eq_self.2 (by simpa using apart)
  rw [List.filter_append, List.filter_cons_of_neg (by simpa using here), stays inFront, stays inBack]

omit inBack in
theorem eraseP_split_at : (front ++ a :: back).eraseP (fun b => name b = id) = front ++ back := by
  rw [List.eraseP_append_right _ (by simpa using inFront), List.eraseP_cons_of_pos (by simpa using here)]

end Items

/-- Where ids are distinct, taking out the first item of an id leaves none of it. -/
theorem eraseP_eq_filter {α : Type} {name : α → Text} {items : List α} (distinct : (items.map name).Nodup) (id : Text) :
    items.eraseP (fun b => name b = id) = items.filter (fun b => name b ≠ id) := by
  by_cases present : id ∈ items.map name
  · obtain ⟨front, a, back, rfl, here, inFront, inBack⟩ := exists_split_at distinct present
    rw [eraseP_split_at here inFront, filter_split_at here inFront inBack]
  · have apart : ∀ b ∈ items, name b ≠ id := fun b member same => present (List.mem_map.2 ⟨b, member, same⟩)
    rw [List.eraseP_of_forall_not (by simpa using apart), List.filter_eq_self.2 (by simpa using apart)]

/-! ### Lists that an edit leaves behind -/

section Carrying
variable {α : Type} {name : α → Text} {named : Text → Bool} {removed : α → Bool}

/-- The second list holds what of the first is not removed, in its order and under its ids, and behind that what is new;
    what is not named is the same. -/
def Carried (name : α → Text) (named : Text → Bool) (removed : α → Bool) (before after : List α) : Prop :=
  ∃ kept new, after = kept ++ new ∧
    List.Forall₂ (fun a b => name b = name a ∧ (named (name a) = false → b = a)) (before.filter (!removed ·)) kept ∧
    ∀ b ∈ new, name b ∉ before.map name

/-- A change to what stays, and something new behind it. -/
theorem carried_of_eq {before after : List α} (change : α → α) (new : List α)
    (made : after = (before.filter (!removed ·)).map change ++ new) (keepsName : ∀ a, name (change a) = name a)
    (keepsOther : ∀ a, named (name a) = false → change a = a) (fresh : ∀ b ∈ new, name b ∉ before.map name) :
    Carried name named removed before after := by
  refine ⟨_, new, made, ?_, fresh⟩
  rw [List.forall₂_map_right_iff, List.forall₂_same]
  exact fun a _ => ⟨keepsName a, keepsOther a⟩

/-- What is removed is gone, and nothing else. -/
theorem carried_filter (items : List α) : Carried name named removed items (items.filter (!removed ·)) :=
  carried_of_eq id [] (by simp) (fun _ => rfl) (fun _ _ => rfl) (by simp)

variable {items : List α} (stays : ∀ a, removed a = false)
include stays

/-- What is neither changed nor added to. -/
theorem carried_same : Carried name named removed items items :=
  carried_of_eq id [] (by simp [stays]) (fun _ => rfl) (fun _ _ => rfl) (by simp)

/-- Something new behind all others. -/
theorem carried_concat {a : α} (fresh : name a ∉ items.map name) : Carried name named removed items (items ++ [a]) :=
  carried_of_eq id [a] (by simp [stays]) (fun _ => rfl) (fun _ _ => rfl) (by simpa using fresh)

/-- A change to the item of an id that is named; the id stays. -/
theorem carried_map {id : Text} (change : α → α) (keepsName : ∀ a, name (change a) = name a) (about : named id = true) :
    Carried name named removed items (items.map fun a => if name a = id then change a else a) := by
  refine carried_of_eq (fun a => if name a = id then change a else a) [] (by simp [stays]) ?_ ?_ (by simp)
  · intro a
    split
    · exact keepsName a
    · rfl
  · intro a other
    refine if_neg ?_
    rintro rfl
    rw [about] at other
    cases other

end Carrying

namespace Edit

/-! ### What an edit is about -/

/-- What the edit asks of the graph. -/
def Permitted (g : Graph) : Edit → Prop
  | .addNode n => isId n.id ∧ n.id ∉ g.nodes.map (·.id)
  | .eraseNode id | .setLabel id _ | .setShape id _ => id ∈ g.nodes.map (·.id)
  | .addEdge source target _ => source ∈ g.nodes.map (·.id) ∧ target ∈ g.nodes.map (·.id)
  | .eraseEdge id | .setEdgeLabel id _ | .setAnimated id _ => id ∈ g.edges.map (·.id)
  | .setEnds id source target =>
    id ∈ g.edges.map (·.id) ∧ source ∈ g.nodes.map (·.id) ∧ target ∈ g.nodes.map (·.id)

/-- The edit is about the node of the id. -/
def namesNode : Edit → Text → Bool
  | .addNode n, other => n.id = other
  | .eraseNode id, other | .setLabel id _, other | .setShape id _, other => id = other
  | _, _ => false

/-- The edit is about the edge of the id. -/
def namesEdge : Edit → Text → Bool
  | .eraseEdge id, other | .setEdgeLabel id _, other | .setEnds id _ _, other | .setAnimated id _, other => id = other
  | _, _ => false

/-- The node that the edit takes out. -/
def removesNode : Edit → Node → Bool
  | .eraseNode id, n => n.id = id
  | _, _ => false

/-- The edges that the edit takes out: the one of its id, or all that touch its node. -/
def removesEdge : Edit → Edge → Bool
  | .eraseNode id, e => e.source = id || e.target = id
  | .eraseEdge id, e => e.id = id
  | _, _ => false

/-- What the edit makes of the graph. -/
def Outcome (g h : Graph) : Edit → Prop
  | .addNode n => h = { g with nodes := g.nodes ++ [n] }
  | .eraseNode id => ∃ front n back, g.nodes = front ++ n :: back ∧ n.id = id ∧
      h = ⟨front ++ back, g.edges.filter fun e => e.source ≠ id ∧ e.target ≠ id⟩
  | .setLabel id label => ∃ front n back, g.nodes = front ++ n :: back ∧ n.id = id ∧
      h = { g with nodes := front ++ { n with label } :: back }
  | .setShape id shape => ∃ front n back, g.nodes = front ++ n :: back ∧ n.id = id ∧
      h = { g with nodes := front ++ { n with shape } :: back }
  | .addEdge source target label => ∃ id, id ≠ [] ∧ id ∉ g.edges.map (·.id) ∧
      h = { g with edges := g.edges ++ [⟨id, source, target, label, false⟩] }
  | .eraseEdge id => ∃ front e back, g.edges = front ++ e :: back ∧ e.id = id ∧ h = { g with edges := front ++ back }
  | .setEdgeLabel id label => ∃ front e back, g.edges = front ++ e :: back ∧ e.id = id ∧
      h = { g with edges := front ++ { e with label := label.filter (!·.isEmpty) } :: back }
  | .setEnds id source target => ∃ front e back, g.edges = front ++ e :: back ∧ e.id = id ∧
      h = { g with edges := front ++ { e with source, target } :: back }
  | .setAnimated id animated => ∃ front e back, g.edges = front ++ e :: back ∧ e.id = id ∧
      h = { g with edges := front ++ { e with animated } :: back }

/-- What the edit leaves as it was. -/
structure Frame (edit : Edit) (g h : Graph) : Prop where
  nodes : Carried (·.id) edit.namesNode edit.removesNode g.nodes h.nodes
  edges : Carried (·.id) edit.namesEdge edit.removesEdge g.edges h.edges

end Edit

namespace Graph
open Edit

/-! ### When an edit is accepted -/

theorem run_eraseNode_eq_ok {g h : Graph} {id : Text} :
    (Edit.eraseNode id).run g = .ok h ↔ id ∈ g.nodes.map (·.id) ∧
      h = { nodes := g.nodes.filter (·.id ≠ id), edges := g.edges.filter (!·.touches id) } := by
  simp only [Edit.run, map_snd_eq_ok, eraseNode_eq_ok, exists_and_right]
  rw [← Option.isSome_iff_exists, node?_isSome, hasNode_iff]

theorem run_eraseEdge_eq_ok {g h : Graph} {id : Text} :
    (Edit.eraseEdge id).run g = .ok h ↔
      id ∈ g.edges.map (·.id) ∧ h = { g with edges := g.edges.eraseP (·.id = id) } := by
  simp only [Edit.run, map_snd_eq_ok, eraseEdge_eq_ok, exists_and_right]
  rw [← Option.isSome_iff_exists, edge?_isSome, hasEdge_iff]

/-- An edit is accepted just when the graph has what the edit asks of it. -/
theorem run_accepted (g : Graph) (edit : Edit) : (∃ h, edit.run g = .ok h) ↔ edit.Permitted g := by
  cases edit with
  | addNode n => simp [Edit.run, addNode_eq_ok, Permitted, hasNode_iff]
  | eraseNode id => simp [run_eraseNode_eq_ok, Permitted]
  | setLabel id label => simp [Edit.run, setLabel_eq_ok, Permitted, hasNode_iff]
  | setShape id shape => simp [Edit.run, setShape_eq_ok, Permitted, hasNode_iff]
  | addEdge source target label => simp [Edit.run, map_snd_eq_ok, addEdge_eq_ok, Permitted, hasNode_iff]
  | eraseEdge id => simp [run_eraseEdge_eq_ok, Permitted]
  | setEdgeLabel id label => simp [Edit.run, setEdgeLabel_eq_ok, Permitted, hasEdge_iff]
  | setEnds id source target => simp [Edit.run, setEnds_eq_ok, Permitted, hasEdge_iff, hasNode_iff]
  | setAnimated id animated => simp [Edit.run, setAnimated_eq_ok, Permitted, hasEdge_iff]

/-! ### What it does -/

/-- Changing the node of an id changes it where it stands. -/
theorem changeNode_split {g : Graph} (good : g.WellFormed) {id : Text} (present : g.hasNode id) (change : Node → Node) :
    ∃ front n back, g.nodes = front ++ n :: back ∧ n.id = id ∧
      g.changeNode id change = { g with nodes := front ++ change n :: back } := by
  obtain ⟨front, n, back, split, here, inFront, inBack⟩ := exists_split_at good.nodes_nodup (hasNode_iff.1 present)
  refine ⟨front, n, back, split, here, ?_⟩
  rw [changeNode, split, map_split_at here inFront inBack]

/-- Changing the edge of an id changes it where it stands. -/
theorem changeEdge_split {g : Graph} (good : g.WellFormed) {id : Text} (present : g.hasEdge id) (change : Edge → Edge) :
    ∃ front e back, g.edges = front ++ e :: back ∧ e.id = id ∧
      g.changeEdge id change = { g with edges := front ++ change e :: back } := by
  obtain ⟨front, e, back, split, here, inFront, inBack⟩ := exists_split_at good.edges_nodup (hasEdge_iff.1 present)
  refine ⟨front, e, back, split, here, ?_⟩
  rw [changeEdge, split, map_split_at here inFront inBack]

/-- An edge is untouched when neither end of it is the node. -/
theorem not_touches (e : Edge) (id : Text) : (!e.touches id) = decide (e.source ≠ id ∧ e.target ≠ id) := by
  simp [Edge.touches]

/-- An accepted edit does what it says, at one place. -/
theorem run_outcome {g h : Graph} {edit : Edit} (good : g.WellFormed) (done : edit.run g = .ok h) :
    edit.Outcome g h := by
  -- Ids are distinct: what is found by an id stands at one place, and the list splits there.
  cases edit with
  | addNode n => exact (addNode_eq_ok.1 done).2.2
  | eraseNode id =>
    obtain ⟨present, rfl⟩ := run_eraseNode_eq_ok.1 done
    obtain ⟨front, n, back, split, here, inFront, inBack⟩ := exists_split_at good.nodes_nodup present
    refine ⟨front, n, back, split, here, ?_⟩
    rw [split, filter_split_at here inFront inBack]
    simp only [not_touches]
  | setLabel id label =>
    obtain ⟨present, rfl⟩ := setLabel_eq_ok.1 done
    exact changeNode_split good present _
  | setShape id shape =>
    obtain ⟨present, rfl⟩ := setShape_eq_ok.1 done
    exact changeNode_split good present _
  | addEdge source target label =>
    obtain ⟨e, added⟩ := map_snd_eq_ok.1 done
    obtain ⟨-, -, rfl, rfl⟩ := addEdge_eq_ok.1 added
    exact ⟨_, freshEdgeId_ne_nil _ _ _, freshEdgeId_not_mem _ _ _, rfl⟩
  | eraseEdge id =>
    obtain ⟨present, rfl⟩ := run_eraseEdge_eq_ok.1 done
    obtain ⟨front, e, back, split, here, inFront, -⟩ := exists_split_at good.edges_nodup present
    refine ⟨front, e, back, split, here, ?_⟩
    rw [split, eraseP_split_at here inFront]
  | setEdgeLabel id label =>
    obtain ⟨present, rfl⟩ := setEdgeLabel_eq_ok.1 done
    exact changeEdge_split good present _
  | setEnds id source target =>
    obtain ⟨present, -, -, rfl⟩ := setEnds_eq_ok.1 done
    exact changeEdge_split good present _
  | setAnimated id animated =>
    obtain ⟨present, rfl⟩ := setAnimated_eq_ok.1 done
    exact changeEdge_split good present _

/-! ### What it leaves -/

/-- An accepted edit leaves all that it does not name as it was. -/
theorem run_frame {g h : Graph} {edit : Edit} (good : g.WellFormed) (done : edit.run g = .ok h) : edit.Frame g h := by
  cases edit with
  | addNode n =>
    obtain ⟨-, absent, rfl⟩ := addNode_eq_ok.1 done
    exact ⟨carried_concat (fun _ => rfl) fun old => absent (hasNode_iff.2 old), carried_same fun _ => rfl⟩
  | eraseNode id =>
    obtain ⟨-, rfl⟩ := run_eraseNode_eq_ok.1 done
    have others : g.nodes.filter (·.id ≠ id) = g.nodes.filter (!(Edit.eraseNode id).removesNode ·) := by
      simp [removesNode]
    exact ⟨others ▸ carried_filter g.nodes, carried_filter g.edges⟩
  | setLabel id label =>
    obtain ⟨-, rfl⟩ := setLabel_eq_ok.1 done
    exact ⟨carried_map (fun _ => rfl) _ (fun _ => rfl) (by simp [namesNode]), carried_same fun _ => rfl⟩
  | setShape id shape =>
    obtain ⟨-, rfl⟩ := setShape_eq_ok.1 done
    exact ⟨carried_map (fun _ => rfl) _ (fun _ => rfl) (by simp [namesNode]), carried_same fun _ => rfl⟩
  | addEdge source target label =>
    obtain ⟨e, added⟩ := map_snd_eq_ok.1 done
    obtain ⟨-, -, rfl, rfl⟩ := addEdge_eq_ok.1 added
    exact ⟨carried_same fun _ => rfl, carried_concat (fun _ => rfl) (freshEdgeId_not_mem _ _ _)⟩
  | eraseEdge id =>
    obtain ⟨-, rfl⟩ := run_eraseEdge_eq_ok.1 done
    have others : g.edges.eraseP (·.id = id) = g.edges.filter (!(Edit.eraseEdge id).removesEdge ·) := by
      rw [eraseP_eq_filter good.edges_nodup]
      simp [removesEdge]
    exact ⟨carried_same fun _ => rfl, others ▸ carried_filter g.edges⟩
  | setEdgeLabel id label =>
    obtain ⟨-, rfl⟩ := setEdgeLabel_eq_ok.1 done
    exact ⟨carried_same fun _ => rfl, carried_map (fun _ => rfl) _ (fun _ => rfl) (by simp [namesEdge])⟩
  | setEnds id source target =>
    obtain ⟨-, -, -, rfl⟩ := setEnds_eq_ok.1 done
    exact ⟨carried_same fun _ => rfl, carried_map (fun _ => rfl) _ (fun _ => rfl) (by simp [namesEdge])⟩
  | setAnimated id animated =>
    obtain ⟨-, rfl⟩ := setAnimated_eq_ok.1 done
    exact ⟨carried_same fun _ => rfl, carried_map (fun _ => rfl) _ (fun _ => rfl) (by simp [namesEdge])⟩

/-- An edit is accepted just when the graph has what the edit asks of it. Then it does what it says at one place,
    and leaves all that it does not name as it was. -/
theorem run_local {g : Graph} (reachable : Reachable g) (edit : Edit) :
    ((∃ h, edit.run g = .ok h) ↔ edit.Permitted g) ∧
      ∀ h, edit.run g = .ok h → edit.Outcome g h ∧ edit.Frame g h :=
  ⟨run_accepted g edit, fun _ done => ⟨run_outcome reachable.wellFormed done, run_frame reachable.wellFormed done⟩⟩

/-- A node with a loop and two edges to one other node, between edges that do not touch it. -/
def looped : Graph :=
  ⟨[.bare ['B'], ⟨['A'], ['a'], .circle⟩, .bare ['C']],
    [⟨['x'], ['B'], ['C'], some ['1'], true⟩, ⟨['l'], ['A'], ['A'], none, false⟩,
     ⟨['y'], ['A'], ['B'], none, false⟩, ⟨['z'], ['A'], ['B'], none, true⟩, ⟨['w'], ['C'], ['B'], some [], false⟩]⟩

theorem looped_local :
    Reachable looped ∧ (Edit.eraseNode ['A']).Permitted looped ∧ ¬ (Edit.setEnds ['l'] ['A'] ['D']).Permitted looped ∧
      ∃ h, (Edit.eraseNode ['A']).run looped = .ok h ∧ (Edit.eraseNode ['A']).Outcome looped h ∧
        (Edit.eraseNode ['A']).Frame looped h ∧ h.nodes = [.bare ['B'], .bare ['C']] ∧
        h.edges = [⟨['x'], ['B'], ['C'], some ['1'], true⟩, ⟨['w'], ['C'], ['B'], some [], false⟩] := by
  have made : ofParts looped.nodes looped.edges = .ok looped := by decide +kernel
  have reachable : Reachable looped := .built (.parts made)
  have permitted : (Edit.eraseNode ['A']).Permitted looped := by simp [Permitted, looped]
  have refused : ¬ (Edit.setEnds ['l'] ['A'] ['D']).Permitted looped := by simp [Permitted, looped, Node.bare]
  obtain ⟨h, done⟩ := (run_local reachable (.eraseNode ['A'])).1.2 permitted
  obtain ⟨outcome, frame⟩ := (run_local reachable (.eraseNode ['A'])).2 h done
  obtain rfl := Except.ok.inj done
  exact ⟨reachable, permitted, refused, _, rfl, outcome, frame, rfl, rfl⟩

end Graph
end Flowchart
