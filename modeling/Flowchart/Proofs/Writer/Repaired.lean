import Flowchart.Proofs.Repair.Meaning
import Flowchart.Proofs.Writer.RoundTrip
import Flowchart.Proofs.Writer.Settled

/-!
A written graph is read as before when its text is repaired first (`parse_repair_toText`).
What holds of the header and of the line of each edge and node holds of all rows of the
text (`forall_rows_toText`): no row has an aside to move, and none has a fence unless a
label has one. And written labels without two spaces side by side have no run of blanks.
-/
namespace Flowchart
open Text Line

namespace Writer
open Repair

/-- The text holds no two spaces side by side and no fence. -/
structure Tidy (t : Text) : Prop where
  single : ¬ [' ', ' '] <:+: t
  fenceless : ¬ fence <:+: t

theorem tidy_iff {t : Text} : Tidy t ↔ ((cut [' ', ' '] t).isNone && (cut fence t).isNone) := by
  have absent : ∀ mark, ¬ mark <:+: t ↔ (cut mark t).isNone := by
    intro mark
    rw [← cut_isSome_iff]
    simp
  rw [Bool.and_eq_true, ← absent, ← absent]
  exact ⟨fun tidy => ⟨tidy.single, tidy.fenceless⟩, fun both => ⟨both.1, both.2⟩⟩

instance (t : Text) : Decidable (Tidy t) := decidable_of_iff _ tidy_iff.symm

end Writer

/-- The labels of the graph have a property as they are written. -/
structure Graph.EachWritten (P : Text → Prop) (g : Graph) : Prop where
  nodes : ∀ n ∈ g.nodes, P (Writer.labelText n.label)
  links : ∀ e ∈ g.edges, ∀ label ∈ e.label, P (Writer.linkText label)

theorem Graph.EachWritten.mono {P Q : Text → Prop} {g : Graph} (each : g.EachWritten P) (weaker : ∀ t, P t → Q t) :
    g.EachWritten Q :=
  ⟨fun n member => weaker _ (each.nodes n member),
    fun e member label inside => weaker _ (each.links e member label inside)⟩

namespace Writer
open Repair

/-! ### The rows of a written graph -/

/-- What holds of a line and of the rows behind it holds of all rows. -/
theorem forall_rows_cons {P : Text → Prop} {line t : Text} (single : '\n' ∉ line) (here : P line)
    (behind : ∀ row ∈ rows t, P row) : ∀ row ∈ rows (line ++ '\n' :: t), P row := by
  rw [rows_append_newline, rows_of_no_newline single]
  exact List.forall_mem_cons.2 ⟨here, behind⟩

theorem indent_no_newline {t : Text} (single : '\n' ∉ t) : '\n' ∉ indent ++ t := by simp [indent, single]

section
variable {g : Graph} (good : g.WellFormed) {P : Text → Prop}
  (edge : ∀ source ∈ g.nodes, ∀ target ∈ g.nodes, ∀ e ∈ g.edges, ∀ sourceFull targetFull,
    P (indent ++ edgeBody sourceFull targetFull source target e))
include good edge

theorem forall_rows_edgeLines {edges : List Edge} (inside : edges ⊆ g.edges) (names : List Text) {t : Text}
    (behind : ∀ row ∈ rows t, P row) : ∀ row ∈ rows (edgeLines g names edges ++ t), P row := by
  induction edges generalizing names with
  | nil => exact behind
  | cons e rest ih =>
    have later := fun names => ih (fun f member => inside (List.mem_cons_of_mem _ member)) names
    rw [edgeLines]
    split
    · next source target sourceFound targetFound =>
      have sourceMember := Graph.node?_mem sourceFound
      have targetMember := Graph.node?_mem targetFound
      have single := edgeBody_no_newline (good.node_ids source sourceMember) (good.node_ids target targetMember) e
      have here := edge source sourceMember target targetMember e (inside List.mem_cons_self)
      rw [edgeLine_eq, List.append_assoc, List.append_assoc]
      exact forall_rows_cons (indent_no_newline (single _ _)) (here _ _) (later _)
    · exact later names

/-- What holds of the header, of the lines of edges and nodes and of the empty row holds of all rows. -/
theorem forall_rows_toText (header : P defaultHeader) (node : ∀ n ∈ g.nodes, P (indent ++ fullForm n)) (last : P []) :
    ∀ row ∈ rows g.toText, P row := by
  have orphans : ∀ ns ⊆ g.nodes, ∀ row ∈ rows (ns.flatMap fun n => indent ++ fullForm n ++ ['\n']), P row := by
    intro ns inside
    induction ns with
    | nil => simpa [rows] using last
    | cons n rest ih =>
      have member : n ∈ g.nodes := inside List.mem_cons_self
      rw [nodeLines_cons]
      exact forall_rows_cons (indent_no_newline (form_no_newline (good.node_ids n member) true)) (node n member)
        (ih fun m later => inside (List.mem_cons_of_mem _ later))
  have text : g.toText = defaultHeader ++ '\n' :: (edgeLines g [] g.edges ++ orphanLines g) := by
    simp [Graph.toText, Graph.toTextUnder]
  rw [text]
  exact forall_rows_cons (by decide) header
    (forall_rows_edgeLines good edge (List.Subset.refl _) [] (orphans _ (List.filter_subset_self _)))

end

/-! ### Nothing to repair -/

theorem settled_toText {g : Graph} (good : g.WellFormed) : ∀ row ∈ rows g.toText, Settled row := by
  refine forall_rows_toText good ?_ ?_ ?_ ?_
  · intro source sourceMember target targetMember e _ sourceFull targetFull
    exact settled_edge (good.node_ids source sourceMember) (good.node_ids target targetMember) e _ _
  · rw [settled_of_no_label (by decide)]
    exact repairLabels_of_no_bracket (by decide)
  · exact fun n member => settled_node (good.node_ids n member)
  · rw [settled_of_no_label rfl, repairLabels_nil]

theorem dropReturns_toText {g : Graph} (good : g.WellFormed) : dropReturns g.toText = g.toText := by
  have ends : ∀ row ∈ rows g.toText, EndsInk row := by
    refine forall_rows_toText good ?_ ?_ ?_ ?_
    · intro source sourceMember target targetMember e _ sourceFull targetFull
      obtain ⟨c, r, first, -⟩ := edgeBody_cons (good.node_ids source sourceMember) target e sourceFull targetFull
      refine endsInk_append ?_ (edgeBody_endsInk (good.node_ids target targetMember) source e sourceFull targetFull)
      rw [first]
      exact List.cons_ne_nil c r
    · intro c last
      obtain rfl : 'D' = c := Option.some.inj last
      decide
    · intro n member
      obtain ⟨filled, ink⟩ := form_endsInk (good.node_ids n member) true
      exact endsInk_append filled ink
    · exact fun c last => nomatch last
  apply dropReturns_eq_self
  rw [← joinRows_rows g.toText]
  exact joinRows_no_return (fun _ => newline_not_mem_rows) ends

/-! ### Fences -/

theorem fence_inside (label : Text) : fence <:+: inside label ↔ fence <:+: label := by
  unfold inside
  split
  · have quoted : '"' :: label ++ ['"'] = ['"'] ++ label ++ ['"'] := rfl
    rw [quoted, fence_front (by decide), fence_behind (by decide)]
  · rfl

theorem fenceless_form {n : Node} (valid : isId n.id) (fenceless : ¬ fence <:+: labelText n.label) (full : Bool) :
    ¬ fence <:+: form full n := by
  have cleanId := tick_not_mem_id valid
  have clean : '\x60' ∉ (Bracket.ofShape n.shape).opening ∧ '\x60' ∉ (Bracket.ofShape n.shape).closing := by
    cases n.shape <;> decide
  cases full with
  | true =>
    have whole : form true n = n.id ++ bracketed n := rfl
    rw [whole, bracketed_eq, fence_behind cleanId, fence_front clean.2, fence_behind clean.1, fence_inside]
    exact fenceless
  | false =>
    intro found
    exact cleanId (found.subset (by decide))

theorem fenceless_connector {e : Edge} (fenceless : ∀ label ∈ e.label, ¬ fence <:+: linkText label) :
    ¬ fence <:+: connector e := by
  have clean : '\x60' ∉ token e.animated := by cases e.animated <;> decide
  rw [connector_eq, fence_behind clean]
  cases found : writtenLabel e with
  | none => decide
  | some label =>
    obtain ⟨mapped, -⟩ := Option.filter_eq_some_iff.1 found
    obtain ⟨raw, member, rfl⟩ := Option.map_eq_some_iff.1 mapped
    have split : piped (some (linkText raw)) = ['|'] ++ linkText raw ++ ['|'] := rfl
    rw [split, fence_front (by decide), fence_behind (by decide)]
    exact fenceless raw member

theorem fenceless_toText {g : Graph} (good : g.WellFormed) (clean : g.EachWritten (¬ fence <:+: ·)) :
    ¬ fence <:+: g.toText := by
  rw [infix_rows (by decide)]
  rintro ⟨row, member, found⟩
  have noTick : '\x60' ∉ indent := by decide
  refine forall_rows_toText (P := (¬ fence <:+: ·)) good ?_ (by decide +kernel) ?_ (by decide +kernel) row member found
  · intro source sourceMember target targetMember e edgeMember sourceFull targetFull
    have first := fenceless_form (good.node_ids source sourceMember) (clean.nodes source sourceMember) sourceFull
    have second := fenceless_form (good.node_ids target targetMember) (clean.nodes target targetMember) targetFull
    have middle := fenceless_connector (clean.links e edgeMember)
    rw [fence_behind noTick, edgeBody_append, infix_append_cons (by decide), infix_append_cons (by decide)]
    simp [first, middle, second]
  · intro n member
    rw [fence_behind noTick]
    exact fenceless_form (good.node_ids n member) (clean.nodes n member) true

/-! ### Runs of blanks -/

/-- Without tabs, only two spaces side by side make a run of blanks. -/
theorem collapse_of_tabless {t : Text} (tabless : '\t' ∉ t) : collapseBlanks t = t ↔ ¬ [' ', ' '] <:+: t := by
  rw [collapseBlanks_eq_self]
  constructor
  · exact fun single => single ' ' ' ' (by decide) (by decide)
  · intro single a b first second found
    have space : ∀ c ∈ [a, b], isBlank c → c = ' ' := by
      intro c member blank
      have other : c ≠ '\t' := fun tab => tabless (tab ▸ found.subset member)
      simpa [isBlank, other] using blank
    obtain rfl := space a (by simp) first
    obtain rfl := space b (by simp) second
    exact single found

theorem written_collapsed (n : Node) : (written n).collapsed = written n ↔ ¬ [' ', ' '] <:+: labelText n.label := by
  rw [← collapse_of_tabless (labelText_apart (by decide) n.label)]
  simp [Node.collapsed, written]

theorem writtenLabel_collapsed (e : Edge) :
    (writtenLabel e).map collapseBlanks = writtenLabel e ↔ ∀ label ∈ e.label, ¬ [' ', ' '] <:+: linkText label := by
  unfold writtenLabel
  cases e.label with
  | none => simp
  | some label =>
    have tabless : '\t' ∉ linkText label := linkText_apart (by decide) label
    have single := collapse_of_tabless tabless
    by_cases empty : linkText label = []
    · simp [empty, Option.filter]
    · simp [empty, Option.filter, single]

/-- A graph that is read back has no runs of blanks to collapse if the written labels
    have no two spaces side by side. -/
theorem readBack_collapsed {g h : Graph} (back : ReadBack g h) :
    h.collapsed = h ↔ g.EachWritten (¬ [' ', ' '] <:+: ·) := by
  have nodes : (∀ n ∈ h.nodes, n.collapsed = n) ↔ ∀ n ∈ g.nodes, ¬ [' ', ' '] <:+: labelText n.label := by
    simp only [back.nodes.mem_iff, List.forall_mem_map, written_collapsed]
  let stays (c : Text × Text × Option Text × Bool) : Prop := c.2.2.1.map collapseBlanks = c.2.2.1
  have edges : (∀ e ∈ h.edges, e.label.map collapseBlanks = e.label) ↔
      ∀ e ∈ g.edges, ∀ label ∈ e.label, ¬ [' ', ' '] <:+: linkText label := by
    calc ∀ e ∈ h.edges, stays e.content
      _ ↔ ∀ c ∈ h.edges.map Edge.content, stays c := List.forall_mem_map.symm
      _ ↔ ∀ e ∈ g.edges, stays (writtenContent e) := by rw [back.edges, List.forall_mem_map]
      _ ↔ ∀ e ∈ g.edges, ∀ label ∈ e.label, ¬ [' ', ' '] <:+: linkText label := by
        simp only [stays, writtenContent, writtenLabel_collapsed]
  rw [Graph.collapsed_eq_self, nodes, edges]
  exact ⟨fun both => ⟨both.1, both.2⟩, fun each => ⟨each.nodes, each.links⟩⟩

theorem kept_repair_toText {g : Graph} (good : g.WellFormed) (fenceless : g.EachWritten (¬ fence <:+: ·)) :
    Kept g.toText (repair g.toText) := by
  refine kept_repair ?_ (fenceless_toText good fenceless)
  rw [dropReturns_toText good]
  exact settled_toText good

theorem parse_toText {g : Graph} (good : g.WellFormed) (filled : g.nodes ≠ []) :
    ∃ h, Flowchart.parse g.toText = .ok h ∧ ReadBack g h := by
  have back : ReadBack g (Graph.ofStatements (statements g.toText)) :=
    ofStatements_toTextUnder good defaultHeader_silent
  refine ⟨_, parse_iff_contents.2 ⟨(ofStatements_contents _).symm, ?_⟩, back⟩
  intro none
  have same := back.nodes
  rw [none, List.nil_perm] at same
  exact filled (List.map_eq_nil_iff.1 same)

end Writer

namespace Graph
open Repair Writer

/-- In a written graph there is no aside to move; and if the written labels are tidy, repairing the text does not change
    what is read. -/
theorem parse_repair_toText {g : Graph} (reachable : Reachable g) (filled : g.nodes ≠ []) :
    repairAsides g.toText = g.toText ∧
      (g.EachWritten Tidy → ∃ h, Flowchart.parse g.toText = .ok h ∧ Flowchart.parse (repair g.toText) = .ok h) := by
  have good := reachable.wellFormed
  refine ⟨repairAsides_eq_self.2 (settled_toText good), fun tidy => ?_⟩
  obtain ⟨h, read, back⟩ := parse_toText good filled
  have kept := kept_repair_toText good (tidy.mono fun _ tidy => tidy.fenceless)
  have repaired := parse_of_kept kept (repair_repaired g.toText).blanks read
  rw [(readBack_collapsed back).2 (tidy.mono fun _ tidy => tidy.single)] at repaired
  exact ⟨h, read, repaired⟩

/-- Labels that hold what repairs look for: asides, brackets, pipes, slashes, quotes, one or two backticks and capitals
    behind a bracket, in nodes of all shapes. -/
def prickly : Graph :=
  ⟨[⟨"A".toList, "f(x) [y]".toList, .rectangle⟩, ⟨"B".toList, "/a (b) c/".toList, .parallelogram⟩,
     ⟨"C".toList, "(in) out".toList, .cylinder⟩, ⟨"D".toList, "p | q".toList, .diamond⟩,
     ⟨"E".toList, "say \"no\"".toList, .circle⟩, ⟨"F".toList, "[(x)] UP".toList, .hexagon⟩,
     ⟨"G".toList, "one \x60\x60 two".toList, .rounded⟩],
    [⟨"1".toList, "A".toList, "B".toList, some "x[a (b) c] | y".toList, false⟩,
     ⟨"2".toList, "D".toList, "C".toList, some "say \"(go)\"".toList, true⟩,
     ⟨"3".toList, "D".toList, "D".toList, none, false⟩]⟩

theorem prickly_repaired :
    Reachable prickly ∧ prickly.EachWritten Tidy ∧ repairAsides prickly.toText = prickly.toText ∧
      ∃ h, Flowchart.parse prickly.toText = .ok h ∧ Flowchart.parse (repair prickly.toText) = .ok h := by
  have made : ofParts prickly.nodes prickly.edges = .ok prickly := by decide +kernel
  have reachable : Reachable prickly := .built (.parts made)
  have tidy : prickly.EachWritten Tidy := ⟨by decide +kernel, by decide +kernel⟩
  obtain ⟨asides, read⟩ := parse_repair_toText reachable (by decide)
  exact ⟨reachable, tidy, asides, read tidy⟩

end Graph
end Flowchart
