import Flowchart.Proofs.Line.Rows

/-!
Where labels come from. A line states no id and no label that does not stand in it (`parse_quotes`), so every label of a
graph that is read from a text stands in a row of the text (`parse_shows`).
-/
namespace Flowchart
open Text Line

namespace Line

/-- All ids that the statement links and all labels have the property. -/
def Statement.Quotes (P : Text → Prop) : Statement → Prop
  | .content declarations link =>
    (∀ n ∈ declarations, P n.label) ∧ ∀ l ∈ link, (P l.source ∧ P l.target) ∧ ∀ label ∈ l.label, P label
  | _ => True

theorem Statement.Quotes.mono {P Q : Text → Prop} {s : Statement} (quotes : s.Quotes P) (weaker : ∀ t, P t → Q t) :
    s.Quotes Q := by
  cases s with
  | skip => trivial
  | unparseable => trivial
  | content declarations link =>
    obtain ⟨declared, linked⟩ := quotes
    refine ⟨fun n member => weaker _ (declared n member), fun l member => ?_⟩
    obtain ⟨⟨source, target⟩, label⟩ := linked l member
    exact ⟨⟨weaker _ source, weaker _ target⟩, fun text inside => weaker _ (label text inside)⟩

/-! ### Labels of nodes -/

theorem between?_isInfix {opening closing t inner : Text} (found : between? opening closing t = some inner) :
    inner <:+: t := by
  rw [between?_eq_some.1 found]
  exact ⟨opening, closing, rfl⟩

theorem unquote_isInfix (label : Text) : unquote label <:+: label := by
  unfold unquote
  split
  · next inner found => exact (trim_isInfix inner).trans ((between?_isInfix found).trans (trim_isInfix label))
  · exact trim_isInfix label

theorem shapeAndLabel_isInfix (declaration : Text) : (shapeAndLabel declaration).2 <:+: declaration := by
  unfold shapeAndLabel
  cases found : Bracket.all.findSome? fun b =>
    (between? b.opening b.closing declaration.trim).map fun inner => (b.shape, unquote inner) with
  | none => exact trim_isInfix declaration
  | some pair =>
    obtain ⟨b, -, fits⟩ := List.exists_of_findSome?_eq_some found
    obtain ⟨inner, enclosed, rfl⟩ := Option.map_eq_some_iff.1 fits
    exact (unquote_isInfix inner).trans ((between?_isInfix enclosed).trans (trim_isInfix declaration))

theorem takeShape_isInfix {t label : Text} {s : Shape} (taken : (takeShape t).1 = some (s, label)) : label <:+: t := by
  unfold takeShape at taken
  split at taken
  · next e found =>
    have inside := shapeAndLabel_isInfix e.declaration
    rw [Option.some.inj taken] at inside
    rw [(enclosed?_eq_some found).2]
    exact inside.trans (List.prefix_append _ _).isInfix
  · cases taken

theorem declarations_isInfix (t : Text) : ∀ n ∈ declarations t, n.label <:+: t := by
  fun_induction declarations t with
  | case1 => simp
  | case2 c r _ ih =>
    intro n member
    exact (ih n member).trans ((passDelimited_suffix c (c :: r)).trans (List.drop_suffix 1 _)).isInfix
  | case3 c r _ raw behind labelled ih =>
    intro n member
    exact (ih n member).trans ((inlineLabel?_suffix labelled).trans (List.drop_suffix 2 _)).isInfix
  | case4 c r _ _ _ found declared ih =>
    have behind : r.dropWhile isIdChar <:+ c :: r := (List.dropWhile_suffix _).trans (List.suffix_cons c r)
    intro n member
    rcases List.mem_append.1 member with here | later
    · simp only [declared, Option.mem_toList, Option.map_eq_some_iff] at here
      obtain ⟨⟨shape, label⟩, taken, rfl⟩ := here
      exact (takeShape_isInfix taken).trans behind.isInfix
    · exact (ih n later).trans ((takeShape_suffix _).trans behind).isInfix
  | case5 c r _ _ _ ih =>
    intro n member
    exact (ih n member).trans (List.suffix_cons c r).isInfix

/-! ### Links -/

theorem takeEndpoint_isInfix {t id : Text} (taken : (takeEndpoint t).1 = some id) : id <:+: t := by
  unfold takeEndpoint at taken
  split at taken
  · next found =>
    obtain rfl := Option.some.inj taken
    obtain ⟨-, run, -⟩ := takeId_eq_some (t := passBlanks t) (by rw [found])
    rw [run]
    exact (List.takeWhile_prefix _).isInfix.trans (passBlanks_suffix t).isInfix
  · cases taken

theorem linkLabel_isInfix {raw label : Text} (stated : linkLabel raw = some label) : label <:+: raw := by
  unfold linkLabel at stated
  split at stated
  · cases stated
  · rw [← Option.some.inj stated]
    exact unquote_isInfix raw

theorem cut_isInfix {mark t before after : Text} (found : cut mark t = some (before, after)) : before <:+: t := by
  rw [cut_eq_some found, List.append_assoc]
  exact (List.prefix_append before _).isInfix

theorem takeLabel_isInfix {t label : Text} (taken : (takeLabel t).1 = some label) : label <:+: t := by
  unfold takeLabel at taken
  split at taken
  · next r first =>
    split at taken
    · next found =>
      have behind : r <:+ t := (List.suffix_cons _ _).trans (first ▸ passBlanks_suffix t)
      exact (linkLabel_isInfix taken).trans ((cut_isInfix found).trans behind.isInfix)
    · cases taken
  · cases taken

theorem takeConnector_isInfix {t label : Text} {arrow : Arrow}
    (taken : (takeConnector t).1 = some (arrow, some label)) : label <:+: t := by
  unfold takeConnector at taken
  split at taken
  · next found =>
    have piped := takeLabel_isInfix (Prod.mk.inj (Option.some.inj taken)).2
    exact piped.trans ((arrowToken?_suffix found).trans (passBlanks_suffix t)).isInfix
  · split at taken
    · next raw rest found =>
      have stated := linkLabel_isInfix (Prod.mk.inj (Option.some.inj taken)).2
      have inside : raw <:+: passBlanks t := by
        unfold inlineLabel? at found
        split at found
        · next r first =>
          split at found
          · cases found
          · rw [first]
            exact (cut_isInfix found).trans ((List.suffix_cons _ _).trans (List.suffix_cons _ _)).isInfix
        · cases found
      exact stated.trans (inside.trans (passBlanks_suffix t).isInfix)
    · cases taken

theorem takeLink_isInfix {t : Text} {l : Link} (taken : (takeLink t).1 = some l) :
    (l.source <:+: t ∧ l.target <:+: t) ∧ ∀ label ∈ l.label, label <:+: t := by
  obtain ⟨_, _, source, connector, target⟩ := takeLink_eq_some (Prod.ext taken rfl)
  have behindSource := takeEndpoint_suffix t
  rw [source] at behindSource
  have behindConnector := (takeConnector_suffix _).trans behindSource
  rw [connector] at behindConnector
  refine ⟨⟨takeEndpoint_isInfix (by rw [source]), ?_⟩, fun label stated => ?_⟩
  · exact (takeEndpoint_isInfix (by rw [target])).trans behindConnector.isInfix
  · rw [Option.mem_def.1 stated] at connector
    exact (takeConnector_isInfix (by rw [connector])).trans behindSource.isInfix

/-- A line states what stands in it. -/
theorem parse_quotes (line : Text) : (parse line).Quotes (· <:+: line) := by
  refine Statement.Quotes.mono (P := (· <:+: line.trim)) ?_ fun t inside => inside.trans (trim_isInfix line)
  cases stated : parse line with
  | skip => trivial
  | unparseable => trivial
  | content found link =>
    obtain ⟨rfl, rfl, -⟩ := parse_eq_content stated
    exact ⟨declarations_isInfix _, fun l member => takeLink_isInfix member⟩

end Line

/-! ### Graphs -/

namespace Graph

/-- All labels have the property. -/
structure Shows (P : Text → Prop) (g : Graph) : Prop where
  nodes : ∀ n ∈ g.nodes, P n.label
  edges : ∀ e ∈ g.edges, ∀ label ∈ e.label, P label

variable {P : Text → Prop} {g : Graph}

theorem empty_shows : empty.Shows P := ⟨by simp [empty], by simp [empty]⟩

theorem Shows.insertNode (shown : g.Shows P) {n : Node} (label : P n.label) : (g.insertNode n).Shows P := by
  refine ⟨?_, by rw [insertNode_edges]; exact shown.edges⟩
  unfold Graph.insertNode
  split
  · exact shown.nodes
  · intro m member
    rcases List.mem_append.1 member with before | last
    · exact shown.nodes m before
    · rwa [List.mem_singleton.1 last]

theorem Shows.insertNodes (shown : g.Shows P) {ns : List Node} (labels : ∀ n ∈ ns, P n.label) :
    (ns.foldl Graph.insertNode g).Shows P := by
  induction ns generalizing g with
  | nil => exact shown
  | cons n rest ih =>
    have here := shown.insertNode (labels n List.mem_cons_self)
    exact ih here fun m member => labels m (List.mem_cons_of_mem _ member)

theorem Shows.enter (shown : g.Shows P) {s : Statement} (quotes : s.Quotes P) : (g.enter s).Shows P := by
  cases s with
  | skip => exact shown
  | unparseable => exact shown
  | content declarations link =>
    obtain ⟨declared, linked⟩ := quotes
    have withSource : (g.enterSource declarations link).Shows P := by
      unfold enterSource
      split
      · next l =>
        split
        · exact shown
        · exact shown.insertNode (linked l rfl).1.1
      · exact shown
    have withNodes := withSource.insertNodes declared
    show (Graph.enterLink _ link).Shows P
    unfold enterLink
    split
    · next l =>
      obtain ⟨⟨source, target⟩, label⟩ := linked l rfl
      have ends := (withNodes.insertNode (n := .bare l.source) source).insertNode (n := .bare l.target) target
      refine ⟨ends.nodes, fun e member => ?_⟩
      rcases List.mem_append.1 member with before | last
      · exact ends.edges e before
      · rw [List.mem_singleton.1 last]
        exact label
    · exact withNodes

theorem ofStatements_shows {ss : List Statement} (quotes : ∀ s ∈ ss, s.Quotes P) : (ofStatements ss).Shows P := by
  suffices ∀ g : Graph, g.Shows P → (ss.foldl enter g).Shows P from this _ empty_shows
  induction ss with
  | nil => exact fun g shown => shown
  | cons s rest ih =>
    intro g shown
    exact ih (fun s member => quotes s (List.mem_cons_of_mem _ member)) _ (shown.enter (quotes s List.mem_cons_self))

/-- Every label of a graph that is read from a text stands in a row of the text. -/
theorem parse_shows {t : Text} (read : Flowchart.parse t = .ok g) :
    g.Shows fun label => ∃ row ∈ rows t, label <:+: row := by
  obtain ⟨rfl, -⟩ := parse_iff_contents.1 read
  refine ofStatements_shows fun s member => ?_
  obtain ⟨row, inside, rfl⟩ := List.mem_map.1 (List.mem_filter.1 member).1
  exact (parse_quotes row).mono fun label found => ⟨row, inside, found⟩

end Graph
end Flowchart
