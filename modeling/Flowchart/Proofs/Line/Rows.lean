import Flowchart.Proofs.Graph.Reachable
import Flowchart.Proofs.Line.Tokens
import Flowchart.Proofs.Text.Lines

/-!
What a text states, row by row. Only rows that state something add to the graph (`ofStatements_contents`), and a
row that states something holds an id character (`exists_idChar`).
-/
namespace Flowchart
open Text Line

namespace Line

theorem parse_dropReturn (row : Text) : parse (dropReturn row) = parse row := by
  rw [parse, trim_dropReturn, parse]

/-! ### Rows without ids -/

/-- No character belongs to an id. -/
def Nameless (t : Text) : Prop := ∀ c ∈ t, isIdChar c = false

theorem link?_nameless {t : Text} (nameless : Nameless t) : link? t = none := by
  have noId : takeId (passBlanks t) = (none, passBlanks t) := by
    have first : (passBlanks t).takeWhile isIdChar = [] := by
      cases shape : passBlanks t with
      | nil => rfl
      | cons c r =>
        have member : c ∈ t := (passBlanks_suffix t).subset (by rw [shape]; exact List.mem_cons_self)
        rw [List.takeWhile_cons_of_neg (by simp [nameless c member])]
    rw [takeId, first]
    rfl
  unfold link? takeLink takeEndpoint
  rw [noId]

theorem declarations_nameless {t : Text} (nameless : Nameless t) : declarations t = [] := by
  have ending : ∀ {t r : Text}, Nameless t → r <:+ t → Nameless r :=
    fun nameless final c member => nameless c (final.subset member)
  fun_induction declarations t with
  | case1 => rfl
  | case2 c r _ ih => exact ih (ending nameless ((passDelimited_suffix c (c :: r)).trans (List.drop_suffix 1 _)))
  | case3 c r _ raw behind labelled ih =>
    exact ih (ending nameless ((inlineLabel?_suffix labelled).trans (List.drop_suffix 2 _)))
  | case4 c r _ _ idChar =>
    rw [nameless c List.mem_cons_self] at idChar
    cases idChar
  | case5 c r _ _ _ ih => exact ih (ending nameless (List.suffix_cons c r))

/-- A row that states something holds an id character. -/
theorem exists_idChar {row : Text} (stated : (parse row).isStated) : ∃ c ∈ row.trim, isIdChar c := by
  by_contra none
  have nameless : Nameless row.trim := fun c member => by
    by_contra idChar
    exact none ⟨c, member, by simpa using idChar⟩
  obtain ⟨-, filled⟩ := parse_of_isStated stated
  simp [declarations_nameless nameless, link?_nameless nameless] at filled

end Line

/-! ### Rows that state something -/

/-- What the rows of a text add to a graph. -/
def contents (t : Text) : List Statement := ((rows t).map Line.parse).filter (·.isStated)

theorem filter_statements (t : Text) : (statements t).filter (·.isStated) = contents t := by
  unfold statements contents lines
  fun_induction linesOfRows (rows t) with
  | case1 => rfl
  | case2 => rfl
  | case3 last _ => rfl
  | case4 row others _ ih =>
    rw [List.map_cons, List.map_cons, parse_dropReturn, List.filter_cons, List.filter_cons, ih]

theorem ofStatements_filter (ss : List Statement) :
    Graph.ofStatements (ss.filter (·.isStated)) = Graph.ofStatements ss := by
  have stays : ∀ g : Graph, (ss.filter (·.isStated)).foldl Graph.enter g = ss.foldl Graph.enter g := by
    induction ss with
    | nil => exact fun _ => rfl
    | cons s rest ih =>
      intro g
      cases s with
      | skip => exact ih g
      | unparseable => exact ih g
      | content declarations link => exact ih _
  exact stays _

/-- Only the rows that state something make the graph. -/
theorem ofStatements_contents (t : Text) : Graph.ofStatements (contents t) = Graph.ofStatements (statements t) := by
  rw [← filter_statements, ofStatements_filter]

/-- A text is read as the graph of its rows when that graph has a node. -/
theorem parse_iff_contents {t : Text} {g : Graph} :
    parse t = .ok g ↔ g = Graph.ofStatements (contents t) ∧ g.nodes ≠ [] := by
  rw [Graph.parse_eq_ok, ← ofStatements_contents, and_iff_right_iff_imp]
  rintro ⟨rfl, filled⟩ white
  have nothing : contents t = [] := by
    refine List.filter_eq_nil_iff.2 fun s member stated => ?_
    obtain ⟨row, inside, rfl⟩ := List.mem_map.1 member
    obtain ⟨c, found, idChar⟩ := exists_idChar stated
    have there := (mem_of_mem_rows inside ((trim_isInfix row).subset found)).1
    exact idChar_ink idChar (List.all_eq_true.1 white c there)
  rw [nothing] at filled
  exact filled rfl

end Flowchart
