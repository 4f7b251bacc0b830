import Flowchart.Proofs.Graph.Reachable
import Flowchart.Proofs.Line.Sites
import Flowchart.Proofs.Writer.Line

/-!
Lines with one declaration and nothing else. An id with a bracket pair behind it is
read as the graph of that node (`parse_alone`). Between any delimiters a label in
double quotes is read as it is, whatever it holds (`takeShape_quoted`).
-/
namespace Flowchart.Line
open Text Writer

/-- A text that is read as a bracket pair to its end is delimited. -/
theorem delimited_whole {s : Text} {said : Shape × Text} (taken : takeShape s = (some said, [])) : Delimited s := by
  obtain ⟨brackets, split, delimited⟩ := takeShape_delimited s
  rw [taken, List.append_nil] at split
  rw [split]
  refine delimited.resolve_left fun empty => ?_
  rw [split, empty] at taken
  cases taken

/-- A line with an id and a bracket pair declares that node and nothing else. -/
theorem parse_alone {id s label : Text} {shape : Shape} (valid : isId id)
    (taken : takeShape s = (some (shape, label), [])) (single : '\n' ∉ s) :
    Flowchart.parse (id ++ s) = .ok ⟨[⟨id, label, shape⟩], []⟩ := by
  have delimited := delimited_whole taken
  obtain ⟨m, r, opening, delimiter⟩ := delimited.cons
  have marks : ∀ m ∈ ['\x7b', '(', '['], m ∈ punctuation ∧ ¬ isWhite m ∧ ∀ word ∈ directives, m ∉ word :=
    List.all_iff_forall_prop.1 (by decide +kernel)
  obtain ⟨stop, ink, foreign⟩ := marks m delimiter
  obtain ⟨c, id', first, idChar, -⟩ := isId_cons valid
  have stops : Stops s := opening ▸ stops_cons stop
  have declared : declarations (id ++ s) = [⟨id, label, shape⟩] := by
    rw [declarations_id valid stops, taken, declarations]
    rfl
  have unlinked : link? (id ++ s) = none := by
    have source : takeEndpoint (id ++ s) = (some id, []) := by
      rw [takeEndpoint, passBlanks_id valid, takeId_append valid stops]
      simp only [taken]
    rw [link?, takeLink, source]
    rfl
  have plain : startsDirective (id ++ s) = false := by
    rw [opening]
    exact startsDirective_mark valid ink foreign r
  have filled : s ≠ [] := by rw [opening]; exact List.cons_ne_nil m r
  have ends : EndsInk (id ++ s) := endsInk_append filled (endsInk_of_closing delimited.closing)
  have lines : lines (id ++ s) = [id ++ s] := by
    have noId : '\n' ∉ id := fun member => idChar_ne (isId_run valid _ member) (d := '\n') (by decide) rfl
    have alone : joinRows [id ++ s] = id ++ s := by simp [joinRows]
    have read : lines (joinRows [id ++ s]) = [id ++ s] :=
      lines_joinRows (by simp [noId, single]) (by simp [filled]) (by simpa using ends)
    rwa [alone] at read
  have statement : statements (id ++ s) = [.content [⟨id, label, shape⟩] none] := by
    have whole : id ++ s = c :: (id' ++ s) := by rw [first]; rfl
    rw [statements, lines, List.map_singleton, Line.parse, trim_eq_self (startsInk_id valid s) ends,
      statementOf_id whole idChar plain (.inl (by simp [declared])), declared, unlinked]
  refine Graph.parse_eq_ok.2 ⟨fun white => ?_, ?_, List.cons_ne_nil _ _⟩
  · exact idChar_ink idChar (List.all_eq_true.1 white c (by simp [first]))
  · rw [statement]
    rfl

/-! ### Quoted labels -/

theorem enclosed?_quoted {b : Bracket} (known : b ∈ Bracket.all) {label : Text} (clean : '"' ∉ label) (t : Text) :
    enclosed? (b.opening ++ '"' :: label ++ '"' :: b.closing ++ t) = some ⟨b, '"' :: label ++ ['"'], t⟩ := by
  have closed : ∀ u : Text, cut ['"'] (label ++ '"' :: u) = some (label, u) := fun u => cut_char clean
  simp only [Bracket.all, List.mem_cons, List.not_mem_nil, or_false] at known
  rcases known with rfl | rfl | rfl | rfl | rfl | rfl | rfl | rfl | rfl
  all_goals simp [enclosed?, Bracket.enclosed?, Bracket.all, after?, splitQuoted, isBlank, closed, cut]

theorem takeShape_quoted {b : Bracket} (known : b ∈ Bracket.all) {label : Text} (trimmed : label.trim = label)
    (clean : '"' ∉ label) (t : Text) :
    takeShape (b.opening ++ '"' :: label ++ '"' :: b.closing ++ t) = (some (b.shape, label), t) := by
  have declared : shapeAndLabel (Enclosed.declaration ⟨b, '"' :: label ++ ['"'], t⟩) = (b.shape, label) := by
    have label' := (unquote_quoted label).trans trimmed
    rw [shapeAndLabel, enclosed_trim known, Enclosed.declaration]
    simp only [Bracket.all, List.mem_cons, List.not_mem_nil, or_false] at known
    rcases known with rfl | rfl | rfl | rfl | rfl | rfl | rfl | rfl | rfl
    all_goals simpa [Bracket.all, between?, after?, before?] using label'
  rw [takeShape, enclosed?_quoted known clean]
  simp only [declared]

end Flowchart.Line
