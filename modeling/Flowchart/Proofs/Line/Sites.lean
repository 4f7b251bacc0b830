import Flowchart.Proofs.Line.Ids
import Flowchart.Proofs.Line.Marks
import Flowchart.Proofs.Text.Trim

/-!
Where declarations stand. The walk along a line finds each declared node at a place of its own: an id, the bracket
pair right behind it, and what follows (`declarations_eq_sites`, `sites_stand`). Of a bracket pair one pair of
delimiters says the shape, and what is between them says the label (`Site.Stands.reads`).
-/
namespace Flowchart.Line
open Text

/-- A declaration as it stands on a line. -/
structure Site where
  id : Text
  enclosed : Enclosed
  deriving DecidableEq, Repr

/-- The bracket pair with its delimiters. -/
def Site.declaration (s : Site) : Text := s.enclosed.declaration

/-- The node that is read there. -/
def Site.node (s : Site) : Node := ⟨s.id, (shapeAndLabel s.declaration).2, (shapeAndLabel s.declaration).1⟩

/-- The declarations of a line where they stand, in their order. -/
def sites : Text → List Site
  | [] => []
  | c :: r =>
    if c = '|' || c = '"' then sites (passDelimited c (c :: r))
    else
      match _h : inlineLabel? (c :: r) with
      | some (_, rest) => sites rest
      | none =>
        if isIdChar c then
          match _e : enclosed? (r.dropWhile isIdChar) with
          | some e => ⟨c :: r.takeWhile isIdChar, e⟩ :: sites e.rest
          | none => sites (r.dropWhile isIdChar)
        else sites r
termination_by t => t.length
decreasing_by
  · exact Nat.lt_succ_of_le (passDelimited_suffix c (c :: r)).length_le
  · have := (inlineLabel?_suffix _h).length_le
    simp only [List.drop_succ_cons, List.length_drop, List.length_cons] at this ⊢
    omega
  · have behind := (List.dropWhile_suffix isIdChar (l := r)).length_le
    rw [(enclosed?_eq_some _e).2, List.length_append] at behind
    simp only [List.length_cons]
    omega
  · exact Nat.lt_succ_of_le (List.dropWhile_suffix isIdChar).length_le
  · simp

theorem declarations_eq_sites (t : Text) : declarations t = (sites t).map Site.node := by
  fun_induction sites t with
  | case1 => rw [declarations, List.map_nil]
  | case2 c r delimits ih => rw [declarations_delimited (by simpa using delimits), ih]
  | case3 c r plain raw behind labelled ih => rw [declarations_inline (by simpa using plain) labelled, ih]
  | case4 c r plain unlabelled idChar e found ih =>
    have taken : takeShape (r.dropWhile isIdChar) = (some (shapeAndLabel e.declaration), e.rest) := by
      rw [takeShape, found]
    rw [declarations_word idChar, taken, List.map_cons, ← ih]
    rfl
  | case5 c r plain unlabelled idChar bare ih =>
    have taken : takeShape (r.dropWhile isIdChar) = (none, r.dropWhile isIdChar) := by rw [takeShape, bare]
    rw [declarations_word idChar, taken, ← ih]
    rfl
  | case6 c r plain unlabelled other ih =>
    rw [declarations_cons (by simpa using plain) unlabelled (by simpa using other), ih]

/-- The declaration stands on the line, and what is behind it goes on to the end. -/
structure Site.Stands (s : Site) (t : Text) : Prop where
  valid : isId s.id
  known : s.enclosed.bracket ∈ Bracket.all
  place : s.id ++ s.declaration ++ s.enclosed.rest <:+ t

theorem Site.Stands.suffix {s : Site} {t u : Text} (stands : s.Stands t) (final : t <:+ u) : s.Stands u :=
  ⟨stands.valid, stands.known, stands.place.trans final⟩

theorem sites_stand (t : Text) : ∀ s ∈ sites t, s.Stands t := by
  fun_induction sites t with
  | case1 => simp
  | case2 c r _ ih =>
    have behind : passDelimited c (c :: r) <:+ c :: r := (passDelimited_suffix c (c :: r)).trans (List.drop_suffix 1 _)
    exact fun s member => (ih s member).suffix behind
  | case3 c r _ raw behind labelled ih =>
    exact fun s member => (ih s member).suffix ((inlineLabel?_suffix labelled).trans (List.drop_suffix 2 _))
  | case4 c r _ _ idChar e found ih =>
    obtain ⟨known, split⟩ := enclosed?_eq_some found
    have word : c :: r = (c :: r.takeWhile isIdChar) ++ e.declaration ++ e.rest := by
      rw [List.append_assoc, ← split, List.cons_append, List.takeWhile_append_dropWhile]
    intro s member
    rcases List.mem_cons.1 member with rfl | later
    · refine ⟨?_, known, ⟨[], word.symm⟩⟩
      simp [isId, idChar]
    · exact (ih s later).suffix ⟨_, word.symm⟩
  | case5 c r _ _ _ _ ih =>
    have behind : r.dropWhile isIdChar <:+ c :: r := (List.dropWhile_suffix _).trans (List.suffix_cons c r)
    exact fun s member => (ih s member).suffix behind
  | case6 c r _ _ _ ih => exact fun s member => (ih s member).suffix (List.suffix_cons c r)

/-! ### What the delimiters say -/

/-- The delimiters of the bracket pair say the shape of the node, and what is between them its label. -/
structure Site.Reads (s : Site) (b : Bracket) (body : Text) : Prop where
  known : b ∈ Bracket.all
  text : s.declaration = b.opening ++ body ++ b.closing
  node : s.node = ⟨s.id, unquote body, b.shape⟩

instance (s : Site) (b : Bracket) (body : Text) : Decidable (s.Reads b body) :=
  decidable_of_iff
    (b ∈ Bracket.all ∧ s.declaration = b.opening ++ body ++ b.closing ∧ s.node = ⟨s.id, unquote body, b.shape⟩)
    ⟨fun all => ⟨all.1, all.2.1, all.2.2⟩, fun reads => ⟨reads.known, reads.text, reads.node⟩⟩

theorem bracket_ink : ∀ b ∈ Bracket.all, StartsInk b.opening ∧ EndsInk b.closing := by
  simp [Bracket.all, StartsInk, EndsInk, isWhite]

theorem enclosed_trim {e : Enclosed} (known : e.bracket ∈ Bracket.all) : e.declaration.trim = e.declaration := by
  obtain ⟨starts, ends⟩ := bracket_ink e.bracket known
  refine trim_eq_self ?_ (endsInk_append (closing_solid _ known).filled ends)
  rw [Enclosed.declaration, List.append_assoc]
  exact startsInk_append (opening_solid _ known).filled starts

/-- A text that some delimiters fit is read by the first that do. -/
theorem shapeAndLabel_first {t : Text} (trimmed : t.trim = t) {b : Bracket} (known : b ∈ Bracket.all) {inner : Text}
    (fits : t = b.opening ++ inner ++ b.closing) :
    ∃ front first later body, Bracket.all = front ++ first :: later ∧ t = first.opening ++ body ++ first.closing ∧
      shapeAndLabel t = (first.shape, unquote body) ∧ ∀ b' ∈ front, between? b'.opening b'.closing t = none := by
  let read (b : Bracket) := (between? b.opening b.closing t).map fun inner => (b.shape, unquote inner)
  have readable : (read b).isSome := by simp [read, between?_eq_some.2 fits]
  obtain ⟨said, chosen⟩ : ∃ said, Bracket.all.findSome? read = some said :=
    Option.isSome_iff_exists.1 (List.findSome?_isSome_iff.2 ⟨b, known, readable⟩)
  obtain ⟨front, first, later, table, reading, tried⟩ := List.findSome?_eq_some_iff.1 chosen
  obtain ⟨body, inside, rfl⟩ := Option.map_eq_some_iff.1 reading
  refine ⟨front, first, later, body, table, between?_eq_some.1 inside, ?_,
    fun b' before => by simpa [read] using tried b' before⟩
  rw [shapeAndLabel, trimmed]
  exact congrArg (Option.getD · _) chosen

theorem Site.Stands.reads {s : Site} {t : Text} (stands : s.Stands t) : ∃ b body, s.Reads b body := by
  obtain ⟨front, b, later, body, table, text, said, -⟩ :=
    shapeAndLabel_first (enclosed_trim stands.known) stands.known rfl
  have known : b ∈ Bracket.all := by simp [table]
  exact ⟨b, body, known, text, by rw [Site.node, Site.declaration, said]⟩

end Flowchart.Line
