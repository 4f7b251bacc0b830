import Flowchart.Proofs.Line.Ids
import Flowchart.Proofs.Line.Marks
import Flowchart.Proofs.Text.Blanks

/-!
Reading a line whose runs of blanks are collapsed. No scanner looks at how many blanks there are, so the line
names the same ids, declares the same nodes and states the same link, and only labels change: their
runs of blanks are collapsed as well (`parse_collapse`).
-/
namespace Flowchart
open Text Repair

/-- A node with the runs of blanks in its label collapsed. -/
def Node.collapsed (n : Node) : Node := { n with label := collapseBlanks n.label }

namespace Line

/-- A link with the runs of blanks in its label collapsed. -/
def Link.collapsed (l : Link) : Link := { l with label := l.label.map collapseBlanks }

/-- A statement with the runs of blanks in its labels collapsed. -/
def Statement.collapsed : Statement → Statement
  | .content declarations link => .content (declarations.map Node.collapsed) (link.map Link.collapsed)
  | s => s

/-! ### Labels -/

theorem Solid.ink {mark : Text} (solid : Solid mark) : mark.Ink := fun c member => (solid.solid c member).1

theorem unquote_collapse (label : Text) : unquote (collapseBlanks label) = collapseBlanks (unquote label) := by
  have quote : Ink ['"'] := by decide
  unfold unquote
  rw [trim_collapse, between?_collapse quote quote]
  cases between? ['"'] ['"'] label.trim with
  | none => rfl
  | some inner => exact trim_collapse inner

theorem shapeAndLabel_collapse (t : Text) :
    shapeAndLabel (collapseBlanks t) = Prod.map id collapseBlanks (shapeAndLabel t) := by
  have found := findSome?_keeps (l := Bracket.all) (g := Prod.map id collapseBlanks)
    (f := fun b => (between? b.opening b.closing t.trim).map fun inner => (b.shape, unquote inner))
    (k := fun b => (between? b.opening b.closing (collapseBlanks t).trim).map fun inner => (b.shape, unquote inner))
    fun b member => by
      rw [trim_collapse, between?_collapse (opening_solid b member).ink (closing_solid b member).ink, Option.map_map,
        Option.map_map]
      exact congrArg (Option.map · _) (funext fun inner => by simp [unquote_collapse])
  unfold shapeAndLabel
  simp only [found]
  cases Bracket.all.findSome? fun b =>
    (between? b.opening b.closing t.trim).map fun inner => (b.shape, unquote inner) with
  | none => simp [trim_collapse]
  | some pair => rfl

theorem linkLabel_collapse (raw : Text) : linkLabel (collapseBlanks raw) = (linkLabel raw).map collapseBlanks := by
  unfold linkLabel
  rw [unquote_collapse]
  by_cases empty : unquote raw = [] <;> simp [empty]

theorem passBlanks_collapse (t : Text) : passBlanks (collapseBlanks t) = collapseBlanks (passBlanks t) :=
  dropWhile_collapse (fun _ => id) t

theorem splitQuoted_collapse (t : Text) :
    splitQuoted (collapseBlanks t) = Prod.map collapseBlanks collapseBlanks (splitQuoted t) := by
  have quote : Ink ['"'] := by decide
  rw [splitQuoted_eq, splitQuoted_eq, passBlanks_collapse, after?_collapse quote, takeWhile_collapse fun _ => id]
  cases after? ['"'] (passBlanks t) with
  | none => simp
  | some r =>
    simp only [Option.map_some, Option.bind_some, cut_char_collapse (by decide : isBlank '"' = false)]
    cases cut ['"'] r with
    | none => simp
    | some parts => simp [collapse_append _ (by decide : isBlank '"' = false)]

theorem splitQuoted_ends (t : Text) : (splitQuoted t).1 = [] ∨ ∃ s, (splitQuoted t).1 = s ++ ['"'] := by
  unfold splitQuoted
  split
  · split
    · exact .inr ⟨_, rfl⟩
    · exact .inl rfl
  · exact .inl rfl

theorem collapse_keeps : Keeps collapseBlanks collapseBlanks where
  after solid t := after?_collapse solid.ink t
  afterBlanks solid t := by rw [passBlanks_collapse, after?_collapse solid.ink]
  cut solid t := cut_collapse solid.filled solid.ink t
  quoted := splitQuoted_collapse
  behindQuoted t s := by
    rcases splitQuoted_ends t with empty | ⟨r, ends⟩
    · rw [empty]
      simp
    · have ink : isBlank '"' = false := by decide
      rw [ends, List.append_assoc, List.singleton_append, collapse_append r ink, collapse_append r ink]
      simp
  bracket member s := by
    have closing := closing_solid _ member
    have first : ∀ c ∈ (Bracket.closing _).head?, isBlank c = false :=
      fun c head => closing.ink c (List.mem_of_mem_head? head)
    rw [collapse_append_of_ink _ first, collapse_of_ink closing.ink, ink_append (opening_solid _ member).ink]
  shape := shapeAndLabel_collapse
  label := linkLabel_collapse

/-! ### Ids and the walk along a line -/

theorem takeId_collapse (t : Text) : takeId (collapseBlanks t) = Prod.map id collapseBlanks (takeId t) := by
  obtain ⟨read, remains⟩ := span_collapse (p := isIdChar) (fun _ => idChar_not_blank) t
  unfold takeId
  rw [read, remains]
  split <;> rfl

theorem takeEndpoint_collapse (t : Text) :
    takeEndpoint (collapseBlanks t) = Prod.map id collapseBlanks (takeEndpoint t) := by
  unfold takeEndpoint
  rw [passBlanks_collapse, takeId_collapse]
  obtain ⟨taken, behind⟩ := takeId (passBlanks t)
  cases taken with
  | none => rfl
  | some id => simp [takeShape_keeps collapse_keeps]

theorem link?_collapse (t : Text) : link? (collapseBlanks t) = (link? t).map Link.collapsed := by
  unfold link? takeLink
  rw [takeEndpoint_collapse]
  obtain ⟨source, behindSource⟩ := takeEndpoint t
  cases source with
  | none => rfl
  | some source =>
    obtain ⟨read, remains⟩ := takeConnector_keeps collapse_keeps behindSource
    simp only [Prod.map_apply, id]
    rcases plain : takeConnector behindSource with ⟨connector, behindArrow⟩
    rcases collapsed : takeConnector (collapseBlanks behindSource) with ⟨connector', behindArrow'⟩
    rw [plain, collapsed] at read remains
    cases connector with
    | none =>
      obtain rfl : connector' = none := read
      rfl
    | some pair =>
      obtain ⟨arrow, label⟩ := pair
      obtain rfl : connector' = some (arrow, label.map collapseBlanks) := read
      obtain rfl : behindArrow' = collapseBlanks behindArrow := remains rfl
      simp only [takeEndpoint_collapse]
      obtain ⟨target, rest⟩ := takeEndpoint behindArrow
      cases target <;> rfl

theorem declarations_collapse (t : Text) :
    declarations (collapseBlanks t) = (declarations t).map Node.collapsed := by
  induction t using runs_induction with
  | nil => simp [declarations]
  | run w r blanks first ih =>
    rw [collapse_append_of_ink w first, declarations_walk.blanks (collapse_blanks_blank blanks), ih,
      declarations_walk.blanks blanks]
  | ink c r ink ih =>
    have starts : Starts collapseBlanks (c :: r) (c :: collapseBlanks r) := by
      intro mark solid
      rw [← collapse_ink ink, collapse_keeps.after solid]
    have inline := inlineLabel?_keeps collapse_keeps starts
    rw [collapse_ink ink]
    by_cases delimits : c = '|' ∨ c = '"'
    · have final : passDelimited c (c :: r) <:+ r := by simpa using passDelimited_suffix c (c :: r)
      rw [declarations_delimited delimits, declarations_delimited delimits]
      rcases passDelimited_keeps collapse_keeps (delimiter_solid delimits) r with closed | ⟨ended, ended'⟩
      · rw [closed, ih _ final]
      · rw [ended, ended', declarations]
        rfl
    · have plain : c ≠ '|' ∧ c ≠ '"' := by simpa using delimits
      cases labelled : inlineLabel? (c :: r) with
      | some parts =>
        obtain ⟨raw, behind⟩ := parts
        have final : behind <:+ r := by
          have := inlineLabel?_suffix labelled
          exact this.trans (by simpa using List.drop_suffix 1 r)
        rw [labelled] at inline
        rw [declarations_inline plain inline, ih _ final, declarations_inline plain labelled]
      | none =>
        rw [labelled] at inline
        by_cases idChar : isIdChar c
        · obtain ⟨read, remains⟩ := span_collapse (p := isIdChar) (fun _ => idChar_not_blank) r
          have final : (takeShape (r.dropWhile isIdChar)).2 <:+ r :=
            (takeShape_suffix _).trans (List.dropWhile_suffix _)
          rw [declarations_word idChar, read, remains, takeShape_keeps collapse_keeps, declarations_word idChar,
            List.map_append, ← ih _ final, Prod.map_fst, Prod.map_snd]
          cases (takeShape (r.dropWhile isIdChar)).1 <;> rfl
        · have noId : isIdChar c = false := by simpa using idChar
          rw [declarations_cons plain inline noId, declarations_cons plain labelled noId, ih r (List.suffix_refl r)]

/-! ### Whole lines -/

theorem firstWord_collapse (t : Text) : (collapseBlanks t).firstWord = t.firstWord := by
  have ink : ∀ c, (!isWhite c) = true → isBlank c = false := fun c noWhite => isBlank_of_ink (by simpa using noWhite)
  rw [firstWord, trimStart_collapse, (span_collapse ink _).1, firstWord]

theorem statementOf_collapse (t : Text) : statementOf (collapseBlanks t) = (statementOf t).collapsed := by
  have percents : Ink ['%', '%'] := by decide
  have skipped : ((collapseBlanks t).isEmpty || isComment (collapseBlanks t) || startsDirective (collapseBlanks t)) =
      (t.isEmpty || isComment t || startsDirective t) := by
    have empty : (collapseBlanks t).isEmpty = t.isEmpty := by
      rw [Bool.eq_iff_iff, List.isEmpty_iff, List.isEmpty_iff, collapse_eq_nil]
    rw [empty, isComment_eq, isComment_eq, after?_collapse percents, Option.isSome_map, startsDirective,
      firstWord_collapse, startsDirective]
  unfold statementOf
  rw [skipped, declarations_collapse, link?_collapse]
  split
  · rfl
  · simp only [List.isEmpty_map, Option.isNone_map]
    split <;> rfl

theorem parse_collapse (line : Text) : parse (collapseBlanks line) = (parse line).collapsed := by
  rw [parse, trim_collapse, statementOf_collapse, parse]

end Line
end Flowchart
