import Mathlib.Tactic.Common
import Flowchart.Line.Statement
import Flowchart.Proofs.Text.Punctuation
import Flowchart.Repair.Noise

/-!
Scanners that look for marks. The scanners of brackets, labels and connectors take a text apart at marks and
look at nothing else. So where a change of a text keeps all marks in place (`Keeps`), they read what they read
before, with the change made to the pieces that they give (`takeShape_keeps`, `takeLabel_keeps`,
`takeConnector_keeps`).
-/
namespace Flowchart.Line
open Text

/-- A mark of characters that are neither blanks nor capitals. -/
structure Solid (mark : Text) : Prop where
  filled : mark ≠ []
  solid : ∀ c ∈ mark, isBlank c = false ∧ isCapital c = false

instance (mark : Text) : Decidable (Solid mark) :=
  decidable_of_iff (mark ≠ [] ∧ mark.all fun c => decide (isBlank c = false ∧ isCapital c = false))
    ⟨fun both => ⟨both.1, by simpa using both.2⟩, fun solid => ⟨solid.filled, by simpa using solid.solid⟩⟩

theorem opening_solid : ∀ b ∈ Bracket.all, Solid b.opening := by decide

theorem closing_solid : ∀ b ∈ Bracket.all, Solid b.closing := by decide

theorem token_solid : ∀ pair ∈ Arrow.tokens, Solid pair.1 := by decide

/-- Changing `t` to `rest t` keeps all marks in place. The text behind a mark changes in the same way, a piece in
    front of one as `piece` says; and labels are read off the changed pieces. -/
structure Keeps (rest piece : Text → Text) : Prop where
  after : ∀ {mark}, Solid mark → ∀ t, after? mark (rest t) = (after? mark t).map rest
  afterBlanks : ∀ {mark}, Solid mark → ∀ t, after? mark (passBlanks (rest t)) = (after? mark (passBlanks t)).map rest
  cut : ∀ {mark}, Solid mark → ∀ t, Text.cut mark (rest t) = (Text.cut mark t).map (Prod.map piece rest)
  quoted : ∀ t, splitQuoted (rest t) = Prod.map piece rest (splitQuoted t)
  behindQuoted : ∀ t s, piece ((splitQuoted t).1 ++ s) = piece (splitQuoted t).1 ++ piece s
  bracket : ∀ {b}, b ∈ Bracket.all → ∀ s, piece (b.opening ++ s ++ b.closing) = b.opening ++ piece s ++ b.closing
  shape : ∀ s, shapeAndLabel (piece s) = Prod.map id piece (shapeAndLabel s)
  label : ∀ raw, linkLabel (piece raw) = (linkLabel raw).map piece

/-! ### Scanners as searches for marks -/

theorem after?_isSome {c : Char} {t : Text} : (after? [c] t).isSome ↔ t.head? = some c := by
  cases t with
  | nil => simp [after?]
  | cons d r => by_cases same : c = d <;> simp [after?, same, eq_comm]

theorem splitQuoted_eq (t : Text) :
    splitQuoted t = match (after? ['"'] (passBlanks t)).bind (cut ['"']) with
      | some (inner, rest) => (t.takeWhile isBlank ++ '"' :: inner ++ ['"'], rest)
      | none => ([], t) := by
  unfold splitQuoted passBlanks
  split
  · next r shape =>
    rw [shape]
    cases found : cut ['"'] r <;> simp [after?, found]
  · next other =>
    have none : after? ['"'] (t.dropWhile isBlank) = none := by
      rw [← Option.not_isSome_iff_eq_none, after?_isSome]
      intro first
      obtain ⟨r, shape⟩ := List.head?_eq_some_iff.1 first
      exact other r shape
    rw [none]
    rfl

theorem takeLabel_eq (t : Text) :
    takeLabel t = match (after? ['|'] (passBlanks t)).bind (cut ['|']) with
      | some (raw, rest) => (linkLabel raw, rest)
      | none => (none, t) := by
  unfold takeLabel
  split
  · next r shape =>
    rw [shape]
    cases found : cut ['|'] r <;> simp [after?, found]
  · next other =>
    have none : after? ['|'] (passBlanks t) = none := by
      rw [← Option.not_isSome_iff_eq_none, after?_isSome]
      intro first
      obtain ⟨r, shape⟩ := List.head?_eq_some_iff.1 first
      exact other r shape
    rw [none]
    rfl

theorem inlineLabel?_eq (t : Text) :
    inlineLabel? t = (after? ['-', '-'] t).bind fun behind =>
      if (after? ['>'] behind).isSome || (after? ['-'] behind).isSome then none else cut ['-', '-', '>'] behind := by
  unfold inlineLabel?
  split
  · next r =>
    have split : after? ['-', '-'] ('-' :: '-' :: r) = some r := by simp [after?]
    simp [split, after?_isSome]
  · next other =>
    cases found : after? ['-', '-'] t with
    | none => rfl
    | some r => exact absurd (after?_eq_some.1 found) (other r)

theorem isComment_eq (t : Text) : isComment t = (after? ['%', '%'] t).isSome := by
  unfold isComment
  split
  · simp [after?]
  · next other =>
    cases found : after? ['%', '%'] t with
    | none => rfl
    | some r => exact absurd (after?_eq_some.1 found) (other r)

/-! ### The walk along a line -/

theorem declarations_delimited {c : Char} (delimits : c = '|' ∨ c = '"') (t : Text) :
    declarations (c :: t) = declarations (passDelimited c (c :: t)) := by
  rw [declarations, if_pos (by simpa using delimits)]

theorem declarations_inline {c : Char} {t raw behind : Text} (plain : c ≠ '|' ∧ c ≠ '"')
    (labelled : inlineLabel? (c :: t) = some (raw, behind)) : declarations (c :: t) = declarations behind := by
  rw [declarations, if_neg (by simp [plain])]
  split
  · next found =>
    rw [labelled] at found
    rw [(Prod.mk.inj (Option.some.inj found)).2]
  · next found => rw [labelled] at found; cases found

theorem declarations_cons {c : Char} {t : Text} (plain : c ≠ '|' ∧ c ≠ '"') (noLabel : inlineLabel? (c :: t) = none)
    (noId : isIdChar c = false) : declarations (c :: t) = declarations t := by
  rw [declarations, if_neg (by simp [plain])]
  split
  · next found => rw [noLabel] at found; cases found
  · rw [if_neg (by simp [noId])]

theorem delimiter_solid {c : Char} (delimits : c = '|' ∨ c = '"') : Solid [c] := by
  rcases delimits with rfl | rfl <;> decide

theorem inlineLabel?_of_no_dash {c : Char} (other : c ≠ '-') (t : Text) : inlineLabel? (c :: t) = none := by
  unfold inlineLabel?
  split
  · next same => exact absurd (List.cons.inj same).1 other
  · rfl

/-- A run of id characters declares what the brackets behind it hold. -/
theorem declarations_word {c : Char} (idChar : isIdChar c) (t : Text) :
    declarations (c :: t) =
      ((takeShape (t.dropWhile isIdChar)).1.map fun (shape, label) =>
        (⟨c :: t.takeWhile isIdChar, label, shape⟩ : Node)).toList ++
        declarations (takeShape (t.dropWhile isIdChar)).2 := by
  have noPipe : c ≠ '|' := idChar_ne idChar (by decide)
  have noQuote : c ≠ '"' := idChar_ne idChar (by decide)
  have noLabel := inlineLabel?_of_no_dash (idChar_ne idChar (by decide)) t
  rw [declarations, if_neg (by simp [noPipe, noQuote])]
  split
  · next found => rw [noLabel] at found; cases found
  · rw [if_pos idChar]

/-- A walk along a line that collects what stands at ids. It passes over delimited texts, over labels with their
    connectors, and over single characters that are no part of an id. -/
structure Walk {α : Type} (walk : Text → List α) : Prop where
  delimited : ∀ {c : Char}, c = '|' ∨ c = '"' → ∀ t, walk (c :: t) = walk (passDelimited c (c :: t))
  inline : ∀ {c : Char} {t raw behind : Text}, c ≠ '|' ∧ c ≠ '"' → inlineLabel? (c :: t) = some (raw, behind) →
    walk (c :: t) = walk behind
  cons : ∀ {c : Char} {t : Text}, c ≠ '|' ∧ c ≠ '"' → inlineLabel? (c :: t) = none → isIdChar c = false →
    walk (c :: t) = walk t

theorem declarations_walk : Walk declarations := ⟨declarations_delimited, declarations_inline, declarations_cons⟩

theorem Walk.blanks {α : Type} {walk : Text → List α} (walks : Walk walk) {w : Text} (blanks : ∀ c ∈ w, isBlank c)
    (t : Text) : walk (w ++ t) = walk t := by
  induction w with
  | nil => rfl
  | cons c w ih =>
    have later := ih fun d member => blanks d (List.mem_cons_of_mem _ member)
    have blank := blanks c List.mem_cons_self
    have noId : isIdChar c = false := isIdChar_of_isBlank blank
    have noDash : c ≠ '-' := by
      rintro rfl
      cases blank
    have plain : c ≠ '|' ∧ c ≠ '"' := by
      constructor
      all_goals
        rintro rfl
        cases blank
    rw [List.cons_append, walks.cons plain (inlineLabel?_of_no_dash noDash _) noId, later]

/-! ### What they read of a changed text -/

theorem findSome?_keeps {α β γ : Type} {f : α → Option β} {k : α → Option γ} {g : β → γ} {l : List α}
    (each : ∀ a ∈ l, k a = (f a).map g) : l.findSome? k = (l.findSome? f).map g := by
  induction l with
  | nil => rfl
  | cons a l ih =>
    rw [List.findSome?_cons, List.findSome?_cons, each a List.mem_cons_self]
    cases f a with
    | none => exact ih fun b member => each b (List.mem_cons_of_mem _ member)
    | some b => rfl

/-- A text that holds the marks that another holds at its start, with the texts behind them changed. -/
def Starts (rest : Text → Text) (t t' : Text) : Prop := ∀ {mark}, Solid mark → after? mark t' = (after? mark t).map rest

variable {rest piece : Text → Text} (keeps : Keeps rest piece)

theorem arrowToken?_keeps {t t' : Text} (starts : Starts rest t t') :
    arrowToken? t' = (arrowToken? t).map (Prod.map id rest) := by
  refine findSome?_keeps fun (token, arrow) member => ?_
  have behind : after? token t' = (after? token t).map rest := starts (token_solid _ member)
  simp only [behind, Option.map_map]
  rfl

include keeps

theorem inlineLabel?_keeps {t t' : Text} (starts : Starts rest t t') :
    inlineLabel? t' = (inlineLabel? t).map (Prod.map piece rest) := by
  have dashes : Solid ['-', '-'] := by decide
  have arrow : Solid ['-', '-', '>'] := by decide
  have head : Solid ['>'] := by decide
  have dash : Solid ['-'] := by decide
  rw [inlineLabel?_eq, inlineLabel?_eq, starts dashes]
  cases after? ['-', '-'] t with
  | none => rfl
  | some r =>
    simp only [Option.map_some, Option.bind_some, keeps.after head, keeps.after dash, Option.isSome_map,
      keeps.cut arrow]
    split <;> rfl

theorem enclosed?_keeps (t : Text) :
    enclosed? (rest t) = (enclosed? t).map fun e => ⟨e.bracket, piece e.body, rest e.rest⟩ := by
  refine findSome?_keeps fun b member => ?_
  unfold Bracket.enclosed?
  rw [keeps.after (opening_solid b member)]
  cases after? b.opening t with
  | none => rfl
  | some inside =>
    simp only [Option.map_some, Option.bind_eq_bind, Option.bind_some, keeps.quoted, Prod.map_fst, Prod.map_snd,
      keeps.cut (closing_solid b member)]
    cases Text.cut b.closing (splitQuoted inside).2 with
    | none => rfl
    | some parts => simp [keeps.behindQuoted]

theorem takeShape_keeps (t : Text) :
    takeShape (rest t) = Prod.map (Option.map (Prod.map id piece)) rest (takeShape t) := by
  unfold takeShape
  rw [enclosed?_keeps keeps]
  cases found : enclosed? t with
  | none => rfl
  | some e =>
    obtain ⟨member, -⟩ := enclosed?_eq_some found
    simp only [Option.map_some, Enclosed.declaration, Prod.map_apply, ← keeps.shape, keeps.bracket member]

theorem takeLabel_keeps (t : Text) : takeLabel (rest t) = Prod.map (Option.map piece) rest (takeLabel t) := by
  have pipe : Solid ['|'] := by decide
  rw [takeLabel_eq, takeLabel_eq, keeps.afterBlanks pipe]
  cases after? ['|'] (passBlanks t) with
  | none => rfl
  | some r =>
    simp only [Option.map_some, Option.bind_some, keeps.cut pipe]
    cases Text.cut ['|'] r with
    | none => rfl
    | some parts => simp [keeps.label]

/-- A connector is read with the changed label and leaves the changed text behind it. -/
theorem takeConnector_keeps (t : Text) :
    (takeConnector (rest t)).1 = (takeConnector t).1.map (Prod.map id (Option.map piece)) ∧
      ((takeConnector t).1.isSome → (takeConnector (rest t)).2 = rest (takeConnector t).2) := by
  have starts : Starts rest (passBlanks t) (passBlanks (rest t)) := fun solid => keeps.afterBlanks solid t
  have inline := inlineLabel?_keeps keeps starts
  unfold takeConnector
  rw [arrowToken?_keeps starts]
  cases arrowToken? (passBlanks t) with
  | some found => simp [takeLabel_keeps keeps]
  | none =>
    simp only [Option.map_none, inline]
    cases inlineLabel? (passBlanks t) with
    | none => simp
    | some found => simp [keeps.label]

/-- Passing over a delimited text ends at the same mark, or at the end of both texts. -/
theorem passDelimited_keeps {mark : Char} (solid : Solid [mark]) (t : Text) :
    passDelimited mark (mark :: rest t) = rest (passDelimited mark (mark :: t)) ∨
      passDelimited mark (mark :: rest t) = [] ∧ passDelimited mark (mark :: t) = [] := by
  simp only [passDelimited, List.drop_succ_cons, List.drop_zero, keeps.cut solid]
  cases Text.cut [mark] t with
  | none => exact .inr ⟨rfl, rfl⟩
  | some parts => exact .inl rfl

end Flowchart.Line
