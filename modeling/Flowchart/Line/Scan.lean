import Flowchart.Bracket

/-!
Scanners for the pieces of one line. A scanner gives what it has read, or nothing, and the text
that remains; what remains is always an end of the text it was given (`suffix` lemmas). A
scanner that reads nothing may still have passed over blanks.
-/
namespace Flowchart.Line

/-- What a scanner has read, and the text that remains. -/
abbrev Scanned (α : Type) := Option α × Text

/-- How a connector is drawn. -/
inductive Arrow where
  | solid | dotted | thick
  deriving DecidableEq, Repr

/-- The written connectors, in the order in which they are tried. -/
def Arrow.tokens : List (Text × Arrow) :=
  [(['-', '-', '>'], .solid), (['-', '.', '-', '>'], .dotted), (['=', '=', '>'], .thick)]

/-- An edge that one line states. -/
structure Link where
  source : Text
  target : Text
  label : Option Text
  arrow : Arrow
  deriving DecidableEq, Repr

/-- Dotted links are drawn animated. -/
def Link.animated (l : Link) : Bool := l.arrow = .dotted

/-- The label that a written edge label stands for; an empty one stands for none. -/
def linkLabel (raw : Text) : Option Text :=
  if (unquote raw).isEmpty then none else some (unquote raw)

/-- Passes over spaces and tabs. -/
def passBlanks (t : Text) : Text := t.dropWhile isBlank

/-- Passes over one character and everything to the next `mark`, or to the end. -/
def passDelimited (mark : Char) (t : Text) : Text :=
  match Text.cut [mark] (t.drop 1) with
  | some (_, rest) => rest
  | none => []

/-- The raw label of an inline connector `-- label -->`, and what follows. -/
def inlineLabel? : Text → Option (Text × Text)
  | '-' :: '-' :: t =>
    if t.head? = some '>' || t.head? = some '-' then none else Text.cut ['-', '-', '>'] t
  | _ => none

/-- A node id: the longest run of id characters. -/
def takeId (t : Text) : Scanned Text :=
  if (t.takeWhile isIdChar).isEmpty then (none, t)
  else (some (t.takeWhile isIdChar), t.dropWhile isIdChar)

/-- The shape and label of a declaration that starts here. -/
def takeShape (t : Text) : Scanned (Shape × Text) :=
  match enclosed? t with
  | some e => (some (shapeAndLabel e.declaration), e.rest)
  | none => (none, t)

/-- A node id with the declaration right behind it, which is passed over. -/
def takeEndpoint (t : Text) : Scanned Text :=
  match takeId (passBlanks t) with
  | (some id, rest) => (some id, (takeShape rest).2)
  | (none, rest) => (none, rest)

/-- An edge label between two pipes. Without both pipes nothing is passed over. -/
def takeLabel (t : Text) : Scanned Text :=
  match passBlanks t with
  | '|' :: r =>
    match Text.cut ['|'] r with
    | some (raw, rest) => (linkLabel raw, rest)
    | none => (none, t)
  | _ => (none, t)

/-- The connector token that a text starts with. -/
def arrowToken? (t : Text) : Option (Arrow × Text) :=
  Arrow.tokens.findSome? fun (token, arrow) => (Text.after? token t).map (arrow, ·)

/-- A connector and its label: a token with a label between pipes, or the inline form. -/
def takeConnector (t : Text) : Scanned (Arrow × Option Text) :=
  match arrowToken? (passBlanks t) with
  | some (arrow, rest) => (some (arrow, (takeLabel rest).1), (takeLabel rest).2)
  | none =>
    match inlineLabel? (passBlanks t) with
    | some (raw, rest) => (some (.solid, linkLabel raw), rest)
    | none => (none, passBlanks t)

/-- The link that a text starts with; nothing is passed over when there is none. -/
def takeLink (t : Text) : Scanned Link :=
  match takeEndpoint t with
  | (some source, behindSource) =>
    match takeConnector behindSource with
    | (some (arrow, label), behindArrow) =>
      match takeEndpoint behindArrow with
      | (some target, rest) => (some ⟨source, target, label, arrow⟩, rest)
      | (none, _) => (none, t)
    | (none, _) => (none, t)
  | (none, _) => (none, t)

/-! ### What remains is an end of the text -/

theorem passBlanks_suffix (t : Text) : passBlanks t <:+ t := List.dropWhile_suffix _

theorem cut_suffix {mark t before after : Text} (h : Text.cut mark t = some (before, after)) :
    after <:+ t := ⟨before ++ mark, (Text.cut_eq_some h).symm⟩

theorem passDelimited_suffix (mark : Char) (t : Text) : passDelimited mark t <:+ t.drop 1 := by
  unfold passDelimited
  split
  · next h => exact cut_suffix h
  · exact List.nil_suffix

theorem inlineLabel?_suffix {t raw rest : Text} (h : inlineLabel? t = some (raw, rest)) :
    rest <:+ t.drop 2 := by
  unfold inlineLabel? at h
  split at h
  · split at h
    · simp at h
    · simpa using cut_suffix h
  · simp at h

theorem takeId_suffix (t : Text) : (takeId t).2 <:+ t := by
  unfold takeId
  split
  · exact List.suffix_refl t
  · exact List.dropWhile_suffix _

theorem takeShape_suffix (t : Text) : (takeShape t).2 <:+ t := by
  unfold takeShape
  split
  · next e h => exact ⟨e.declaration, (enclosed?_eq_some h).2.symm⟩
  · exact List.suffix_refl t

theorem takeEndpoint_suffix (t : Text) : (takeEndpoint t).2 <:+ t := by
  have h := (takeId_suffix (passBlanks t)).trans (passBlanks_suffix t)
  unfold takeEndpoint
  split
  · next hid => rw [hid] at h; exact (takeShape_suffix _).trans h
  · next hid => rw [hid] at h; exact h

theorem takeLabel_suffix (t : Text) : (takeLabel t).2 <:+ t := by
  unfold takeLabel
  split
  · next r hr =>
    split
    · next hc =>
      have h := passBlanks_suffix t
      rw [hr] at h
      exact ((cut_suffix hc).trans (List.suffix_cons _ _)).trans h
    · exact List.suffix_refl t
  · exact List.suffix_refl t

theorem arrowToken?_suffix {t rest : Text} {arrow : Arrow} (h : arrowToken? t = some (arrow, rest)) :
    rest <:+ t := by
  obtain ⟨⟨token, a⟩, -, ht⟩ := List.exists_of_findSome?_eq_some h
  obtain ⟨r, hp, hr⟩ := Option.map_eq_some_iff.1 ht
  obtain ⟨-, rfl⟩ := Prod.mk.inj hr
  exact ⟨token, (Text.after?_eq_some.1 hp).symm⟩

theorem takeConnector_suffix (t : Text) : (takeConnector t).2 <:+ t := by
  have h := passBlanks_suffix t
  unfold takeConnector
  split
  · next ha => exact ((takeLabel_suffix _).trans (arrowToken?_suffix ha)).trans h
  · split
    · next hi => exact ((inlineLabel?_suffix hi).trans (List.drop_suffix _ _)).trans h
    · exact h

theorem takeLink_suffix (t : Text) : (takeLink t).2 <:+ t := by
  have source := takeEndpoint_suffix t
  unfold takeLink
  split
  · next hs =>
    rw [hs] at source
    have connector := takeConnector_suffix _ |>.trans source
    split
    · next ha =>
      rw [ha] at connector
      have target := takeEndpoint_suffix _ |>.trans connector
      split
      · next ht => rw [ht] at target; exact target
      · exact List.suffix_refl t
    · exact List.suffix_refl t
  · exact List.suffix_refl t

end Flowchart.Line
