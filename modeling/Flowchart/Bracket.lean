import Flowchart.Graph.Basic

/-!
Brackets: the pairs of delimiters around a node label, each of which stands for a shape. The
pairs nest (`((x))` holds `(x)`), so they are tried from the most specific to the least.
`shapeAndLabel` reads a whole declaration such as `{Decide}`; `enclosed?` finds the declaration that
a text starts with, up to the first closing delimiter behind an optional quoted label.
-/
namespace Flowchart

/-- A pair of delimiters and the shape it stands for. -/
structure Bracket where
  opening : Text
  closing : Text
  shape : Shape
  deriving DecidableEq, Repr

namespace Bracket

/-- All pairs, the most specific first. -/
def all : List Bracket :=
  [⟨['{', '{'], ['}', '}'], .hexagon⟩,
   ⟨['{'], ['}'], .diamond⟩,
   ⟨['(', '('], [')', ')'], .circle⟩,
   ⟨['[', '('], [')', ']'], .cylinder⟩,
   ⟨['(', '['], [']', ')'], .rounded⟩,
   ⟨['('], [')'], .rounded⟩,
   ⟨['[', '/'], ['/', ']'], .parallelogram⟩,
   ⟨['[', '\\'], ['\\', ']'], .parallelogram⟩,
   ⟨['['], [']'], .rectangle⟩]

/-- The pair that a shape is written with. -/
def ofShape : Shape → Bracket
  | .rectangle => ⟨['['], [']'], .rectangle⟩
  | .diamond => ⟨['{'], ['}'], .diamond⟩
  | .rounded => ⟨['('], [')'], .rounded⟩
  | .hexagon => ⟨['{', '{'], ['}', '}'], .hexagon⟩
  | .parallelogram => ⟨['[', '/'], ['/', ']'], .parallelogram⟩
  | .cylinder => ⟨['[', '('], [')', ']'], .cylinder⟩
  | .circle => ⟨['(', '('], [')', ')'], .circle⟩

end Bracket

/-- A label without the white space and the one pair of double quotes around it. -/
def unquote (label : Text) : Text :=
  match Text.between? ['"'] ['"'] label.trim with
  | some inner => inner.trim
  | none => label.trim

/-- The shape and label of a whole declaration. Without brackets it is a rectangle that shows
    the declaration itself. -/
def shapeAndLabel (declaration : Text) : Shape × Text :=
  let found := Bracket.all.findSome? fun b =>
    (Text.between? b.opening b.closing declaration.trim).map fun inner => (b.shape, unquote inner)
  found.getD (.rectangle, declaration.trim)

/-- A text between brackets: what is inside, and what follows the closing delimiter. -/
structure Enclosed where
  bracket : Bracket
  body : Text
  rest : Text
  deriving DecidableEq, Repr

namespace Enclosed

/-- The declaration with its delimiters. -/
def declaration (e : Enclosed) : Text := e.bracket.opening ++ e.body ++ e.bracket.closing

end Enclosed

/-- Splits off a double-quoted text with the blanks before it; nothing when the text does not
    start so. -/
def splitQuoted (t : Text) : Text × Text :=
  match t.dropWhile isBlank with
  | '"' :: r =>
    match Text.cut ['"'] r with
    | some (inner, rest) => (t.takeWhile isBlank ++ '"' :: inner ++ ['"'], rest)
    | none => ([], t)
  | _ => ([], t)

/-- The text between a pair of delimiters that starts with the opening one and ends at the
    first closing one behind a quoted label. -/
def Bracket.enclosed? (b : Bracket) (t : Text) : Option Enclosed := do
  let inside ← Text.after? b.opening t
  let (quoted, behind) := splitQuoted inside
  let (body, rest) ← Text.cut b.closing behind
  return ⟨b, quoted ++ body, rest⟩

/-- The declaration that a text starts with: of the pairs that open and close there, the most
    specific. -/
def enclosed? (t : Text) : Option Enclosed := Bracket.all.findSome? (·.enclosed? t)

/-- Splitting off a quoted text loses nothing. -/
theorem splitQuoted_append (t : Text) : (splitQuoted t).1 ++ (splitQuoted t).2 = t := by
  unfold splitQuoted
  split
  · next r h =>
    split
    · next inner rest hc =>
      have := Text.cut_eq_some hc
      conv => rhs; rw [← List.takeWhile_append_dropWhile (p := isBlank) (l := t), h, this]
      simp
    · rfl
  · rfl

/-- An enclosed text is read off the front. -/
theorem Bracket.enclosed?_eq_some {b : Bracket} {t : Text} {e : Enclosed} (h : b.enclosed? t = some e) :
    e.bracket = b ∧ t = e.declaration ++ e.rest := by
  simp only [enclosed?, Option.bind_eq_bind, Option.bind_eq_some_iff] at h
  obtain ⟨inside, hi, ⟨body, rest⟩, hc, he⟩ := h
  obtain rfl := Option.some.inj he
  have h1 := Text.after?_eq_some.1 hi
  have h2 := Text.cut_eq_some hc
  have h3 := splitQuoted_append inside
  refine ⟨rfl, ?_⟩
  calc t = b.opening ++ ((splitQuoted inside).1 ++ (splitQuoted inside).2) := by rw [h3, h1]
    _ = _ := by rw [h2]; simp [Enclosed.declaration]

theorem enclosed?_eq_some {t : Text} {e : Enclosed} (h : enclosed? t = some e) :
    e.bracket ∈ Bracket.all ∧ t = e.declaration ++ e.rest := by
  obtain ⟨b, hb, hbe⟩ := List.exists_of_findSome?_eq_some h
  obtain ⟨rfl, ht⟩ := Bracket.enclosed?_eq_some hbe
  exact ⟨hb, ht⟩

end Flowchart
