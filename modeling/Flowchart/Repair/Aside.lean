import Flowchart.Text.Basic

/-!
Asides in node labels. `id[Before (aside) After]` becomes `id[Before After - aside]`, one aside
of each label a round, until no label changes. Only bodies between square brackets right behind
a word character or an opening parenthesis are labels here; edge labels between pipes are not
touched. A round that changes a text takes parentheses away, which bounds the rounds.
-/
namespace Flowchart

/-- Repeats a step until it changes nothing, `fuel` times at most. The result is what the step
    leads to, with the number of times it changed something. -/
def settle [DecidableEq α] (step : α → α) : (fuel : Nat) → α → α × Nat
  | 0, a => (a, 0)
  | fuel + 1, a =>
    let b := step a
    if b = a then (a, 0)
    else
      let settled := settle step fuel b
      (settled.1, settled.2 + 1)

namespace Repair

/-- A label cut at its innermost aside. -/
structure Aside where
  before : Text
  inside : Text
  after : Text
  deriving DecidableEq, Repr

/-- The first `)` closes the innermost aside, and the last `(` before it opens it. -/
def aside? (label : Text) : Option Aside := do
  let (upTo, after) ← Text.cut [')'] label
  let (before, inside) ← Text.cutLast ['('] upTo
  return ⟨before.trimEnd, inside.trim, after.trimStart⟩

/-- Two texts with a space between them, unless one is empty. -/
def joinWords (s t : Text) : Text :=
  if s.isEmpty || t.isEmpty then s ++ t else s ++ ' ' :: t

/-- The label with its aside at the end. -/
def Aside.moved (a : Aside) : Text :=
  let head := joinWords a.before a.after
  if head.trim.isEmpty then a.inside
  else if a.inside.isEmpty then head
  else head ++ " - ".toList ++ a.inside

/-- A quoted label. -/
def isQuoted (label : Text) : Bool := label.trimStart.head? = some '"'

/-- A label in a pair of parentheses, as a cylinder has it. -/
def isParenthesized (label : Text) : Bool := label.head? = some '(' && label.getLast? = some ')'

/-- Moves the innermost aside to the end of the label, if the label has one to repair. -/
def moveAside (label : Text) : Option Text :=
  if isQuoted label || isParenthesized label then none else (aside? label).map Aside.moved

/-- The body of a parallelogram: the slash at its ends and what is between. -/
def slashed? (body : Text) : Option (Char × Text) :=
  match Text.between? ['/'] ['/'] body with
  | some inner => some ('/', inner)
  | none => (Text.between? ['\\'] ['\\'] body).map ('\\', ·)

/-- Repairs a body between square brackets; the slashes of a parallelogram stay in place. -/
def repairBody (body : Text) : Text :=
  match slashed? body with
  | some (slash, inner) => ((moveAside inner).map fun label => slash :: label ++ [slash]).getD body
  | none => (moveAside body).getD body

/-- No square bracket and no newline. -/
def inBody (c : Char) : Bool := c ≠ '[' && c ≠ ']' && c ≠ '\n'

/-- The body between square brackets that a text starts with, and what follows. -/
def bracketBody? : Text → Option (Text × Text)
  | '[' :: r =>
    match r.dropWhile inBody with
    | ']' :: rest => some (r.takeWhile inBody, rest)
    | _ => none
  | _ => none

/-- A label may open behind this character. -/
def opensLabel (c : Char) : Bool := isWordChar c || c = '('

theorem bracketBody?_length {t body rest : Text} (h : bracketBody? t = some (body, rest)) :
    rest.length < t.length := by
  unfold bracketBody? at h
  split at h
  · next r =>
    split at h
    · next rest' hd =>
      obtain ⟨-, rfl⟩ := Prod.mk.inj (Option.some.inj h)
      have := (List.dropWhile_suffix inBody (l := r)).length_le
      rw [hd] at this
      simp only [List.length_cons] at this ⊢
      omega
    · simp at h
  · simp at h

/-- Repairs every label of a piece of text. -/
def repairLabels : Text → Text
  | [] => []
  | c :: r =>
    match _h : if opensLabel c then bracketBody? r else none with
    | some (body, rest) => c :: '[' :: repairBody body ++ ']' :: repairLabels rest
    | none => c :: repairLabels r
termination_by t => t.length
decreasing_by
  · split at _h
    · have := bracketBody?_length _h
      simp only [List.length_cons]
      omega
    · simp at _h
  · simp

/-- Runs `f` over the parts of a line outside edge labels. A pipe opens an edge label when
    another one follows and it is not inside double quotes. `plain` is the part read so far,
    in reverse. -/
def outsideEdgeLabels (f : Text → Text) (plain : Text) (quoted : Bool) : Text → Text
  | [] => f plain.reverse
  | c :: r =>
    match _h : if c = '|' && !quoted then Text.cut ['|'] r else none with
    | some (label, rest) => f plain.reverse ++ '|' :: label ++ '|' :: outsideEdgeLabels f [] false rest
    | none => outsideEdgeLabels f (c :: plain) (quoted ^^ c = '"') r
termination_by t => t.length
decreasing_by
  · split at _h
    · have := congrArg List.length (Text.cut_eq_some _h)
      simp only [List.length_append, List.length_cons] at this ⊢
      omega
    · simp at _h
  · simp

/-- One round over every line. -/
def asideRound (t : Text) : Text :=
  Text.joinRows (t.rows.map (outsideEdgeLabels repairLabels [] false))

/-- Moves asides until no label changes. -/
def repairAsides (t : Text) : Text := (settle asideRound (t.count '(' + 1) t).1

end Repair
end Flowchart
