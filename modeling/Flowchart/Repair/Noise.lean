import Flowchart.Text.Basic

/-!
Noise around a diagram: code fences, capital tokens left over behind a bracket, runs of blanks,
and lines that hold nothing. Each removal is a step of its own.
-/
namespace Flowchart.Repair

/-- A newline takes the carriage return before it along. -/
def dropReturns : Text → Text
  | '\r' :: '\n' :: r => '\n' :: dropReturns r
  | c :: r => c :: dropReturns r
  | [] => []

/-- Three backticks. -/
def fence : Text := ['\x60', '\x60', '\x60']

/-- Deletes every fence, from the left. -/
def dropFences : Text → Text
  | '\x60' :: '\x60' :: '\x60' :: r => dropFences r
  | c :: r => c :: dropFences r
  | [] => []

/-- What remains behind blanks and at most one newline with blanks behind it. -/
def skipToToken (t : Text) : Text :=
  match t.dropWhile isBlank with
  | '\n' :: r => r.dropWhile isBlank
  | r => r

/-- The text is at the end of a line. -/
def endsLine (t : Text) : Bool := t.isEmpty || t.head? = some '\n'

/-- Two capital letters or more, alone up to the end of their line, behind a bracket on the same
    line or the one before: what remains behind them. -/
def trailingToken? (t : Text) : Option Text :=
  let token := skipToToken t
  let rest := (token.dropWhile isCapital).dropWhile isBlank
  if 2 ≤ (token.takeWhile isCapital).length && endsLine rest then some rest else none

theorem skipToToken_length (t : Text) : (skipToToken t).length ≤ t.length := by
  unfold skipToToken
  have h := (List.dropWhile_suffix isBlank (l := t)).length_le
  split
  · next r hr =>
    have := (List.dropWhile_suffix isBlank (l := r)).length_le
    rw [hr, List.length_cons] at h
    omega
  · exact h

theorem trailingToken?_length {t rest : Text} (h : trailingToken? t = some rest) :
    rest.length < t.length := by
  simp only [trailingToken?] at h
  split at h
  · next hc =>
    obtain rfl := Option.some.inj h
    simp only [Bool.and_eq_true, decide_eq_true_eq] at hc
    have h1 := skipToToken_length t
    have h2 := congrArg List.length
      (List.takeWhile_append_dropWhile (p := isCapital) (l := skipToToken t))
    have h3 := (List.dropWhile_suffix isBlank (l := (skipToToken t).dropWhile isCapital)).length_le
    simp only [List.length_append] at h2
    omega
  · simp at h

/-- Drops the capital token behind each closing square bracket. -/
def dropTrailingTokens : Text → Text
  | [] => []
  | c :: r =>
    match _h : if c = ']' then trailingToken? r else none with
    | some rest => ']' :: dropTrailingTokens rest
    | none => c :: dropTrailingTokens r
termination_by t => t.length
decreasing_by
  · split at _h
    · have := trailingToken?_length _h
      simp only [List.length_cons]
      omega
    · simp at _h
  · simp

/-- A run of two blanks or more becomes one space. -/
def collapseBlanks : Text → Text
  | [] => []
  | c :: r =>
    if isBlank c && r.head?.any isBlank then ' ' :: collapseBlanks (r.dropWhile isBlank)
    else c :: collapseBlanks r
termination_by t => t.length
decreasing_by
  · have := (List.dropWhile_suffix isBlank (l := r)).length_le
    simp only [List.length_cons]
    omega
  · simp

/-- The characters that make a line without words worth keeping. -/
def isStructural (c : Char) : Bool := c ∈ ['[', ']', '{', '}', '|', '-', '>', '<']

/-- The line holds an id character or a part of a bracket or an arrow. -/
def isMeaningful (line : Text) : Bool := line.trim.any fun c => isIdChar c || isStructural c

/-- Drops the lines that hold nothing, and the white space at the end of the others. -/
def dropNoiseLines (t : Text) : Text :=
  Text.joinRows ((t.lines.map Text.trimEnd).filter isMeaningful)

end Flowchart.Repair
