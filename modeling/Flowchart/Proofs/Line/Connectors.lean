import Flowchart.Proofs.Line.Marks
import Flowchart.Proofs.Text.Trim

/-!
Connectors as they may be spelled. Blanks may stand in front of a connector and in front of its label between pipes
(`takeConnector_token`, `takeLabel_pipes`). The inline form ends at the first arrow behind its dashes, so a label
that holds no arrow is read whole (`takeConnector_inline`).
-/
namespace Flowchart
open Text Line

namespace Text

/-- A text is cut behind a character that the mark does not hold, if the mark is not in front of it. -/
theorem cut_behind {mark front : Text} {c : Char} (foreign : c ∉ mark) (absent : ¬ mark <:+: front) (t : Text) :
    cut mark (front ++ c :: (mark ++ t)) = some (front ++ [c], t) := by
  have first : ¬ mark <:+: front ++ [c] ++ mark.dropLast := by
    rw [List.append_assoc, List.singleton_append, infix_append_cons foreign]
    rintro (before | behind)
    · exact absent before
    · have filled : mark ≠ [] := by
        rintro rfl
        exact absent List.nil_infix
      have short := behind.length_le
      have long := List.length_pos_iff.2 filled
      rw [List.length_dropLast] at short
      omega
  have found := cut_of_first first t
  rwa [List.append_assoc, List.append_assoc] at found

end Text

namespace Line

/-! ### Blanks -/

section
variable {w : Text} (blanks : ∀ c ∈ w, isBlank c)
include blanks

theorem passBlanks_append_blanks (t : Text) : passBlanks (w ++ t) = passBlanks t := List.dropWhile_append_of_pos blanks

theorem takeEndpoint_blanks (t : Text) : takeEndpoint (w ++ t) = takeEndpoint t := by
  rw [takeEndpoint, passBlanks_append_blanks blanks, takeEndpoint]

end

theorem passBlanks_ink {c : Char} (ink : isBlank c = false) (t : Text) : passBlanks (c :: t) = c :: t := by
  simp [passBlanks, ink]

/-! ### Labels between pipes -/

theorem takeLabel_pipes {w raw : Text} (blanks : ∀ c ∈ w, isBlank c) (clean : '|' ∉ raw) (t : Text) :
    takeLabel (w ++ '|' :: (raw ++ '|' :: t)) = (linkLabel raw, t) := by
  have closed : cut ['|'] (raw ++ '|' :: t) = some (raw, t) := cut_char clean
  rw [takeLabel, passBlanks_append_blanks blanks, passBlanks_ink (by decide)]
  simp [closed]

/-- Without a pipe there is no label to take. -/
theorem takeLabel_none {t : Text} (other : (passBlanks t).head? ≠ some '|') : takeLabel t = (none, t) := by
  unfold takeLabel
  split
  · next r shape =>
    rw [shape] at other
    exact absurd rfl other
  · rfl

/-! ### Connectors -/

theorem arrowToken?_token {token : Text} {arrow : Arrow} (known : (token, arrow) ∈ Arrow.tokens) (t : Text) :
    arrowToken? (token ++ t) = some (arrow, t) := by
  simp only [Arrow.tokens, List.mem_cons, Prod.mk.injEq, List.not_mem_nil, or_false] at known
  rcases known with ⟨rfl, rfl⟩ | ⟨rfl, rfl⟩ | ⟨rfl, rfl⟩
  all_goals simp [arrowToken?, Arrow.tokens, after?]

/-- An arrow starts with a character that is neither a blank nor a part of an id. -/
theorem token_cons {token : Text} {arrow : Arrow} (known : (token, arrow) ∈ Arrow.tokens) :
    ∃ c r, token = c :: r ∧ c ∈ ['-', '='] := by
  simp only [Arrow.tokens, List.mem_cons, Prod.mk.injEq, List.not_mem_nil, or_false] at known
  rcases known with ⟨rfl, rfl⟩ | ⟨rfl, rfl⟩ | ⟨rfl, rfl⟩
  all_goals exact ⟨_, _, rfl, by decide⟩

/-- The arrow that an inline label ends at. -/
def inlineEnd : Text := ['-', '-', '>']

section
variable {w : Text} (blanks : ∀ c ∈ w, isBlank c)
include blanks

/-- Behind an arrow a label is read, if there is one. -/
theorem takeConnector_token {token : Text} {arrow : Arrow} (known : (token, arrow) ∈ Arrow.tokens) (t : Text) :
    takeConnector (w ++ (token ++ t)) = (some (arrow, (takeLabel t).1), (takeLabel t).2) := by
  have passed : passBlanks (w ++ (token ++ t)) = token ++ t := by
    obtain ⟨c, r, rfl, member⟩ := token_cons known
    have ink : ∀ c ∈ ['-', '='], isBlank c = false := List.all_iff_forall_prop.1 (by decide)
    rw [passBlanks_append_blanks blanks, List.cons_append, passBlanks_ink (ink c member)]
  unfold takeConnector
  rw [passed, arrowToken?_token known]

/-- A label in the inline form is read like a label between pipes. -/
theorem takeConnector_inline {raw : Text} (absent : ¬ inlineEnd <:+: raw) (t : Text) :
    takeConnector (w ++ '-' :: '-' :: ' ' :: (raw ++ ' ' :: (inlineEnd ++ t))) = (some (.solid, linkLabel raw), t) := by
  have space : ¬ inlineEnd <:+: ' ' :: raw := by
    rw [List.infix_cons_iff, not_or]
    exact ⟨fun initial => absurd (List.cons_prefix_cons.1 initial).1 (by decide), absent⟩
  have closed : cut inlineEnd (' ' :: raw ++ ' ' :: (inlineEnd ++ t)) = some (' ' :: raw ++ [' '], t) :=
    cut_behind (by decide) space t
  have noToken : arrowToken? ('-' :: '-' :: ' ' :: (raw ++ ' ' :: (inlineEnd ++ t))) = none := by
    simp [arrowToken?, Arrow.tokens, after?]
  have labelled : inlineLabel? ('-' :: '-' :: ' ' :: (raw ++ ' ' :: (inlineEnd ++ t))) =
      some (' ' :: raw ++ [' '], t) := by
    rw [← closed]
    simp [inlineLabel?, inlineEnd]
  -- The spaces around the label go when it is trimmed.
  have trimmed : unquote (' ' :: raw ++ [' ']) = unquote raw := by
    have white : White [' '] := by simp [White, isWhite]
    have inner : trim (' ' :: raw ++ [' ']) = trim raw := (trim_append_white white).trans (trim_white_append white)
    rw [unquote, inner, unquote]
  unfold takeConnector
  rw [passBlanks_append_blanks blanks, passBlanks_ink (by decide), noToken]
  simp only [labelled, linkLabel, trimmed]

end

end Line
end Flowchart
