import Flowchart.Proofs.Graph.Labels
import Flowchart.Proofs.Line.Sites
import Flowchart.Proofs.Repair.Bodies
import Flowchart.Proofs.Repair.Meaning

/-!
What repair leaves in labels. The repaired lines are settled, so a declaration in square brackets that repair finds
as the line reader does keeps no aside (`repair_leaves_no_aside`). Repair does not find all of them: it looks for
flat bodies behind word characters and outside what it takes for edge labels, it lets a body in parentheses be, and
a `)` that closes nothing hides what follows it.
-/
namespace Flowchart.Repair
open Text Line

/-! ### Repaired lines -/

theorem settled_trim {row : Text} (settled : Settled row) : Settled row.trim := by
  obtain ⟨front, white, split⟩ := append_trimStart row
  obtain ⟨back, white', split'⟩ := trimEnd_append row.trimStart
  rw [split, settled_front white, split', settled_behind (outer_white white')] at settled
  exact settled

/-- A repaired text keeps no carriage return for its lines to lose. -/
theorem mem_rows_of_repaired {t line : Text} (repaired : Repaired t) (member : line ∈ t.lines) : line ∈ rows t := by
  rw [← repaired.noise, lines_dropNoiseLines] at member
  have same : rows (dropNoiseLines t) = (t.lines.map trimEnd).filter isMeaningful :=
    rows_joinRows (List.ne_nil_of_mem member) fun _ inside => (kept_line inside).2.2
  rw [repaired.noise] at same
  rwa [same]

theorem settled_of_mem_lines {t line : Text} (member : line ∈ (repair t).lines) : Settled line.trim := by
  have repaired := repair_repaired t
  exact settled_trim (asideRound_eq_self.1 repaired.round line (mem_rows_of_repaired repaired member))

/-! ### Bodies in square brackets -/

/-- With slashes at its ends a body is not read as a rectangle. -/
theorem shapeAndLabel_slashed {body inner : Text} {slash : Char} (slashes : slashed? body = some (slash, inner)) :
    (shapeAndLabel ('[' :: body ++ [']'])).1 = .parallelogram := by
  have trimmed : trim ('[' :: body ++ [']']) = '[' :: body ++ [']'] :=
    trim_eq_self (startsInk_cons (by decide) _) (endsInk_append (by simp) (by simp [EndsInk, isWhite]))
  rw [shapeAndLabel, trimmed, slashed?_eq_some slashes]
  have slash' := slashed?_slash slashes
  simp only [List.mem_cons, List.not_mem_nil, or_false] at slash'
  rcases slash' with rfl | rfl
  all_goals simp [Bracket.all, between?, after?, before?]

/-- Between the square brackets of a rectangle or a parallelogram stands its body, with slashes around it or without. -/
theorem reads_square {s : Site} {b : Bracket} {body : Text} (reads : s.Reads b body)
    (square : b.shape ∈ [Shape.rectangle, .parallelogram]) :
    ∃ whole, s.declaration = '[' :: whole ++ [']'] ∧ ((slashed? whole).map Prod.snd).getD whole = body ∧
      ∀ c ∈ whole, c ∈ body ∨ c ∈ ['/', '\\'] := by
  have text := reads.text
  have shape : (shapeAndLabel s.declaration).1 = b.shape := congrArg Node.shape reads.node
  have known := reads.known
  simp only [Bracket.all, List.mem_cons, List.not_mem_nil, or_false] at known
  rcases known with rfl | rfl | rfl | rfl | rfl | rfl | rfl | rfl | rfl
  case inr.inr.inr.inr.inr.inr.inl =>
    exact ⟨'/' :: body ++ ['/'], by simpa using text, by rw [slashed?_slashes (by decide)]; rfl, by simp; tauto⟩
  case inr.inr.inr.inr.inr.inr.inr.inl =>
    exact ⟨'\\' :: body ++ ['\\'], by simpa using text, by rw [slashed?_slashes (by decide)]; rfl, by simp; tauto⟩
  case inr.inr.inr.inr.inr.inr.inr.inr =>
    have plain : slashed? body = none := by
      rw [Option.eq_none_iff_forall_not_mem]
      rintro ⟨slash, inner⟩ slashes
      rw [text] at shape
      rw [show ['['] ++ body ++ [']'] = '[' :: body ++ [']'] from rfl, shapeAndLabel_slashed slashes] at shape
      cases shape
    exact ⟨body, text, by rw [plain]; rfl, fun c member => .inl member⟩
  all_goals simp at square

/-! ### Labels without asides -/

/-- Repair finds the declaration as the line reader does, and an aside in it is the first thing in parentheses. -/
structure Exposed (line : Text) (s : Site) (body : Text) : Prop where
  /-- No square bracket stands in the body. -/
  flat : ∀ c ∈ ['[', ']'], c ∉ body
  /-- Behind the last character of the id a label opens. -/
  word : ∀ c ∈ s.id.getLast?, isWordChar c
  /-- The declaration stands outside what repair takes for edge labels. -/
  outside : ∃ part ∈ plainParts line, s.id ++ s.declaration <:+: part
  /-- The body is not as a whole in parentheses. -/
  open' : isParenthesized body = false
  /-- The first closing parenthesis, if there is one, closes something. -/
  paired : ∀ upTo after, cut [')'] body = some (upTo, after) → '(' ∈ upTo

theorem moveAside_ne_none {body : Text} (unquoted : isQuoted body = false) (bare : isParenthesized body = false)
    (paired : ∀ upTo after, cut [')'] body = some (upTo, after) → '(' ∈ upTo) (closed : ')' ∈ body) :
    moveAside body ≠ none := by
  intro none
  rw [moveAside_eq_none, unquoted, bare] at none
  have outside : ∀ upTo after, cut [')'] body = some (upTo, after) → '(' ∉ upTo := by simpa using none
  obtain ⟨upTo, after, found⟩ : ∃ upTo after, cut [')'] body = some (upTo, after) := by
    obtain ⟨front, back, split⟩ := List.append_of_mem closed
    have some : (cut [')'] body).isSome := cut_isSome_iff.2 ⟨front, back, by simp [split]⟩
    obtain ⟨parts, found⟩ := Option.isSome_iff_exists.1 some
    exact ⟨parts.1, parts.2, found⟩
  exact outside upTo after found (paired upTo after found)

theorem Exposed.holds {line : Text} {s : Site} {body whole : Text} (exposed : Exposed line s body) (valid : isId s.id)
    (text : s.declaration = '[' :: whole ++ [']']) (kept : ∀ c ∈ whole, inBody c) :
    ∃ part ∈ plainParts line, Holds part whole := by
  obtain ⟨part, member, inside⟩ := exposed.outside
  rcases List.eq_nil_or_concat' s.id with empty | ⟨front, d, last⟩
  · rw [empty] at valid
    cases valid
  · have opens : opensLabel d := by simp [opensLabel, exposed.word d (by simp [last])]
    have place : d :: '[' :: whole ++ [']'] <:+ s.id ++ s.declaration := ⟨front, by simp [last, text]⟩
    exact ⟨part, member, kept, d, opens, place.isInfix.trans inside⟩

/-- In a settled line an exposed declaration has no closing parenthesis left. -/
theorem closing_not_mem {line : Text} (settled : Settled line) (single : '\n' ∉ line) {s : Site}
    (stands : s.Stands line) {b : Bracket} {body : Text} (reads : s.Reads b body)
    (square : b.shape ∈ [Shape.rectangle, .parallelogram]) (unquoted : isQuoted body = false)
    (exposed : Exposed line s body) : ')' ∉ body := by
  obtain ⟨whole, text, between, chars⟩ := reads_square reads square
  have kept : ∀ c ∈ whole, inBody c := by
    intro c member
    have newline : c ≠ '\n' := by
      rintro rfl
      exact single (stands.place.subset (by simp [text, member]))
    have brackets : ∀ mark ∈ ['[', ']'], c ≠ mark := by
      rintro mark bracket rfl
      rcases chars c member with inside | slash
      · exact exposed.flat c bracket inside
      · simp only [List.mem_cons, List.not_mem_nil, or_false] at slash bracket
        rcases slash with rfl | rfl <;> simp at bracket
    simp [inBody, newline, brackets '[' (by decide), brackets ']' (by decide)]
  obtain ⟨part, member, holds⟩ := exposed.holds stands.valid text kept
  have stays := settled_iff.1 settled part member whole holds
  rw [repairBody_eq_self, between] at stays
  exact fun closed => moveAside_ne_none unquoted exposed.open' exposed.paired closed stays

/-- On every line of a repaired text that states something, a declaration that is read as a rectangle or a
    parallelogram keeps no aside in its label, if it is not quoted and repair finds it. -/
theorem repair_leaves_no_aside (t : Text) :
    ∀ line ∈ (repair t).lines, ∀ found link, Line.parse line = .content found link →
      found = (sites line.trim).map Site.node ∧
        ∀ s ∈ sites line.trim, (∃ b body, s.Reads b body) ∧
          ∀ b body, s.Reads b body → b.shape ∈ [Shape.rectangle, .parallelogram] → isQuoted body = false →
            Exposed line.trim s body → ¬ ['(', ')'].Sublist s.node.label := by
  intro line member found link stated
  have settled := settled_of_mem_lines member
  have single : '\n' ∉ line.trim := fun newline => newline_not_mem_lines member ((trim_isInfix line).subset newline)
  obtain ⟨rfl, -, -⟩ := parse_eq_content stated
  refine ⟨declarations_eq_sites _, fun s inside => ?_⟩
  have stands := sites_stand _ s inside
  refine ⟨stands.reads, fun b body reads square unquoted exposed aside => ?_⟩
  have label : s.node.label <:+: body := by
    rw [reads.node]
    exact unquote_isInfix body
  exact closing_not_mem settled single stands reads square unquoted exposed (label.subset (aside.subset (by simp)))

/-- Asides in a label between pipes, in a parallelogram and in a cylinder. -/
def annotated : Text := "\x60\x60\x60\nA -->|see [n (x)]| B[/Load (csv) and (x)/] UP\nC[(Orders)]".toList

/-- Its first line when it is repaired. -/
def annotatedLine : Text := "A -->|see [n (x)]| B[/Load and - csv - x/]".toList

/-- The parallelogram on that line. -/
def loaded : Site := ⟨['B'], ⟨⟨['[', '/'], ['/', ']'], .parallelogram⟩, "Load and - csv - x".toList, []⟩⟩

theorem annotated_leaves_no_aside :
    annotatedLine ∈ (repair annotated).lines ∧
      Line.parse annotatedLine = .content [loaded.node] (some ⟨['A'], ['B'], some "see [n (x)]".toList, .solid⟩) ∧
      loaded ∈ sites annotatedLine ∧ Exposed annotatedLine loaded loaded.enclosed.body ∧
      ¬ ['(', ')'].Sublist loaded.node.label := by
  have member : annotatedLine ∈ (repair annotated).lines := by decide +kernel
  have stated : Line.parse annotatedLine =
      .content [loaded.node] (some ⟨['A'], ['B'], some "see [n (x)]".toList, .solid⟩) := by decide +kernel
  have trimmed : annotatedLine.trim = annotatedLine := by decide +kernel
  have site : loaded ∈ sites annotatedLine := by decide +kernel
  have reads : loaded.Reads loaded.enclosed.bracket loaded.enclosed.body := by decide +kernel
  have part : " B[/Load and - csv - x/]".toList ∈ plainParts annotatedLine ∧
      loaded.id ++ loaded.declaration <:+: " B[/Load and - csv - x/]".toList := by decide +kernel
  have unopened : cut [')'] loaded.enclosed.body = none := by decide +kernel
  have word : ∀ c ∈ loaded.id.getLast?, isWordChar c := by
    intro c last
    obtain rfl : 'B' = c := by simpa [loaded] using last
    decide +kernel
  have exposed : Exposed annotatedLine loaded loaded.enclosed.body :=
    ⟨List.all_iff_forall_prop.1 (by decide +kernel), word, ⟨_, part⟩, by decide +kernel, by simp [unopened]⟩
  have clean := (repair_leaves_no_aside annotated annotatedLine member _ _ stated).2
  rw [trimmed] at clean
  exact ⟨member, stated, site, exposed, (clean loaded site).2 _ _ reads (by decide) (by decide +kernel) exposed⟩

/-- Declarations with an aside that repair does not find: behind a second bracket, behind a number that is no word
    character, between pipes, as a whole in parentheses, and behind a parenthesis that closes nothing. -/
def unfound : List Site :=
  let square : Bracket := ⟨['['], [']'], .rectangle⟩
  [⟨['A'], ⟨square, "[x (y)".toList, []⟩⟩, ⟨['²'], ⟨square, "x (y)".toList, []⟩⟩,
    ⟨['A'], ⟨square, "x | (y) | z".toList, []⟩⟩,
    ⟨['A'], ⟨⟨['[', '/'], ['/', ']'], .parallelogram⟩, "(x)".toList, []⟩⟩,
    ⟨['A'], ⟨square, "x) (y)".toList, []⟩⟩]

theorem unfound_keep_asides :
    unfound.length = 5 ∧ ∀ s ∈ unfound,
      s.id ++ s.declaration ∈ (repair (s.id ++ s.declaration)).lines ∧
        Line.parse (s.id ++ s.declaration) = .content [s.node] none ∧ s ∈ sites (s.id ++ s.declaration).trim ∧
        s.Reads s.enclosed.bracket s.enclosed.body ∧ s.node.shape ∈ [Shape.rectangle, .parallelogram] ∧
        isQuoted s.enclosed.body = false ∧ ['(', ')'].Sublist s.node.label := by
  decide +kernel

end Flowchart.Repair
