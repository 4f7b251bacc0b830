import Flowchart.Proofs.Line.Ids
import Flowchart.Proofs.Line.Marks

/-!
The two readers of a line. The link is read off the start of a line, and the declarations are collected by a walk
along all of it. Where the line has a link, the walk comes by the places where the link reader stops: behind each
end of the link it has found just what the brackets of that end declare (`takeEndpoint_eq_some`), and behind the
connector nothing more, whatever the label says (`Walk.takeConnector`). So the declarations are those of the two
ends and of the text behind them (`parse_link`).
-/
namespace Flowchart.Line
open Text

/-! ### The walk -/

/-- An id declares what its brackets hold, if it has any. -/
theorem declarations_id {id : Text} (valid : isId id) {t : Text} (stops : Stops t) :
    declarations (id ++ t) =
      ((takeShape t).1.map fun (shape, label) => (⟨id, label, shape⟩ : Node)).toList ++
        declarations (takeShape t).2 := by
  obtain ⟨c, r, rfl, idChar, run⟩ := isId_cons valid
  rw [List.cons_append, declarations_word idChar, takeWhile_id run stops, dropWhile_id run stops]

namespace Walk

variable {α : Type} {walk : Text → List α} (walks : Walk walk)
include walks

theorem skip {c : Char} (t : Text) (skipped : c ∈ [' ', '.', '=', '>']) : walk (c :: t) = walk t := by
  simp only [List.mem_cons, List.not_mem_nil, or_false] at skipped
  rcases skipped with rfl | rfl | rfl | rfl
  all_goals exact walks.cons (by decide) rfl (isIdChar_punctuation (by decide))

/-- The walk passes over an arrow. -/
theorem arrow {token : Text} {arrow : Arrow} (known : (token, arrow) ∈ Arrow.tokens) (t : Text) :
    walk (token ++ t) = walk t := by
  have dash : isIdChar '-' = false := isIdChar_punctuation (by decide)
  have head : walk ('-' :: '>' :: t) = walk t := by
    rw [walks.cons (by decide) rfl dash, walks.skip _ (by decide)]
  simp only [Arrow.tokens, List.mem_cons, Prod.mk.injEq, List.not_mem_nil, or_false] at known
  rcases known with ⟨rfl, -⟩ | ⟨rfl, -⟩ | ⟨rfl, -⟩
  · show walk ('-' :: '-' :: '>' :: t) = walk t
    rw [walks.cons (by decide) rfl dash, head]
  · show walk ('-' :: '.' :: '-' :: '>' :: t) = walk t
    rw [walks.cons (by decide) rfl dash, walks.skip _ (by decide), head]
  · show walk ('=' :: '=' :: '>' :: t) = walk t
    rw [walks.skip _ (by decide), walks.skip _ (by decide), walks.skip _ (by decide)]

theorem passBlanks (t : Text) : walk (Line.passBlanks t) = walk t := by
  have blanks : ∀ c ∈ t.takeWhile isBlank, isBlank c := fun c member => List.mem_takeWhile_imp member
  conv => rhs; rw [← List.takeWhile_append_dropWhile (p := isBlank) (l := t), walks.blanks blanks]
  rfl

/-- The walk passes over a label between pipes. -/
theorem takeLabel (t : Text) : walk (Line.takeLabel t).2 = walk t := by
  unfold Line.takeLabel
  split
  · next r front =>
    split
    · next raw rest closed =>
      rw [← walks.passBlanks t, front, walks.delimited (.inl rfl)]
      simp [passDelimited, closed]
    · rfl
  · rfl

/-- The walk finds nothing in a connector, whatever the label says. -/
theorem takeConnector {t rest : Text} {found : Arrow × Option Text}
    (taken : Line.takeConnector t = (some found, rest)) : walk t = walk rest := by
  rw [← walks.passBlanks]
  unfold Line.takeConnector at taken
  split at taken
  · next arrow behind start =>
    obtain ⟨-, rfl⟩ := Prod.mk.inj taken
    obtain ⟨⟨token, a⟩, known, fits⟩ := List.exists_of_findSome?_eq_some start
    obtain ⟨r, follows, same⟩ := Option.map_eq_some_iff.1 fits
    obtain ⟨-, rfl⟩ := Prod.mk.inj same
    rw [after?_eq_some.1 follows, walks.arrow known, walks.takeLabel]
  · split at taken
    · next raw behind labelled =>
      obtain ⟨-, rfl⟩ := Prod.mk.inj taken
      cases shape : Line.passBlanks t with
      | nil => rw [shape] at labelled; cases labelled
      | cons c r =>
        rw [shape] at labelled
        have dash : c = '-' := by
          by_contra other
          rw [inlineLabel?_of_no_dash other] at labelled
          cases labelled
        exact walks.inline (by rw [dash]; decide) labelled
    · cases taken

end Walk

/-! ### Ends -/

/-- An end of a link as it stands on a line. -/
structure LinkEnd where
  blanks : Text
  id : Text
  /-- The bracket pair right behind the id, or nothing. -/
  brackets : Text
  deriving DecidableEq, Repr

namespace LinkEnd

def text (e : LinkEnd) : Text := e.blanks ++ e.id ++ e.brackets

/-- What the brackets say, if there are any. -/
def shape? (e : LinkEnd) : Option (Shape × Text) := if e.brackets = [] then none else some (shapeAndLabel e.brackets)

/-- The node that the brackets declare, if there are any. -/
def declared (e : LinkEnd) : List Node := (e.shape?.map fun (shape, label) => (⟨e.id, label, shape⟩ : Node)).toList

/-- The end is what the link reader takes off the front of a text. -/
structure TakenFrom (e : LinkEnd) (t rest : Text) : Prop where
  text : t = e.text ++ rest
  id : takeEndpoint t = (some e.id, rest)
  brackets : takeShape (e.brackets ++ rest) = (e.shape?, rest)

end LinkEnd

/-- A bracket pair is read as what is passed over says. -/
theorem takeShape_split (t : Text) :
    ∃ brackets, t = brackets ++ (takeShape t).2 ∧
      (takeShape t).1 = if brackets = [] then none else some (shapeAndLabel brackets) := by
  unfold takeShape
  split
  · next e found =>
    obtain ⟨known, split⟩ := enclosed?_eq_some found
    have filled : e.declaration ≠ [] := by simp [Enclosed.declaration, (opening_solid e.bracket known).filled]
    exact ⟨e.declaration, split, by rw [if_neg filled]⟩
  · exact ⟨[], rfl, rfl⟩

/-- The text starts and ends like a bracket pair. -/
structure Delimited (t : Text) : Prop where
  opening : ∃ m ∈ t.head?, m ∈ ['\x7b', '(', '[']
  closing : ∃ m ∈ t.getLast?, m ∈ [')', ']', '\x7d']

theorem takeShape_delimited (t : Text) :
    ∃ brackets, t = brackets ++ (takeShape t).2 ∧ (brackets = [] ∨ Delimited brackets) := by
  unfold takeShape
  split
  · next e found =>
    obtain ⟨known, split⟩ := enclosed?_eq_some found
    have openings : ∀ b ∈ Bracket.all, ∃ m r, b.opening = m :: r ∧ m ∈ ['\x7b', '(', '['] := by simp [Bracket.all]
    have closings : ∀ b ∈ Bracket.all, ∃ m ∈ b.closing.getLast?, m ∈ [')', ']', '\x7d'] := by simp [Bracket.all]
    obtain ⟨m, r, opening, delimiter⟩ := openings e.bracket known
    obtain ⟨m', closing, delimiter'⟩ := closings e.bracket known
    have first : e.declaration.head? = some m := by simp [Enclosed.declaration, opening]
    have last : e.declaration.getLast? = some m' := by
      rw [Enclosed.declaration, List.getLast?_append, Option.mem_def.1 closing, Option.some_or]
    exact ⟨e.declaration, split, .inr ⟨⟨m, first, delimiter⟩, m', last, delimiter'⟩⟩
  · exact ⟨[], rfl, .inl rfl⟩

theorem Delimited.cons {t : Text} (delimited : Delimited t) : ∃ m r, t = m :: r ∧ m ∈ ['\x7b', '(', '['] := by
  obtain ⟨m, first, member⟩ := delimited.opening
  obtain ⟨r, shape⟩ := List.head?_eq_some_iff.1 first
  exact ⟨m, r, shape, member⟩

/-- An end of a link is an id, behind blanks if there are any, and what follows it up to where the text goes on. -/
theorem takeEndpoint_front {t id rest : Text} (taken : takeEndpoint t = (some id, rest)) :
    isId id ∧ ∃ behind, passBlanks t = id ++ behind ∧ Stops behind ∧ (takeShape behind).2 = rest := by
  unfold takeEndpoint at taken
  split at taken
  · next found behind read =>
    obtain ⟨rfl, rfl⟩ : found = id ∧ (takeShape behind).2 = rest := by simpa using taken
    obtain ⟨valid, run, later⟩ := takeId_eq_some (t := passBlanks t) (by rw [read])
    rw [read] at later
    have stops : Stops behind := by
      intro c first
      rw [show behind = _ from later] at first
      have other := List.head?_dropWhile_not isIdChar (passBlanks t)
      rwa [first] at other
    refine ⟨valid, behind, ?_, stops, rfl⟩
    rw [run, show behind = _ from later, List.takeWhile_append_dropWhile]
  · cases taken

/-- The walk finds what the brackets of an end declare, and then goes on where the link reader does. -/
theorem takeEndpoint_eq_some {t id rest : Text} (taken : takeEndpoint t = (some id, rest)) :
    ∃ e : LinkEnd, e.id = id ∧ e.TakenFrom t rest ∧ declarations t = e.declared ++ declarations rest := by
  obtain ⟨valid, behind, word, stops, rfl⟩ := takeEndpoint_front taken
  -- The walk reads the same id with the same brackets, since it stands at the start of the word.
  obtain ⟨brackets, split, shape⟩ := takeShape_split behind
  let e : LinkEnd := ⟨t.takeWhile isBlank, id, brackets⟩
  have same : (takeShape behind).1 = e.shape? := shape
  refine ⟨e, rfl, ⟨?_, taken, ?_⟩, ?_⟩
  · calc t = t.takeWhile isBlank ++ passBlanks t := (List.takeWhile_append_dropWhile).symm
      _ = t.takeWhile isBlank ++ (id ++ (brackets ++ (takeShape behind).2)) := by rw [word, ← split]
      _ = e.text ++ (takeShape behind).2 := by simp [LinkEnd.text, e]
  · rw [← same, ← split]
  · rw [← declarations_walk.passBlanks, word, declarations_id valid stops, same]
    rfl

/-! ### Lines -/

/-- A line cut where the link reader stops. -/
structure LinkLine where
  source : LinkEnd
  connector : Text
  target : LinkEnd
  rest : Text
  deriving DecidableEq, Repr

/-- The link is read off the pieces, one behind the other, and nothing behind them. -/
structure LinkLine.Reads (p : LinkLine) (t : Text) (l : Link) : Prop where
  link : takeLink t = (some l, p.rest)
  source : p.source.TakenFrom t (p.connector ++ (p.target.text ++ p.rest))
  connector : takeConnector (p.connector ++ (p.target.text ++ p.rest)) =
    (some (l.arrow, l.label), p.target.text ++ p.rest)
  target : p.target.TakenFrom (p.target.text ++ p.rest) p.rest
  ends : p.source.id = l.source ∧ p.target.id = l.target

/-- Where the link reader succeeds, the walk finds what the ends declare and goes on behind them. -/
theorem takeLink_reads {t rest : Text} {l : Link} (taken : takeLink t = (some l, rest)) :
    ∃ p : LinkLine, p.Reads t l ∧ declarations t = p.source.declared ++ (p.target.declared ++ declarations p.rest) := by
  obtain ⟨behindSource, behindConnector, first, between, last⟩ := takeLink_eq_some taken
  obtain ⟨source, sourceId, sourceTaken, sourceFound⟩ := takeEndpoint_eq_some first
  obtain ⟨target, targetId, targetTaken, targetFound⟩ := takeEndpoint_eq_some last
  have final := takeConnector_suffix behindSource
  rw [between] at final
  obtain ⟨connector, rfl⟩ := final
  obtain rfl := targetTaken.text
  refine ⟨⟨source, connector, target, rest⟩, ⟨taken, sourceTaken, between, targetTaken, sourceId, targetId⟩, ?_⟩
  rw [sourceFound, declarations_walk.takeConnector between, targetFound]

/-- Where a line states a link, its declarations are those of the brackets at the two
    ends of the link, the source first, and behind them those of the text that
    follows the target. The connector with its label declares nothing. -/
theorem parse_link {line : Text} {found : List Node} {l : Link} (stated : parse line = .content found (some l)) :
    ∃ p : LinkLine, p.Reads line.trim l ∧ found = p.source.declared ++ (p.target.declared ++ declarations p.rest) := by
  obtain ⟨rfl, linked, -⟩ := parse_eq_content stated
  exact takeLink_reads (Prod.ext linked.symm rfl)

/-- A link whose label looks like more declarations, with declarations behind its target and inside pipes and quotes. -/
def crowded : Text :=
  "  A -- see \"B[no] | C(d) -->\t D\x7b\x7bgo | on\x7d\x7d E[e] |F[f]| \"G[g]\" H((h)) -->|I[i]| J".toList

theorem crowded_link :
    parse crowded =
        .content [⟨['D'], "go | on".toList, .hexagon⟩, ⟨['E'], ['e'], .rectangle⟩, ⟨['H'], ['h'], .circle⟩]
          (some ⟨['A'], ['D'], some "see \"B[no] | C(d)".toList, .solid⟩) ∧
      ∃ p : LinkLine, p.Reads crowded.trim ⟨['A'], ['D'], some "see \"B[no] | C(d)".toList, .solid⟩ ∧
        [⟨['D'], "go | on".toList, .hexagon⟩, ⟨['E'], ['e'], .rectangle⟩, ⟨['H'], ['h'], .circle⟩] =
          p.source.declared ++ (p.target.declared ++ declarations p.rest) := by
  have stated : parse crowded =
      .content [⟨['D'], "go | on".toList, .hexagon⟩, ⟨['E'], ['e'], .rectangle⟩, ⟨['H'], ['h'], .circle⟩]
        (some ⟨['A'], ['D'], some "see \"B[no] | C(d)".toList, .solid⟩) := by decide +kernel
  exact ⟨stated, parse_link stated⟩

end Flowchart.Line
