import Flowchart.Proofs.Line.Ids
import Flowchart.Proofs.Line.Marks
import Flowchart.Proofs.Text.Trim

/-!
Leftover tokens. Blanks and capitals behind the last bracket of a line add nothing to what the line states
(`parse_closed_append`), and a line of nothing else states nothing (`parse_inert`). They hold no mark; and because
the line ends in a bracket in front of them, no id that is read goes on into them.
-/
namespace Flowchart.Line
open Text

/-- Only blanks and capitals. -/
def Inert (s : Text) : Prop := ∀ c ∈ s, isBlank c ∨ isCapital c

/-- The text ends in a closing square bracket. -/
def Closed (t : Text) : Prop := t.getLast? = some ']'

/-- The line adds something to a graph. -/
def Statement.isStated : Statement → Bool
  | .content _ _ => true
  | _ => false

/-- A line that states something declares a node or links two. -/
theorem parse_of_isStated {line : Text} (stated : (parse line).isStated) :
    parse line = .content (declarations line.trim) (link? line.trim) ∧
      (declarations line.trim ≠ [] ∨ (link? line.trim).isSome) := by
  cases said : parse line with
  | skip => simp [said, Statement.isStated] at stated
  | unparseable => simp [said, Statement.isStated] at stated
  | content found link =>
    obtain ⟨rfl, rfl, filled⟩ := parse_eq_content said
    exact ⟨rfl, filled⟩

/-! ### Marks -/

variable {s t : Text}

theorem Inert.mono {r : Text} (inert : Inert s) (part : r ⊆ s) : Inert r := fun c member => inert c (part member)

theorem Inert.suffix {r : Text} (inert : Inert s) (final : r <:+ s) : Inert r := inert.mono final.subset

theorem Inert.not_mem {c : Char} (inert : Inert s) (ink : isBlank c = false) (small : isCapital c = false) : c ∉ s := by
  intro member
  rcases inert c member with blank | capital
  · rw [ink] at blank
    cases blank
  · rw [small] at capital
    cases capital

theorem Inert.apart {mark : Text} (inert : Inert s) (solid : Solid mark) : ∀ m ∈ mark, m ∉ s := by
  intro m member
  obtain ⟨ink, small⟩ := solid.solid m member
  exact inert.not_mem ink small

theorem passBlanks_append (t s : Text) :
    passBlanks (t ++ s) = passBlanks t ++ s ∨ passBlanks t = [] ∧ passBlanks (t ++ s) = passBlanks s := by
  unfold passBlanks
  rw [List.dropWhile_append]
  split
  · next empty => exact .inr ⟨List.isEmpty_iff.1 empty, rfl⟩
  · exact .inl rfl

theorem after?_passBlanks_append {mark : Text} (solid : Solid mark) (inert : Inert s) (t : Text) :
    after? mark (passBlanks (t ++ s)) = (after? mark (passBlanks t)).map (· ++ s) := by
  rcases passBlanks_append t s with front | ⟨blank, behind⟩
  · rw [front, after?_append_apart (inert.apart solid)]
  · have later := inert.suffix (passBlanks_suffix s)
    have nothing := after?_append_apart (later.apart solid) []
    have none : after? mark [] = none := by
      obtain ⟨m, mark, rfl⟩ := List.exists_cons_of_ne_nil solid.filled
      rfl
    rw [none] at nothing
    rw [blank, behind, none]
    exact nothing

theorem splitQuoted_append_inert (inert : Inert s) (t : Text) :
    splitQuoted (t ++ s) = Prod.map id (· ++ s) (splitQuoted t) := by
  have quote : Solid ['"'] := by decide
  rw [splitQuoted_eq, splitQuoted_eq, after?_passBlanks_append quote inert]
  cases found : after? ['"'] (passBlanks t) with
  | none => rfl
  | some r =>
    -- The quote stands behind the blanks of `t`.
    have blanks : (t ++ s).takeWhile isBlank = t.takeWhile isBlank := by
      have shape : t.dropWhile isBlank = '"' :: r := after?_eq_some.1 found
      have ink : isBlank '"' = false := by decide
      conv => lhs; rw [← List.takeWhile_append_dropWhile (p := isBlank) (l := t), shape]
      rw [List.append_assoc, List.takeWhile_append_of_pos fun c => List.mem_takeWhile_imp]
      simp [ink]
    simp only [Option.map_some, Option.bind_some, cut_append_apart quote.filled (inert.apart quote), blanks]
    cases cut ['"'] r <;> rfl

theorem append_keeps (inert : Inert s) : Keeps (· ++ s) id where
  after solid t := after?_append_apart (inert.apart solid) t
  afterBlanks solid t := after?_passBlanks_append solid inert t
  cut solid t := cut_append_apart solid.filled (inert.apart solid) t
  quoted := splitQuoted_append_inert inert
  behindQuoted _ _ := rfl
  bracket _ _ := rfl
  shape _ := rfl
  label _ := by simp

/-! ### The end of the line -/

theorem Closed.suffix {r : Text} (closed : Closed t) (final : r <:+ t) (filled : r ≠ []) : Closed r := by
  obtain ⟨front, rfl⟩ := final
  rwa [Closed, List.getLast?_append_of_ne_nil _ filled] at closed

theorem Closed.ne_nil (closed : Closed t) : t ≠ [] := by
  rintro rfl
  cases closed

/-- A longest run of characters other than the bracket ends in front of it. -/
theorem Closed.run_append (closed : Closed t) {p : Char → Bool} (stops : p ']' = false) (s : Text) :
    (t ++ s).takeWhile p = t.takeWhile p ∧ (t ++ s).dropWhile p = t.dropWhile p ++ s ∧ Closed (t.dropWhile p) := by
  have remains : t.dropWhile p ≠ [] := by
    intro empty
    have run := List.dropWhile_eq_nil_iff.1 empty ']' (List.mem_of_getLast? closed)
    rw [stops] at run
    cases run
  refine ⟨?_, ?_, closed.suffix (List.dropWhile_suffix p) remains⟩
  · rw [List.takeWhile_append, if_neg]
    intro all
    have whole := List.takeWhile_append_dropWhile (p := p) (l := t)
    have length := congrArg List.length whole
    rw [List.length_append, all] at length
    exact remains (List.eq_nil_of_length_eq_zero (by omega))
  · rw [List.dropWhile_append, if_neg (by simpa using remains)]

theorem takeId_closed_append (closed : Closed t) (s : Text) : takeId (t ++ s) = Prod.map id (· ++ s) (takeId t) := by
  obtain ⟨read, remains, -⟩ := closed.run_append (p := isIdChar) (isIdChar_punctuation (by decide)) s
  unfold takeId
  rw [read, remains]
  split <;> rfl

theorem takeEndpoint_closed_append (closed : Closed t) (inert : Inert s) :
    takeEndpoint (t ++ s) = Prod.map id (· ++ s) (takeEndpoint t) := by
  obtain ⟨-, passed, ends⟩ := closed.run_append (p := isBlank) (by decide) s
  unfold takeEndpoint
  rw [passBlanks, passed, takeId_closed_append ends, passBlanks]
  obtain ⟨taken, behind⟩ := takeId (t.dropWhile isBlank)
  cases taken with
  | none => rfl
  | some id => simp [takeShape_keeps (append_keeps inert)]

/-- A label that is the end of the text ends in a pipe. -/
theorem takeLabel_last (ended : (takeLabel t).2 = []) : t = [] ∨ t.getLast? = some '|' := by
  rw [takeLabel_eq] at ended
  split at ended
  · next raw rest found =>
    obtain ⟨r, opened, closed⟩ := Option.bind_eq_some_iff.1 found
    obtain rfl : rest = [] := ended
    obtain ⟨front, split⟩ := passBlanks_suffix t
    right
    rw [← split, after?_eq_some.1 opened, cut_eq_some closed]
    simp [List.getLast?_cons]
  · exact .inl ended

/-- A connector that is the end of the text ends in an arrow head or a pipe. -/
theorem takeConnector_last (taken : (takeConnector t).1.isSome) (ended : (takeConnector t).2 = []) :
    t.getLast? = some '>' ∨ t.getLast? = some '|' := by
  obtain ⟨front, split⟩ := passBlanks_suffix t
  unfold takeConnector at taken ended
  split at taken
  · next arrow rest found =>
    rw [found] at ended
    obtain ⟨⟨token, arrow'⟩, member, read⟩ := List.exists_of_findSome?_eq_some found
    obtain ⟨rest', behind, same⟩ := Option.map_eq_some_iff.1 read
    obtain ⟨rfl, rfl⟩ := Prod.mk.inj same
    have ends : ∀ pair ∈ Arrow.tokens, pair.1.getLast? = some '>' := by decide
    have head : token.getLast? = some '>' := ends _ member
    rw [← split, after?_eq_some.1 behind]
    rcases takeLabel_last ended with rfl | pipe
    · left
      simp [head]
    · right
      simp [pipe]
  · next none =>
    rw [none] at ended
    split at taken
    · next raw rest found =>
      rw [found] at ended
      obtain rfl : rest = [] := ended
      rw [inlineLabel?_eq] at found
      obtain ⟨r, dashes, closing⟩ := Option.bind_eq_some_iff.1 found
      split at closing
      · cases closing
      · left
        rw [← split, after?_eq_some.1 dashes, cut_eq_some closing]
        simp [List.getLast?_cons]
    · cases taken

theorem link?_closed_append (closed : Closed t) (inert : Inert s) : link? (t ++ s) = link? t := by
  have behind := takeEndpoint_suffix t
  unfold link? takeLink
  rw [takeEndpoint_closed_append closed inert]
  rcases source : takeEndpoint t with ⟨_ | name, behindSource⟩
  · rfl
  · rw [source] at behind
    obtain ⟨read, remains⟩ := takeConnector_keeps (append_keeps inert) behindSource
    have connector := takeConnector_suffix behindSource
    have last := takeConnector_last (t := behindSource)
    simp only [Prod.map_apply, id]
    rcases plain : takeConnector behindSource with ⟨found, behindArrow⟩
    rcases appended : takeConnector (behindSource ++ s) with ⟨found', behindArrow'⟩
    rw [plain, appended] at read remains
    rw [plain] at connector last
    cases found with
    | none =>
      obtain rfl : found' = none := read
      rfl
    | some pair =>
      obtain ⟨arrow, label⟩ := pair
      obtain rfl : found' = some (arrow, label) := by simpa using read
      obtain rfl : behindArrow' = behindArrow ++ s := remains rfl
      have filled : behindSource ≠ [] := by
        rintro rfl
        cases plain
      have ends : Closed behindSource := closed.suffix behind filled
      -- The connector does not end in the bracket that the text ends in.
      have goesOn : behindArrow ≠ [] := by
        rintro rfl
        rcases last rfl rfl with head | pipe
        · rw [ends] at head
          cases head
        · rw [ends] at pipe
          cases pipe
      simp only [takeEndpoint_closed_append (ends.suffix connector goesOn) inert]
      rcases takeEndpoint behindArrow with ⟨_ | target, rest⟩ <;> rfl

/-! ### Declarations -/

theorem Inert.plain {c : Char} {r : Text} (inert : Inert (c :: r)) :
    (c ≠ '|' ∧ c ≠ '"') ∧ inlineLabel? (c :: r) = none := by
  have other : ∀ d, isBlank d = false → isCapital d = false → c ≠ d := by
    rintro d ink small rfl
    exact inert.not_mem ink small List.mem_cons_self
  exact ⟨⟨other _ (by decide) (by decide), other _ (by decide) (by decide)⟩,
    inlineLabel?_of_no_dash (other _ (by decide) (by decide)) r⟩

theorem takeShape_inert (inert : Inert s) : takeShape s = (none, s) := takeShape_keeps (append_keeps inert) []

theorem declarations_inert (inert : Inert s) : declarations s = [] := by
  induction hn : s.length using Nat.strongRecOn generalizing s with
  | ind n ih =>
    subst hn
    cases s with
    | nil => rw [declarations]
    | cons c r =>
      obtain ⟨plain, noLabel⟩ := inert.plain
      have behind := inert.suffix (List.suffix_cons c r)
      by_cases idChar : isIdChar c
      · have later := behind.suffix (List.dropWhile_suffix isIdChar)
        have shorter := (List.dropWhile_suffix isIdChar (l := r)).length_le
        rw [declarations_word idChar, takeShape_inert later, ih _ (by rw [List.length_cons]; omega) later rfl]
        rfl
      · rw [declarations_cons plain noLabel (by simpa using idChar), ih _ (by simp) behind rfl]

theorem declarations_closed_append (closed : t = [] ∨ Closed t) (inert : Inert s) :
    declarations (t ++ s) = declarations t := by
  have keeps := append_keeps inert
  have ending : ∀ {t r : Text}, t = [] ∨ Closed t → r <:+ t → r = [] ∨ Closed r := by
    rintro t r (rfl | closed) final
    · exact .inl (List.suffix_nil.1 final)
    · exact or_iff_not_imp_left.2 (closed.suffix final)
  fun_induction declarations t with
  | case1 => exact declarations_inert inert
  | case2 c r delimits ih =>
    have either : c = '|' ∨ c = '"' := by simpa using delimits
    have final := (passDelimited_suffix c (c :: r)).trans (List.drop_suffix 1 _)
    rw [List.cons_append, declarations_delimited either]
    rcases passDelimited_keeps keeps (delimiter_solid either) r with found | ⟨ended, ended'⟩
    · rw [found, ih (ending closed final)]
    · rw [ended, ended']
  | case3 c r delimits raw behind labelled ih =>
    have plain : c ≠ '|' ∧ c ≠ '"' := by simpa using delimits
    have final := (inlineLabel?_suffix labelled).trans (List.drop_suffix 2 _)
    have appended := inlineLabel?_keeps keeps fun solid => keeps.after solid (c :: r)
    rw [labelled, List.cons_append] at appended
    rw [List.cons_append, declarations_inline plain appended, ih (ending closed final)]
  | case4 c r delimits labelled idChar found declared ih =>
    -- The run of id characters ends in front of the last bracket at the latest.
    have run : Closed (c :: r) := closed.resolve_left (List.cons_ne_nil c r)
    obtain ⟨read, remains, ends⟩ := run.run_append (p := isIdChar) (isIdChar_punctuation (by decide)) s
    rw [List.cons_append, List.dropWhile_cons_of_pos idChar, List.dropWhile_cons_of_pos idChar] at remains
    rw [List.cons_append, List.takeWhile_cons_of_pos idChar, List.takeWhile_cons_of_pos idChar, List.cons.injEq] at read
    rw [List.dropWhile_cons_of_pos idChar] at ends
    have final := takeShape_suffix (r.dropWhile isIdChar)
    rw [List.cons_append, declarations_word idChar, read.2, remains, takeShape_keeps keeps, Prod.map_fst, Prod.map_snd,
      ih (ending (.inr ends) final)]
    simp [declared, found]
  | case5 c r delimits labelled noId ih =>
    have plain : c ≠ '|' ∧ c ≠ '"' := by simpa using delimits
    have appended := inlineLabel?_keeps keeps fun solid => keeps.after solid (c :: r)
    rw [labelled, List.cons_append] at appended
    rw [List.cons_append, declarations_cons plain appended (by simpa using noId),
      ih (ending closed (List.suffix_cons c r))]

/-! ### Whole lines -/

theorem bracket_not_directive {w : Text} (member : ']' ∈ w) : directives.contains w = false := by
  have all : ∀ d ∈ directives, ']' ∉ d := by decide +kernel
  by_contra directive
  exact all w (by simpa using directive) member

theorem startsDirective_closed_append (closed : Closed t) (s : Text) :
    startsDirective (t ++ s) = startsDirective t := by
  obtain ⟨-, passed, ends⟩ := closed.run_append (p := isWhite) (by decide) s
  unfold startsDirective firstWord trimStart
  rw [passed]
  -- Either the first word ends within `t`, or it holds the last bracket of `t`.
  by_cases all : ∀ c ∈ t.dropWhile isWhite, (!isWhite c) = true
  · have bracket := List.mem_of_getLast? ends
    rw [List.takeWhile_append_of_pos all, List.takeWhile_eq_self_iff.2 all, bracket_not_directive bracket,
      bracket_not_directive (List.mem_append_left _ bracket)]
  · rw [List.takeWhile_append, if_neg]
    intro whole
    apply all
    have same := (List.takeWhile_prefix (!isWhite ·)).eq_of_length whole
    exact List.takeWhile_eq_self_iff.1 same

theorem statementOf_closed_append (closed : Closed t) (inert : Inert s) : statementOf (t ++ s) = statementOf t := by
  have percents : Solid ['%', '%'] := by decide
  have empty : (t ++ s).isEmpty = t.isEmpty := by
    obtain ⟨c, r, rfl⟩ := List.exists_cons_of_ne_nil closed.ne_nil
    rfl
  have comment : isComment (t ++ s) = isComment t := by
    rw [isComment_eq, isComment_eq, after?_append_apart (inert.apart percents), Option.isSome_map]
  unfold statementOf
  rw [empty, comment, startsDirective_closed_append closed, declarations_closed_append (.inr closed) inert,
    link?_closed_append closed inert]

theorem Closed.endsInk (closed : Closed t) : EndsInk t := by
  intro c last
  obtain rfl : ']' = c := Option.some.inj (closed.symm.trans last)
  decide

/-- Blanks and capitals behind the last bracket of a line add nothing. -/
theorem parse_closed_append (closed : Closed t) (inert : Inert s) : parse (t ++ s) = parse t := by
  obtain ⟨-, passed, ends⟩ := closed.run_append (p := isWhite) (by decide) s
  have both : trim (t ++ s) = trimStart t ++ trimEnd s := by
    rw [trim, trimStart, passed, trimEnd_append_of_ink ends.endsInk, trimStart]
  have alone : trim t = trimStart t := by rw [trim, trimEnd_eq_self (t := trimStart t) ends.endsInk]
  rw [parse, both, parse, alone]
  exact statementOf_closed_append ends (inert.mono (trimEnd_isPrefix s).subset)

theorem takeConnector_inert (inert : Inert s) : (takeConnector s).1 = none :=
  (takeConnector_keeps (append_keeps inert) []).1

theorem link?_inert (inert : Inert s) : link? s = none := by
  have behind := takeEndpoint_suffix s
  unfold link? takeLink
  rcases source : takeEndpoint s with ⟨_ | name, rest⟩
  · rfl
  · rw [source] at behind
    have none := takeConnector_inert (inert.suffix behind)
    rcases found : takeConnector rest with ⟨connector, behindArrow⟩
    rw [found] at none
    obtain rfl : connector = Option.none := none
    simp only [found]

/-- A line of blanks and capitals states nothing. -/
theorem parse_inert (inert : Inert s) : (parse s).isStated = false := by
  have trimmed := inert.mono (trim_isInfix s).subset
  by_contra stated
  obtain ⟨-, filled⟩ := parse_of_isStated (by simpa using stated)
  simp [declarations_inert trimmed, link?_inert trimmed] at filled

end Flowchart.Line
