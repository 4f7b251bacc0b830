import Flowchart.Line.Offsets
import Flowchart.Proofs.Line.Marks
import Flowchart.Proofs.Text.Slices

/-!
Reading by byte offsets is reading the text. Whatever end of the line a reader starts
at, all slices that it asks for are there, and it gives what the scanner gives and
moves to where the scanner leaves off (`Reads`, one lemma for each reader).
-/
namespace Flowchart

namespace Offsets
open Text

/-- A reader that gives by offsets what a scanner gives of the text: wherever the text is an end of the line, it
    finds every slice that it asks for, and moves to where the scanner leaves off. -/
def Reads {α : Type} (reader : Reader α) (scanner : Text → α × Text) : Prop :=
  ∀ {line t : Text}, t <:+ line → reader line (startOf line t) = some ((scanner t).1, startOf line (scanner t).2)

theorem Reads.map {α β : Type} {reader : Reader α} {scanner : Text → α × Text} (reads : Reads reader scanner)
    (f : α → β) : Reads (reader.map f) fun t => (scanner t).map f id := by
  intro line t final
  rw [Reader.map, reads final]
  rfl

/-! ### Looking and moving -/

theorem atEnd_reads : Reads atEnd fun t => (t.isEmpty, t) := by
  rintro line t ⟨front, rfl⟩
  have left : size (front ++ t) ≤ size front ↔ t = [] := by
    rw [size_append, ← size_eq_zero]
    omega
  simp only [atEnd, startOf_append, left]
  cases t <;> rfl

theorem rest_reads : Reads rest fun t => (t, t) := by
  intro line t final
  rw [rest, slice_startOf final]
  rfl

theorem head?_reads : Reads head? fun t => (t.head?, t) := by
  intro line t final
  rw [head?, slice_startOf final]
  rfl

theorem startsWith_reads (token : Text) : Reads (startsWith token) fun t => ((after? token t).isSome, t) := by
  intro line t final
  rw [startsWith, slice_startOf final]
  rfl

theorem next_reads : Reads next fun t => ((), t.drop 1) := by
  intro line t final
  rw [next, head?_reads final]
  cases t with
  | nil => rfl
  | cons c r =>
    have moved := startOf_behind (s := [c]) final
    simpa using moved.symm

/-- The text behind a token, if the text starts with it. -/
def tokenFirst (token t : Text) : Bool × Text :=
  match after? token t with
  | some behind => (true, behind)
  | none => (false, t)

theorem tokenFirst_suffix (token t : Text) : (tokenFirst token t).2 <:+ t := by
  unfold tokenFirst
  split
  · next found => exact ⟨token, (after?_eq_some.1 found).symm⟩
  · exact List.suffix_refl t

theorem take_reads (token : Text) : Reads (take token) (tokenFirst token) := by
  intro line t final
  simp only [take, startsWith_reads token final, Option.bind_eq_bind, Option.bind_some, tokenFirst]
  cases found : after? token t with
  | none => rfl
  | some behind =>
    obtain rfl := after?_eq_some.1 found
    rw [startOf_behind final]
    rfl

theorem passBlanks_reads : Reads passBlanks fun t => ((), Line.passBlanks t) := by
  intro line t final
  rw [passBlanks, slice_startOf final, startOf_suffix final (Line.passBlanks_suffix t)]
  rfl

theorem passDelimited_reads (mark : Char) : Reads (passDelimited mark) fun t => ((), Line.passDelimited mark t) := by
  intro line t final
  have inside : t.drop 1 <:+ line := (List.drop_suffix 1 t).trans final
  simp only [passDelimited, next_reads final, Option.bind_eq_bind, Option.bind_some, slice_startOf inside,
    Line.passDelimited, offsetOf?]
  cases found : cut [mark] (t.drop 1) with
  | none => rfl
  | some parts =>
    obtain ⟨before, behind⟩ := parts
    have whole := cut_eq_some found
    rw [whole] at inside ⊢
    simp only [startOf_behind inside, size_append, Option.map_some]
    rfl

/-- Passing over an inline label, as a scanner. -/
def inlineLabel (t : Text) : Bool × Text :=
  match Line.inlineLabel? t with
  | some (_, behind) => (true, behind)
  | none => (false, t)

theorem inlineLabel_suffix (t : Text) : (inlineLabel t).2 <:+ t := by
  unfold inlineLabel
  split
  · next found => exact (Line.inlineLabel?_suffix found).trans (List.drop_suffix 2 t)
  · exact List.suffix_refl t

theorem passInlineLabel_reads : Reads passInlineLabel inlineLabel := by
  intro line t final
  simp only [passInlineLabel, startsWith_reads _ final, Option.bind_eq_bind, Option.bind_some, slice_startOf final,
    inlineLabel, Line.inlineLabel?_eq]
  cases dashes : after? ['-', '-'] t with
  | none => rfl
  | some behind =>
    obtain rfl := after?_eq_some.1 dashes
    have arrow : after? ['-', '-', '>'] (['-', '-'] ++ behind) = after? ['>'] behind := rfl
    have rule : after? ['-', '-', '-'] (['-', '-'] ++ behind) = after? ['-'] behind := rfl
    have inside : sliceFrom? (['-', '-'] ++ behind) 2 = some behind := sliceFrom?_append ['-', '-'] behind
    simp only [arrow, rule, inside, Option.isSome_some, Bool.not_true, Bool.false_or, Option.bind_some]
    by_cases other : (after? ['>'] behind).isSome || (after? ['-'] behind).isSome
    · simp only [other, if_true]
      rfl
    · simp only [other, Bool.false_eq_true, if_false, offsetOf?]
      cases found : cut ['-', '-', '>'] behind with
      | none => rfl
      | some parts =>
        obtain ⟨raw, rest⟩ := parts
        obtain rfl := cut_eq_some found
        have bytes : size (['-', '-'] ++ (raw ++ ['-', '-', '>'])) = raw.size + 5 := by
          rw [size_append, size_append, show size ['-', '-'] = 2 from rfl, show size ['-', '-', '>'] = 3 from rfl]
          omega
        rw [← List.append_assoc] at final ⊢
        rw [startOf_behind final, bytes]
        rfl

/-! ### Brackets and labels -/

theorem between?_reads (opening closing t : Text) :
    between? opening closing t = some (Text.between? opening closing t) := by
  unfold between?
  split
  · next fits =>
    simp only [Bool.and_eq_true, decide_eq_true_eq, after?_isSome_iff, before?_isSome_iff] at fits
    obtain ⟨inner, rfl⟩ := exists_between fits.1.2 fits.2 fits.1.1
    have stop : size (opening ++ inner ++ closing) - closing.size = opening.size + inner.size := by
      rw [size_append, size_append, Nat.add_sub_cancel_right]
    rw [between?_append, stop, slice?_append]
    rfl
  · next misfit =>
    cases found : Text.between? opening closing t with
    | none => rfl
    | some inner =>
      obtain rfl := between?_eq_some.1 found
      refine absurd ?_ misfit
      simp only [Bool.and_eq_true, decide_eq_true_eq, after?_isSome_iff, before?_isSome_iff, size_append]
      exact ⟨⟨by omega, ⟨inner ++ closing, by simp⟩⟩, List.suffix_append _ _⟩

theorem unquote_reads (label : Text) : unquote label = some (Flowchart.unquote label) := by
  simp only [unquote, between?_reads, Option.bind_eq_bind, Option.bind_some, Flowchart.unquote]
  cases Text.between? ['"'] ['"'] label.trim <;> rfl

theorem linkLabel_reads (raw : Text) : linkLabel raw = some (Line.linkLabel raw) := by
  rw [linkLabel, unquote_reads]
  rfl

theorem shapeAndLabel_reads (declaration : Text) :
    shapeAndLabel declaration Bracket.all = some (Flowchart.shapeAndLabel declaration) := by
  have search : ∀ brackets : List Bracket, shapeAndLabel declaration brackets =
      some ((brackets.findSome? fun b => (Text.between? b.opening b.closing declaration.trim).map
        fun inner => (b.shape, Flowchart.unquote inner)).getD (.rectangle, declaration.trim)) := by
    intro brackets
    induction brackets with
    | nil => rfl
    | cons b later ih =>
      rw [shapeAndLabel, between?_reads, List.findSome?_cons]
      cases Text.between? b.opening b.closing declaration.trim with
      | none => exact ih
      | some inner =>
        simp only [Option.bind_eq_bind, Option.bind_some, unquote_reads]
        rfl
  exact search Bracket.all

theorem quotedEnd_reads (front t : Text) :
    quotedEnd (front ++ t) front.size = some (front.size + size (splitQuoted t).1) := by
  have whole : t.takeWhile isBlank ++ t.dropWhile isBlank = t := List.takeWhile_append_dropWhile
  have blanks : t.size - size (t.dropWhile isBlank) = size (t.takeWhile isBlank) := by
    have sum := congrArg size whole
    rw [size_append] at sum
    omega
  simp only [quotedEnd, sliceFrom?_append, Option.bind_eq_bind, Option.bind_some, blanks, Line.splitQuoted_eq,
    Line.passBlanks]
  split
  · next quoted =>
    obtain ⟨r, behind⟩ := List.head?_eq_some_iff.1 quoted
    have split : front ++ t = front ++ t.takeWhile isBlank ++ ['"'] ++ r := by
      conv_lhs => rw [← whole, behind]
      simp
    have slice := sliceFrom?_append (front ++ t.takeWhile isBlank ++ ['"']) r
    have quote : size ['"'] = 1 := rfl
    rw [← split, size_append, size_append, quote] at slice
    have opened : after? ['"'] (t.dropWhile isBlank) = some r := by rw [behind]; rfl
    simp only [slice, opened, Option.bind_some, offsetOf?]
    cases cut ['"'] r with
    | none => rfl
    | some parts =>
      have sum : size (t.takeWhile isBlank ++ '"' :: parts.1 ++ ['"']) =
          size (t.takeWhile isBlank) + 1 + parts.1.size + 1 := by
        rw [size_append, size_append, size_cons, quote, show '"'.utf8Size = 1 from rfl]
        omega
      simp only [Option.map_some, sum, Option.pure_def, ← Nat.add_assoc]
  · next plain =>
    have unopened : after? ['"'] (t.dropWhile isBlank) = none := by
      rwa [← Option.not_isSome_iff_eq_none, Line.after?_isSome]
    simp only [unopened, Option.bind_none]
    rfl

theorem extent?_reads (t : Text) : extent? t Bracket.all = some ((enclosed? t).map (·.declaration.size)) := by
  have search : ∀ brackets : List Bracket,
      extent? t brackets = some ((brackets.findSome? (·.enclosed? t)).map (·.declaration.size)) := by
    intro brackets
    induction brackets with
    | nil => rfl
    | cons b later ih =>
      rw [extent?, List.findSome?_cons, Bracket.enclosed?]
      cases opened : after? b.opening t with
      | none => exact ih
      | some inside =>
        have whole := after?_eq_some.1 opened
        have parts := splitQuoted_append inside
        have behind : t.sliceFrom? (b.opening.size + size (splitQuoted inside).1) = some (splitQuoted inside).2 := by
          have slice := sliceFrom?_append (b.opening ++ (splitQuoted inside).1) (splitQuoted inside).2
          rwa [List.append_assoc, parts, ← whole, size_append] at slice
        have start := quotedEnd_reads b.opening inside
        rw [← whole] at start
        simp only [Option.isSome_some, if_true, start, behind, Option.bind_eq_bind, Option.bind_some, offsetOf?]
        cases cut b.closing (splitQuoted inside).2 with
        | none => exact ih
        | some parts => simp [Enclosed.declaration, Nat.add_assoc]
  exact search Bracket.all

theorem takeShape_reads : Reads takeShape Line.takeShape := by
  intro line t final
  simp only [takeShape, slice_startOf final, extent?_reads, Option.bind_eq_bind, Option.bind_some, Line.takeShape]
  cases found : enclosed? t with
  | none => rfl
  | some e =>
    have whole := (enclosed?_eq_some found).2
    have slice := sliceTo?_append e.declaration e.rest
    rw [← whole] at slice
    rw [whole] at final
    simp only [Option.map_some, slice, Option.bind_some, shapeAndLabel_reads]
    rw [startOf_behind final, ← whole]
    rfl

/-! ### Ids, labels, connectors and links -/

theorem takeId_reads : Reads takeId Line.takeId := by
  intro line t final
  have whole : t.takeWhile isIdChar ++ t.dropWhile isIdChar = t := List.takeWhile_append_dropWhile
  have slice := sliceTo?_append (t.takeWhile isIdChar) (t.dropWhile isIdChar)
  rw [whole] at slice
  simp only [takeId, slice_startOf final, Option.bind_eq_bind, Option.bind_some, Line.takeId, size_eq_zero,
    List.isEmpty_iff, slice]
  split
  · rfl
  · rw [← whole] at final
    rw [startOf_behind final, whole]
    rfl

theorem takeEndpoint_reads : Reads takeEndpoint Line.takeEndpoint := by
  intro line t final
  have unblanked : Line.passBlanks t <:+ line := (Line.passBlanks_suffix t).trans final
  have behindId : (Line.takeId (Line.passBlanks t)).2 <:+ line := (Line.takeId_suffix _).trans unblanked
  simp only [takeEndpoint, passBlanks_reads final, takeId_reads unblanked, Option.bind_eq_bind, Option.bind_some,
    Line.takeEndpoint]
  cases taken : Line.takeId (Line.passBlanks t) with
  | mk id? rest =>
    rw [taken] at behindId
    cases id? with
    | none => rfl
    | some id =>
      simp only [takeShape_reads behindId, Option.bind_some]
      rfl

theorem takeLabel_reads : Reads takeLabel Line.takeLabel := by
  intro line t final
  have unblanked : Line.passBlanks t <:+ line := (Line.passBlanks_suffix t).trans final
  have behindPipe : (tokenFirst ['|'] (Line.passBlanks t)).2 <:+ line := (tokenFirst_suffix _ _).trans unblanked
  simp only [takeLabel, passBlanks_reads final, take_reads _ unblanked, Option.bind_eq_bind, Option.bind_some,
    Line.takeLabel_eq]
  unfold tokenFirst at behindPipe ⊢
  cases opened : after? ['|'] (Line.passBlanks t) with
  | none => rfl
  | some inside =>
    rw [opened] at behindPipe
    simp only [slice_startOf behindPipe, Option.bind_some, offsetOf?]
    cases closed : cut ['|'] inside with
    | none => rfl
    | some parts =>
      obtain ⟨raw, rest⟩ := parts
      obtain rfl := cut_eq_some closed
      have slice : sliceTo? (raw ++ ['|'] ++ rest) raw.size = some raw := by
        rw [List.append_assoc]
        exact sliceTo?_append raw _
      have pipe : size ['|'] = 1 := rfl
      simp only [Option.map_some, slice, Option.bind_some, linkLabel_reads]
      rw [startOf_behind behindPipe, size_append, pipe]
      rfl

/-- The first token that a text starts with, as a scanner. -/
def firstToken (tokens : List (Text × Line.Arrow)) (t : Text) : Option Line.Arrow × Text :=
  match tokens.findSome? fun (token, arrow) => (after? token t).map (arrow, ·) with
  | some (arrow, behind) => (some arrow, behind)
  | none => (none, t)

theorem takeToken_reads (tokens : List (Text × Line.Arrow)) : Reads (takeToken tokens) (firstToken tokens) := by
  intro line t final
  induction tokens with
  | nil => rfl
  | cons pair later ih =>
    obtain ⟨token, arrow⟩ := pair
    simp only [takeToken, take_reads _ final, Option.bind_eq_bind, Option.bind_some, firstToken,
      List.findSome?_cons, tokenFirst]
    cases after? token t with
    | none => exact ih
    | some behind => rfl

theorem firstToken_tokens (t : Text) : firstToken Line.Arrow.tokens t =
    match Line.arrowToken? t with
    | some (arrow, behind) => (some arrow, behind)
    | none => (none, t) := rfl

/-- A text that starts with no token does not go on with the end of an arrow behind two dashes. -/
theorem no_arrow_behind {behind : Text} (noToken : Line.arrowToken? (['-', '-'] ++ behind) = none) :
    after? ['>'] behind = none := by
  have arrow : (['-', '-', '>'], Line.Arrow.solid) ∈ Line.Arrow.tokens := List.mem_cons_self
  have each := List.findSome?_eq_none_iff.1 noToken _ arrow
  exact Option.map_eq_none_iff.1 each

theorem takeConnector_reads : Reads takeConnector Line.takeConnector := by
  intro line t final
  have unblanked : Line.passBlanks t <:+ line := (Line.passBlanks_suffix t).trans final
  simp only [takeConnector, passBlanks_reads final, takeToken_reads _ unblanked, firstToken_tokens,
    startsWith_reads _ unblanked, Option.bind_eq_bind, Option.bind_some, Line.takeConnector]
  generalize Line.passBlanks t = u at unblanked ⊢
  cases token : Line.arrowToken? u with
  | some found =>
    obtain ⟨arrow, behind⟩ := found
    have behindToken : behind <:+ line := (Line.arrowToken?_suffix token).trans unblanked
    simp only [takeLabel_reads behindToken, Option.bind_some]
    rfl
  | none =>
    cases dashes : after? ['-', '-'] u with
    | none =>
      simp only [Line.inlineLabel?_eq, dashes, Option.bind_none]
      rfl
    | some behind =>
      obtain rfl := after?_eq_some.1 dashes
      have arrow := no_arrow_behind token
      have rule : after? ['-', '-', '-'] (['-', '-'] ++ behind) = after? ['-'] behind := rfl
      have body := startOf_behind unblanked
      rw [show size ['-', '-'] = 2 from rfl] at body
      have behindDashes : behind <:+ line := (List.suffix_append _ _).trans unblanked
      simp only [Line.inlineLabel?_eq, dashes, arrow, rule, ← body, slice_startOf behindDashes, Option.bind_some,
        Option.isSome_some, Option.isSome_none, Bool.true_and, Bool.false_or, offsetOf?]
      by_cases third : (after? ['-'] behind).isSome
      · simp only [third]
        rfl
      · simp only [third, Bool.not_false, if_true, Bool.false_eq_true, if_false]
        cases found : cut ['-', '-', '>'] behind with
        | none => rfl
        | some parts =>
          obtain ⟨raw, rest⟩ := parts
          obtain rfl := cut_eq_some found
          rw [List.append_assoc] at behindDashes ⊢
          have ended : startOf line rest = startOf line (raw ++ (['-', '-', '>'] ++ rest)) + (raw.size + 3) := by
            rw [← List.append_assoc] at behindDashes ⊢
            rw [startOf_behind behindDashes, size_append]
            rfl
          simp only [Option.map_some, slice_part behindDashes, Option.bind_some, linkLabel_reads, ended, Nat.add_assoc]
          rfl

/-- The pieces of a link that a text starts with, as a scanner. -/
def linkPieces (t : Text) : Option Line.Link × Text :=
  match Line.takeEndpoint t with
  | (some source, behindSource) =>
    match Line.takeConnector behindSource with
    | (some (arrow, label), behindArrow) =>
      (Line.takeEndpoint behindArrow).map (Option.map (⟨source, ·, label, arrow⟩)) id
    | (none, behind) => (none, behind)
  | (none, behind) => (none, behind)

theorem linkPieces_suffix (t : Text) : (linkPieces t).2 <:+ t := by
  have source := Line.takeEndpoint_suffix t
  unfold linkPieces
  split
  · next found =>
    rw [found] at source
    have connector := (Line.takeConnector_suffix _).trans source
    split
    · next found =>
      rw [found] at connector
      exact (Line.takeEndpoint_suffix _).trans connector
    · next missing => rwa [missing] at connector
  · next missing => rwa [missing] at source

/-- A link is its pieces, if all of them are there. -/
theorem takeLink_eq (t : Text) :
    Line.takeLink t = match linkPieces t with
      | (some link, behind) => (some link, behind)
      | (none, _) => (none, t) := by
  unfold Line.takeLink linkPieces
  cases Line.takeEndpoint t with
  | mk source? rest =>
    cases source? with
    | none => rfl
    | some source =>
      simp only
      cases Line.takeConnector rest with
      | mk arrow? rest =>
        cases arrow? with
        | none => rfl
        | some found =>
          simp only
          cases Line.takeEndpoint rest with
          | mk target? rest => cases target? <;> rfl

theorem tryLink_reads : Reads tryLink linkPieces := by
  intro line t final
  have behindSource : (Line.takeEndpoint t).2 <:+ line := (Line.takeEndpoint_suffix t).trans final
  simp only [tryLink, takeEndpoint_reads final, Option.bind_eq_bind, Option.bind_some, linkPieces]
  cases source : Line.takeEndpoint t with
  | mk source? rest =>
    rw [source] at behindSource
    cases source? with
    | none => rfl
    | some source =>
      have behindArrow : (Line.takeConnector rest).2 <:+ line := (Line.takeConnector_suffix rest).trans behindSource
      simp only [takeConnector_reads behindSource, Option.bind_some]
      cases connector : Line.takeConnector rest with
      | mk arrow? rest =>
        rw [connector] at behindArrow
        cases arrow? with
        | none => rfl
        | some found =>
          simp only [takeEndpoint_reads behindArrow, Option.bind_some]
          cases target : Line.takeEndpoint rest with
          | mk target? rest => cases target? <;> rfl

theorem takeLink_reads : Reads takeLink Line.takeLink := by
  intro line t final
  simp only [takeLink, tryLink_reads final, Option.bind_eq_bind, Option.bind_some, takeLink_eq]
  cases linkPieces t with
  | mk link? behind => cases link? <;> rfl

end Offsets
end Flowchart
