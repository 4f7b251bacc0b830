import Flowchart.Proofs.Line.Offsets

/-!
The search for declarations, round by round. A round at an end of the line passes over one piece of it
(`Piece.round`), and the declarations of a text are those of its pieces, one after the other (`Piece.declarations`).
Every round leaves less of the line, so that the search is over after at most as many rounds as the line has
characters (`searches`).
-/
namespace Flowchart.Offsets
open Text
open Line (inlineLabel?)

/-- What the search passes over at once: the text, the node that its first piece
    declares, if any, and what is behind the piece. -/
inductive Piece : Text → Option Node → Text → Prop
  | delimited {c : Char} (delimits : c = '|' ∨ c = '"') (t : Text) : Piece (c :: t) none (Line.passDelimited c (c :: t))
  | inline {c : Char} {t raw behind : Text} (plain : c ≠ '|' ∧ c ≠ '"')
      (labelled : inlineLabel? (c :: t) = some (raw, behind)) : Piece (c :: t) none behind
  | word {c : Char} (idChar : isIdChar c) (t : Text) :
      Piece (c :: t)
        ((Line.takeShape (t.dropWhile isIdChar)).1.map fun (shape, label) => ⟨c :: t.takeWhile isIdChar, label, shape⟩)
        (Line.takeShape (t.dropWhile isIdChar)).2
  | other {c : Char} {t : Text} (plain : c ≠ '|' ∧ c ≠ '"') (noLabel : inlineLabel? (c :: t) = none)
      (noId : isIdChar c = false) : Piece (c :: t) none t

theorem exists_piece {t : Text} (filled : t ≠ []) : ∃ node behind, Piece t node behind := by
  obtain ⟨c, t, rfl⟩ := List.exists_cons_of_ne_nil filled
  by_cases delimits : c = '|' ∨ c = '"'
  · exact ⟨_, _, .delimited delimits t⟩
  · have plain := not_or.1 delimits
    cases labelled : inlineLabel? (c :: t) with
    | some found => exact ⟨_, _, .inline plain labelled⟩
    | none =>
      cases idChar : isIdChar c with
      | true => exact ⟨_, _, .word idChar t⟩
      | false => exact ⟨_, _, .other plain labelled idChar⟩

section
variable {t behind : Text} {node : Option Node} (piece : Piece t node behind)
include piece

theorem Piece.suffix_tail : behind <:+ t.drop 1 := by
  cases piece with
  | delimited _ t => exact Line.passDelimited_suffix _ _
  | inline _ labelled => exact (Line.inlineLabel?_suffix labelled).trans (List.drop_suffix 1 _)
  | word _ t => exact (Line.takeShape_suffix _).trans (List.dropWhile_suffix _)
  | other => exact List.suffix_refl _

theorem Piece.suffix : behind <:+ t := piece.suffix_tail.trans (List.drop_suffix 1 t)

theorem Piece.shorter : behind.length < t.length := by
  have short := piece.suffix_tail.length_le
  have filled : 0 < t.length := by cases piece <;> exact Nat.succ_pos _
  rw [List.length_drop] at short
  omega

/-- The declarations of a text are the one of its first piece, if there is one, and those behind the piece. -/
theorem Piece.declarations : Line.declarations t = node.toList ++ Line.declarations behind := by
  cases piece with
  | delimited delimits t => exact Line.declarations_delimited delimits t
  | inline plain labelled => exact Line.declarations_inline plain labelled
  | word idChar t => exact Line.declarations_word idChar t
  | other plain noLabel noId => exact Line.declarations_cons plain noLabel noId

/-- A round passes over one piece. -/
theorem Piece.round {line : Text} (final : t <:+ line) :
    Offsets.round line (startOf line t) = some (some (node, startOf line behind)) := by
  rw [Offsets.round, head?_reads final]
  cases piece with
  | @delimited c delimits t =>
    have mark : (c = '|' || c = '"') = true := by simpa using delimits
    simp only [List.head?_cons, Option.bind_eq_bind, Option.bind_some, mark, if_true, passDelimited_reads c final]
    rfl
  | @inline c t raw behind plain labelled =>
    have dash : c = '-' := by
      by_contra other
      rw [Line.inlineLabel?_of_no_dash other] at labelled
      cases labelled
    subst dash
    have passed : inlineLabel ('-' :: t) = (true, behind) := by rw [inlineLabel, labelled]
    simp only [List.head?_cons, Option.bind_eq_bind, Option.bind_some, passInlineLabel_reads final, passed]
    rfl
  | @word c idChar t =>
    have noPipe : c ≠ '|' := idChar_ne idChar (by decide)
    have noQuote : c ≠ '"' := idChar_ne idChar (by decide)
    have noMark : ¬(c = '|' || c = '"') := by simp [noPipe, noQuote]
    have noDash : c ≠ '-' := idChar_ne idChar (by decide)
    have behindWord : t.dropWhile isIdChar <:+ line :=
      (List.dropWhile_suffix _).trans ((List.suffix_cons c t).trans final)
    have taken : Line.takeId (c :: t) = (some (c :: t.takeWhile isIdChar), t.dropWhile isIdChar) := by
      simp [Line.takeId, idChar]
    simp only [List.head?_cons, Option.bind_eq_bind, Option.bind_some, noMark, noDash, if_false, idChar, if_true,
      takeId_reads final, taken, takeShape_reads behindWord]
    rfl
  | @other c behind plain noLabel noId =>
    have noMark : ¬(c = '|' || c = '"') := by simp [plain]
    have missed : inlineLabel (c :: behind) = (false, c :: behind) := by rw [inlineLabel, noLabel]
    simp only [List.head?_cons, Option.bind_eq_bind, Option.bind_some, noMark, passInlineLabel_reads final,
      missed, noId, Bool.false_eq_true, if_false, next_reads final]
    -- a dash that starts no label is passed over like any other character
    exact ite_self _

end

theorem round_nil (line : Text) : round line (startOf line []) = some none := by
  rw [round, head?_reads List.nil_suffix]
  rfl

/-- From the start of a text on, the search finds the declarations of the text. -/
theorem rounds {line t : Text} (final : t <:+ line) :
    ∃ count ≤ t.length, Rounds line (startOf line t) count (Line.declarations t) := by
  induction size : t.length using Nat.strong_induction_on generalizing t with
  | h length ih =>
    subst size
    by_cases empty : t = []
    · subst empty
      rw [Line.declarations]
      exact ⟨0, Nat.le_refl _, .stop (round_nil line)⟩
    · obtain ⟨node, behind, piece⟩ := exists_piece empty
      obtain ⟨count, few, later⟩ := ih _ piece.shorter (piece.suffix.trans final) rfl
      have shorter := piece.shorter
      rw [piece.declarations]
      exact ⟨count + 1, by omega, .more (piece.round final) later⟩

/-- The search for declarations along a line. It stops at the end of the line, and a round that starts anywhere else
    gets on, to a boundary further on. After finitely many rounds, the search has found all declarations. -/
structure Searches (line : Text) : Prop where
  stop : round line line.size = some none
  forward : ∀ {position : Nat}, OnBoundary line position → position < line.size →
    ∃ node behind, round line position = some (some (node, behind)) ∧ position < behind ∧ OnBoundary line behind
  ends : ∃ count ≤ line.length, Rounds line 0 count (Line.declarations line)

theorem searches (line : Text) : Searches line := by
  refine ⟨round_nil line, ?_, ?_⟩
  · intro position boundary before
    obtain ⟨t, final, rfl⟩ := onBoundary_iff_startOf.1 boundary
    have filled : t ≠ [] := by
      rintro rfl
      exact Nat.lt_irrefl _ before
    obtain ⟨node, behind, piece⟩ := exists_piece filled
    have ahead := startOf_lt final piece.suffix piece.shorter
    exact ⟨node, startOf line behind, piece.round final, ahead,
      onBoundary_iff_startOf.2 ⟨behind, piece.suffix.trans final, rfl⟩⟩
  · have found := rounds (List.suffix_refl line)
    rwa [startOf_self] at found

end Flowchart.Offsets
