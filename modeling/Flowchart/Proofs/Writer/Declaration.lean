import Flowchart.Proofs.Line.Offsets
import Flowchart.Proofs.Text.Punctuation
import Flowchart.Proofs.Text.Trim
import Flowchart.Writer

/-!
Written declarations. A label between its delimiters is read back as it was written (`takeShape_bracketed`): a label
that holds a delimiter stands in quotes, and a label never holds a quote, so the first closing delimiter behind it
is its own; and no bracket that is tried earlier opens where a written one does (`rivals_closed`). So a written
declaration ends where it was ended, whatever stands behind it (`fullForm_delimited`).
-/
namespace Flowchart.Writer
open Text

/-! ### Labels -/

theorem labelChar_white (c : Char) : isWhite (labelChar c) = isWhite c := by
  unfold labelChar
  split <;> rfl

theorem linkChar_white (c : Char) : isWhite (linkChar c) = isWhite c := by
  unfold linkChar
  split <;> rfl

/-- The characters that no written node label holds. -/
def labelMarks : Text := ['"', '[', ']', '\n', '\r', '\t']

/-- The characters that no written edge label holds. -/
def linkMarks : Text := ['|', '"', '\n', '\r', '\t']

theorem labelChar_apart {mark : Char} (gone : mark ∈ labelMarks) (c : Char) : labelChar c ≠ mark := by
  simp only [labelMarks, List.mem_cons, List.not_mem_nil, or_false] at gone
  unfold labelChar
  split
  all_goals rintro rfl
  all_goals simp_all

theorem linkChar_apart {mark : Char} (gone : mark ∈ linkMarks) (c : Char) : linkChar c ≠ mark := by
  simp only [linkMarks, List.mem_cons, List.not_mem_nil, or_false] at gone
  unfold linkChar
  split
  all_goals rintro rfl
  all_goals simp_all

/-- Replacing characters in a trimmed text, ink by ink and white by white, leaves it trimmed. -/
theorem trim_map_trim {f : Char → Char} (keeps : ∀ c, isWhite (f c) = isWhite c) (t : Text) :
    trim (t.trim.map f) = t.trim.map f := by
  apply trim_eq_self
  · intro c first
    rw [List.head?_map, Option.mem_def, Option.map_eq_some_iff] at first
    obtain ⟨d, inside, rfl⟩ := first
    rw [keeps]
    exact trim_startsInk t d inside
  · intro c last
    rw [List.getLast?_map, Option.mem_def, Option.map_eq_some_iff] at last
    obtain ⟨d, inside, rfl⟩ := last
    rw [keeps]
    exact trim_endsInk t d inside

theorem labelText_trim (label : Text) : (labelText label).trim = labelText label :=
  trim_map_trim labelChar_white label

theorem linkText_trim (label : Text) : (linkText label).trim = linkText label :=
  trim_map_trim linkChar_white label

theorem labelText_apart {mark : Char} (gone : mark ∈ labelMarks) (label : Text) : mark ∉ labelText label := by
  intro member
  obtain ⟨c, -, same⟩ := List.mem_map.1 member
  exact labelChar_apart gone c same

theorem linkText_apart {mark : Char} (gone : mark ∈ linkMarks) (label : Text) : mark ∉ linkText label := by
  intro member
  obtain ⟨c, -, same⟩ := List.mem_map.1 member
  exact linkChar_apart gone c same

/-! ### Between the delimiters -/

/-- What stands between the delimiters of a label. -/
def inside (label : Text) : Text := if label.any needsQuotes then '"' :: label ++ ['"'] else label

theorem bracketed_eq (n : Node) :
    bracketed n =
      (Bracket.ofShape n.shape).opening ++ inside (labelText n.label) ++ (Bracket.ofShape n.shape).closing := by
  by_cases quoted : (labelText n.label).any needsQuotes
  · simp [bracketed, inside, quoted]
  · simp [bracketed, inside, quoted]

theorem unquote_of_no_quote {label : Text} (trimmed : label.trim = label) (clean : '"' ∉ label) :
    unquote label = label := by
  have bare : between? ['"'] ['"'] label = none := by
    rw [Option.eq_none_iff_forall_not_mem]
    intro inner found
    obtain ⟨rest, opened, -⟩ := Option.bind_eq_some_iff.1 found
    rw [after?_eq_some.1 opened] at clean
    exact clean List.mem_cons_self
  rw [unquote, trimmed, bare]

theorem unquote_quoted (label : Text) : unquote ('"' :: label ++ ['"']) = label.trim := by
  have ends : EndsInk ('"' :: label ++ ['"']) :=
    endsInk_append (List.cons_ne_nil _ _) (by simp [EndsInk, isWhite])
  have ink : trim ('"' :: label ++ ['"']) = '"' :: label ++ ['"'] := trim_eq_self (startsInk_cons (by decide) _) ends
  have found : between? ['"'] ['"'] ('"' :: label ++ ['"']) = some label := between?_append ['"'] ['"'] label
  rw [unquote, ink, found]

/-- The label is found again between the delimiters. -/
theorem unquote_inside {label : Text} (trimmed : label.trim = label) (clean : '"' ∉ label) :
    unquote (inside label) = label := by
  by_cases quoted : label.any needsQuotes
  · rw [inside, if_pos quoted, unquote_quoted, trimmed]
  · rw [inside, if_neg quoted]
    exact unquote_of_no_quote trimmed clean

theorem splitQuoted_of_head {t : Text} (first : ∀ c ∈ t.head?, c ≠ '"' ∧ ¬ isBlank c) : splitQuoted t = ([], t) := by
  rw [splitQuoted]
  cases t with
  | nil => rfl
  | cons c r =>
    obtain ⟨noQuote, noBlank⟩ := first c rfl
    have stays : (c :: r).dropWhile isBlank = c :: r := by simp [noBlank]
    rw [stays]
    split
    · next same => exact absurd (List.cons.inj same).1 noQuote
    · rfl

/-- A quoted label is split off whole, and without quotes there is nothing to split off. -/
theorem splitQuoted_inside {label t : Text} (trimmed : label.trim = label) (clean : '"' ∉ label)
    (behind : ∀ c ∈ t.head?, c ≠ '"' ∧ ¬ isBlank c) :
    splitQuoted (inside label ++ t) = if label.any needsQuotes then (inside label, t) else ([], label ++ t) := by
  by_cases quoted : label.any needsQuotes
  · have found : cut ['"'] (label ++ '"' :: t) = some (label, t) := cut_char clean
    simp [inside, quoted, splitQuoted, isBlank, found]
  · have first : ∀ c ∈ (label ++ t).head?, c ≠ '"' ∧ ¬ isBlank c := by
      cases label with
      | nil => exact behind
      | cons d r =>
        intro c head
        obtain rfl : d = c := by simpa using head
        refine ⟨fun same => clean (same ▸ List.mem_cons_self), fun blank => ?_⟩
        have ink := trim_startsInk (d :: r)
        rw [trimmed] at ink
        exact ink d rfl (isWhite_of_isBlank blank)
    rw [inside, if_neg quoted, if_neg quoted, splitQuoted_of_head first]

/-! ### Which bracket is read -/

/-- The brackets that are tried before the one of a shape. -/
def rivals (s : Shape) : List Bracket := Bracket.all.takeWhile (· ≠ Bracket.ofShape s)

theorem all_eq_rivals (s : Shape) : ∃ later, Bracket.all = rivals s ++ Bracket.ofShape s :: later := by
  cases s <;> exact ⟨_, rfl⟩

/-- The bracket of a shape is chosen where it fits and its rivals do not. -/
theorem findSome?_ofShape {α : Type} {f : Bracket → Option α} {s : Shape} {a : α}
    (fits : f (Bracket.ofShape s) = some a) (others : ∀ b ∈ rivals s, f b = none) :
    Bracket.all.findSome? f = some a := by
  obtain ⟨later, split⟩ := all_eq_rivals s
  rw [split, List.findSome?_append, List.findSome?_eq_none_iff.2 others, Option.none_or, List.findSome?_cons, fits]

/-- No character that a longer opening delimiter goes on with comes first. -/
def Clear (t : Text) : Prop := ∀ c ∈ t.head?, c ∉ ['\x7b', '(', '[', '/', '\\']

/-- Behind a delimiter of one character, nothing makes it a longer one. -/
theorem rivals_closed {s : Shape} {t : Text} (clear : (Bracket.ofShape s).opening.length = 1 → Clear t) :
    ∀ b ∈ rivals s, after? b.opening ((Bracket.ofShape s).opening ++ t) = none := by
  -- Among the rivals only those of a delimiter of one character start with it.
  cases t with
  | nil => cases s <;> decide
  | cons c r =>
    cases s with
    | hexagon => simp [rivals, Bracket.all, Bracket.ofShape]
    | circle => simp [rivals, Bracket.all, Bracket.ofShape, after?]
    | cylinder => simp [rivals, Bracket.all, Bracket.ofShape, after?]
    | parallelogram => simp [rivals, Bracket.all, Bracket.ofShape, after?]
    | diamond =>
      have := clear rfl c rfl
      simp_all [rivals, Bracket.all, Bracket.ofShape, after?, eq_comm]
    | rounded =>
      have := clear rfl c rfl
      simp_all [rivals, Bracket.all, Bracket.ofShape, after?, eq_comm]
    | rectangle =>
      have := clear rfl c rfl
      simp_all [rivals, Bracket.all, Bracket.ofShape, after?, eq_comm]

theorem inside_clear {s : Shape} (short : (Bracket.ofShape s).opening.length = 1) (label t : Text) :
    Clear (inside label ++ (Bracket.ofShape s).closing ++ t) := by
  intro c first
  by_cases quoted : label.any needsQuotes
  · rw [inside, if_pos quoted] at first
    obtain rfl : '"' = c := by simpa using first
    decide
  · rw [inside, if_neg quoted] at first
    cases label with
    | nil =>
      cases s <;> simp_all [Bracket.ofShape]
      all_goals subst first; decide
    | cons d r =>
      obtain rfl : d = c := by simpa using first
      have plain : needsQuotes d = false := by
        simp only [List.any_cons, Bool.or_eq_true, not_or, Bool.not_eq_true] at quoted
        exact quoted.1
      simp_all [needsQuotes]

/-! ### Reading a declaration -/

/-- A closing delimiter starts with a character that no label without quotes holds. -/
theorem closing_cons (s : Shape) :
    ∃ m rest, (Bracket.ofShape s).closing = m :: rest ∧ needsQuotes m ∧ m ≠ '"' ∧ ¬ isBlank m := by
  cases s <;> exact ⟨_, _, rfl, by decide, by decide, by decide⟩

/-- The bracket that was written encloses the label, whatever follows it. -/
theorem enclosed?_inside {label : Text} (trimmed : label.trim = label) (clean : '"' ∉ label) (s : Shape) (t : Text) :
    (Bracket.ofShape s).enclosed?
      ((Bracket.ofShape s).opening ++ (inside label ++ (Bracket.ofShape s).closing ++ t)) =
        some ⟨Bracket.ofShape s, inside label, t⟩ := by
  obtain ⟨m, rest, closing, special, noQuote, noBlank⟩ := closing_cons s
  have behind : ∀ c ∈ ((Bracket.ofShape s).closing ++ t).head?, c ≠ '"' ∧ ¬ isBlank c := by
    intro c first
    rw [closing] at first
    obtain rfl : m = c := by simpa using first
    exact ⟨noQuote, noBlank⟩
  unfold Bracket.enclosed?
  rw [after?_append, List.append_assoc]
  simp only [Option.bind_eq_bind, Option.bind_some]
  rw [splitQuoted_inside trimmed clean behind]
  by_cases quoted : label.any needsQuotes
  · have found : cut (Bracket.ofShape s).closing ((Bracket.ofShape s).closing ++ t) = some ([], t) := by
      have first : cut (m :: rest) ([] ++ m :: rest ++ t) = some ([], t) := cut_append List.not_mem_nil
      rwa [closing]
    simp [quoted, found]
  · have apart : m ∉ label := by
      intro member
      exact quoted (List.any_eq_true.2 ⟨m, member, special⟩)
    have found : cut (Bracket.ofShape s).closing (label ++ ((Bracket.ofShape s).closing ++ t)) = some (label, t) := by
      rw [closing, ← List.append_assoc]
      exact cut_append apart
    simp [quoted, found, inside]

/-- What was written is enclosed by its own bracket and by none that is tried before. -/
theorem enclosed?_bracketed (n : Node) (t : Text) :
    enclosed? (bracketed n ++ t) = some ⟨Bracket.ofShape n.shape, inside (labelText n.label), t⟩ := by
  have trimmed := labelText_trim n.label
  have clean : '"' ∉ labelText n.label := labelText_apart (by decide) n.label
  rw [bracketed_eq, List.append_assoc, List.append_assoc, ← List.append_assoc (inside _)]
  apply findSome?_ofShape (enclosed?_inside trimmed clean n.shape t)
  intro b rival
  unfold Bracket.enclosed?
  rw [rivals_closed (fun short => inside_clear short _ t) b rival]
  rfl

theorem opening_ink (s : Shape) : (Bracket.ofShape s).opening ≠ [] ∧ StartsInk (Bracket.ofShape s).opening := by
  cases s <;> exact ⟨List.cons_ne_nil _ _, by simp [StartsInk, Bracket.ofShape, isWhite]⟩

theorem closing_ink (s : Shape) : (Bracket.ofShape s).closing ≠ [] ∧ EndsInk (Bracket.ofShape s).closing := by
  cases s <;> exact ⟨List.cons_ne_nil _ _, by simp [EndsInk, Bracket.ofShape, isWhite]⟩

theorem bracketed_ne_nil (n : Node) : bracketed n ≠ [] := by
  rw [bracketed_eq]
  exact List.append_ne_nil_of_right_ne_nil _ (closing_ink n.shape).1

theorem bracketed_startsInk (n : Node) : StartsInk (bracketed n) := by
  obtain ⟨filled, starts⟩ := opening_ink n.shape
  rw [bracketed_eq, List.append_assoc]
  exact startsInk_append filled starts

theorem bracketed_endsInk (n : Node) : EndsInk (bracketed n) := by
  obtain ⟨filled, ends⟩ := closing_ink n.shape
  rw [bracketed_eq]
  exact endsInk_append filled ends

theorem bracketed_trim (n : Node) : (bracketed n).trim = bracketed n :=
  trim_eq_self (bracketed_startsInk n) (bracketed_endsInk n)

theorem ofShape_shape (s : Shape) : (Bracket.ofShape s).shape = s := by cases s <;> rfl

theorem shapeAndLabel_bracketed (n : Node) : shapeAndLabel (bracketed n) = (n.shape, labelText n.label) := by
  have trimmed := labelText_trim n.label
  have clean : '"' ∉ labelText n.label := labelText_apart (by decide) n.label
  unfold shapeAndLabel
  rw [bracketed_trim, bracketed_eq]
  have fits := between?_append (Bracket.ofShape n.shape).opening (Bracket.ofShape n.shape).closing
    (inside (labelText n.label))
  rw [findSome?_ofShape (s := n.shape) (a := (n.shape, labelText n.label))]
  · rfl
  · rw [fits, Option.map_some, unquote_inside trimmed clean, ofShape_shape]
  · intro b rival
    have clear := fun short => inside_clear (s := n.shape) short (labelText n.label) []
    have closed := rivals_closed clear b rival
    rw [List.append_nil, ← List.append_assoc] at closed
    rw [between?, closed]
    rfl

/-- A declaration is read back as it was written. -/
theorem takeShape_bracketed (n : Node) (t : Text) :
    Line.takeShape (bracketed n ++ t) = (some (n.shape, labelText n.label), t) := by
  rw [Line.takeShape, enclosed?_bracketed]
  simp only [Enclosed.declaration, ← bracketed_eq, shapeAndLabel_bracketed]

/-- What a node in full has behind the id delimits itself. It states the shape and the written label of the node;
    and in front of any text, the declaration that is found is exactly what was written, by its own bracket, also
    where it is measured by byte offsets. -/
theorem fullForm_delimited (n : Node) :
    ∃ shape, fullForm n = n.id ++ shape ∧ shapeAndLabel shape = (n.shape, labelText n.label) ∧
      ∀ t : Text,
        (∃ e, enclosed? (shape ++ t) = some e ∧ e.bracket = Bracket.ofShape n.shape ∧
          e.declaration = shape ∧ e.rest = t) ∧
        Offsets.extent? (shape ++ t) Bracket.all = some (some shape.size) := by
  refine ⟨bracketed n, rfl, shapeAndLabel_bracketed n, fun t => ?_⟩
  have found := enclosed?_bracketed n t
  have whole : Enclosed.declaration ⟨Bracket.ofShape n.shape, inside (labelText n.label), t⟩ = bracketed n :=
    (bracketed_eq n).symm
  refine ⟨⟨_, found, rfl, whole, rfl⟩, ?_⟩
  rw [Offsets.extent?_reads, found, Option.map_some, whole]

end Flowchart.Writer
