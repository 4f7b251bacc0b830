import Flowchart.Proofs.Line.Sites

/-!
The two readers of a bracket pair. The pair is found by an opening delimiter and the first closing one behind a
quoted label (`enclosed?`), and its shape and label are read off what was cut out, by what that starts and ends with
(`shapeAndLabel`). Both try the more specific delimiters first. They come to the same delimiters, unless more
specific ones fit what was cut out around a quote that is closed behind it only: the first reader has passed over
their closing delimiter inside of the quotes, and the second reads it (`shapeAndLabel_declaration`).
-/
namespace Flowchart.Line
open Text

/-- Delimiters that fit what was cut out, with a quote between them that is closed only behind it. -/
structure Straddles (b : Bracket) (inner : Text) (e : Enclosed) : Prop where
  known : b ∈ Bracket.all
  text : e.declaration = b.opening ++ inner ++ b.closing
  opens : ∃ label, passBlanks inner = '"' :: label ∧ '"' ∉ label
  closes : '"' ∈ e.rest

/-! ### The order of the delimiters -/

theorem tried_before : Bracket.all.Pairwise fun b later => ¬ b.opening <+: later.opening := by decide

theorem not_isPrefix_of_tried {front later : List Bracket} {b b' : Bracket} (table : Bracket.all = front ++ b :: later)
    (behind : b' ∈ later) : ¬ b.opening <+: b'.opening :=
  List.rel_of_pairwise_cons (List.pairwise_append.1 (table ▸ tried_before)).2.1 behind

theorem delimiters_unquoted : ∀ b ∈ Bracket.all, '"' ∉ b.opening ∧ '"' ∉ b.closing := by decide

theorem opening_isPrefix {b : Bracket} {inner t : Text} (fits : t = b.opening ++ inner ++ b.closing) :
    b.opening <+: t :=
  ⟨inner ++ b.closing, by rw [fits, List.append_assoc]⟩

/-- Delimiters that fit a text are the first to do so, or they are tried behind these. -/
theorem first_or_behind {t : Text} {front later : List Bracket} {first b : Bracket} {inner : Text}
    (known : b ∈ Bracket.all) (table : Bracket.all = front ++ first :: later)
    (tried : ∀ b' ∈ front, between? b'.opening b'.closing t = none) (fits : t = b.opening ++ inner ++ b.closing) :
    b = first ∨ b ∈ later := by
  rw [table, List.mem_append, List.mem_cons] at known
  rcases known with before | here | behind
  · have none := tried b before
    rw [between?_eq_some.2 fits] at none
    cases none
  · exact .inl here
  · exact .inr behind

/-- Of the delimiters that fit, those with the longest opening one are read. -/
theorem shapeAndLabel_of_longest {b : Bracket} {inner t : Text} (known : b ∈ Bracket.all) (trimmed : t.trim = t)
    (fits : t = b.opening ++ inner ++ b.closing)
    (longest : ∀ b' ∈ Bracket.all, b'.opening <+: t → b'.opening <+: b.opening) :
    shapeAndLabel t = (b.shape, unquote inner) := by
  obtain ⟨front, first, later, body, table, text, said, tried⟩ := shapeAndLabel_first trimmed known fits
  rcases first_or_behind known table tried fits with rfl | behind
  · rw [text, List.append_cancel_right_eq, List.append_cancel_left_eq] at fits
    rw [said, fits]
  · have shorter := longest first (by simp [table]) (opening_isPrefix text)
    exact absurd shorter (not_isPrefix_of_tried table behind)

/-! ### Quotes -/

/-- Of a text with a closing delimiter in it, a quote in front is one in front of the delimiter. -/
theorem quote_before_closing {b : Bracket} (known : b ∈ Bracket.all) {inner rest r : Text}
    (opens : passBlanks (inner ++ (b.closing ++ rest)) = '"' :: r) :
    ∃ label, passBlanks inner = '"' :: label ∧ r = label ++ (b.closing ++ rest) := by
  rw [passBlanks, List.dropWhile_append] at opens
  split at opens
  · obtain ⟨c, closing, split⟩ := List.exists_cons_of_ne_nil (closing_solid b known).filled
    have ink := ((closing_solid b known).solid c (by simp [split])).1
    rw [split, List.cons_append, List.dropWhile_cons_of_neg (by simp [ink])] at opens
    have quote : c = '"' := (List.cons.inj opens).1
    exact absurd (by simp [split, quote]) (delimiters_unquoted b known).2
  · next some =>
    obtain ⟨c, label, split⟩ := List.exists_cons_of_ne_nil (by simpa using some : inner.dropWhile isBlank ≠ [])
    rw [split, List.cons_append] at opens
    obtain ⟨rfl, rfl⟩ := List.cons.inj opens
    exact ⟨label, split, rfl⟩

/-- Behind an opening delimiter the closing one is looked for behind a quoted label. -/
theorem enclosed?_opening (b : Bracket) (inside : Text) :
    b.enclosed? (b.opening ++ inside) =
      (cut b.closing (splitQuoted inside).2).map fun parts => ⟨b, (splitQuoted inside).1 ++ parts.1, parts.2⟩ := by
  simp only [Bracket.enclosed?, after?_append, Option.bind_eq_bind, Option.bind_some]
  cases cut b.closing (splitQuoted inside).2 <;> rfl

/-- Delimiters that fit the front of a text are missed there only where their closing one stands inside of quotes. -/
theorem straddles_of_missed {b : Bracket} (known : b ∈ Bracket.all) {inner rest : Text}
    (missed : b.enclosed? (b.opening ++ (inner ++ (b.closing ++ rest))) = none) :
    (∃ label, passBlanks inner = '"' :: label ∧ '"' ∉ label) ∧ '"' ∈ rest := by
  have noneBehind : ¬ b.closing <:+: (splitQuoted (inner ++ (b.closing ++ rest))).2 := by
    rwa [enclosed?_opening, Option.map_eq_none_iff, ← Option.not_isSome_iff_eq_none, cut_isSome_iff] at missed
  rw [splitQuoted_eq] at noneBehind
  split at noneBehind
  · next quoted behind found =>
    obtain ⟨r, start, closed⟩ := Option.bind_eq_some_iff.1 found
    obtain ⟨label, opens, rfl⟩ := quote_before_closing known (after?_eq_some.1 start)
    have single : '"' ∉ label := by
      intro member
      obtain ⟨front, later, rfl, apart⟩ := List.eq_append_cons_of_mem member
      rw [List.append_assoc, List.cons_append, cut_char apart] at closed
      obtain ⟨-, rfl⟩ := Prod.mk.inj (Option.some.inj closed)
      exact noneBehind ⟨later, rest, by simp⟩
    refine ⟨⟨label, opens, single⟩, ?_⟩
    have quote : '"' ∈ label ++ (b.closing ++ rest) := by
      rw [cut_eq_some closed]
      simp
    simpa [single, (delimiters_unquoted b known).2] using quote
  · exact absurd ⟨inner, rest, by simp⟩ noneBehind

/-- Delimiters that straddle a quote do not find what was cut out. -/
theorem Straddles.missed {b : Bracket} {inner : Text} {e : Enclosed} (straddles : Straddles b inner e) :
    b.enclosed? (e.declaration ++ e.rest) ≠ some e := by
  obtain ⟨label, opens, single⟩ := straddles.opens
  obtain ⟨front, behind, ends, apart⟩ := List.eq_append_cons_of_mem straddles.closes
  -- The quoted text goes on to the first quote behind the pair.
  have split : (splitQuoted (inner ++ (b.closing ++ e.rest))).2 = behind := by
    have start : passBlanks (inner ++ (b.closing ++ e.rest)) = ['"'] ++ (label ++ (b.closing ++ e.rest)) := by
      unfold passBlanks at opens ⊢
      rw [List.dropWhile_append, opens]
      rfl
    have closed : cut ['"'] (label ++ (b.closing ++ e.rest)) = some (label ++ (b.closing ++ front), behind) := by
      have open' : '"' ∉ label ++ (b.closing ++ front) := by
        simp [single, (delimiters_unquoted b straddles.known).2, apart]
      have cutThere := cut_char open' (t := behind)
      rwa [List.append_assoc, List.append_assoc, ← ends] at cutThere
    rw [splitQuoted_eq, start, after?_append, Option.bind_some, closed]
  intro found
  rw [straddles.text, List.append_assoc, List.append_assoc, enclosed?_opening, split, Option.map_eq_some_iff] at found
  obtain ⟨parts, later, same⟩ := found
  have shorter := (cut_suffix later).length_le
  rw [show parts.2 = e.rest from congrArg Enclosed.rest same, ends, List.length_append, List.length_cons] at shorter
  omega

/-! ### The two readers -/

/-- Where a quote is between the delimiters, no longer opening one fits. -/
theorem Straddles.longest {b : Bracket} {inner : Text} {e : Enclosed} (straddles : Straddles b inner e) :
    ∀ b' ∈ Bracket.all, b'.opening <+: e.declaration → b'.opening <+: b.opening := by
  intro b' known starts
  rw [straddles.text, List.append_assoc] at starts
  rcases List.prefix_or_prefix_of_prefix starts (List.prefix_append b.opening _) with shorter | ⟨more, longer⟩
  · exact shorter
  · cases more with
    | nil => exact ⟨[], by rw [← longer, List.append_nil, List.append_nil]⟩
    | cons c more =>
      obtain ⟨label, opens, -⟩ := straddles.opens
      obtain ⟨rest, split⟩ := starts
      rw [← longer, List.append_assoc, List.append_cancel_left_eq, List.cons_append] at split
      -- What is between the delimiters would start with the rest of the longer one.
      have member : c ∈ b'.opening := by simp [← longer]
      have ink := ((opening_solid b' known).solid c member).1
      cases inner with
      | nil => cases opens
      | cons d inner =>
        obtain rfl := (List.cons.inj split).1
        rw [passBlanks, List.dropWhile_cons_of_neg (by simp [ink])] at opens
        exact absurd ((List.cons.inj opens).1 ▸ member) (delimiters_unquoted b' known).1

theorem Straddles.reads {b : Bracket} {inner : Text} {e : Enclosed} (straddles : Straddles b inner e)
    (trimmed : e.declaration.trim = e.declaration) : shapeAndLabel e.declaration = (b.shape, unquote inner) :=
  shapeAndLabel_of_longest straddles.known trimmed straddles.text straddles.longest

/-- Where the delimiters that a text is read by are not those it was found by, they straddle a quote. -/
theorem straddles_of_read {t : Text} {e : Enclosed} (found : enclosed? t = some e)
    {front later : List Bracket} {b : Bracket} {inner : Text} (table : Bracket.all = front ++ b :: later)
    (fits : e.declaration = b.opening ++ inner ++ b.closing)
    (tried : ∀ b' ∈ front, between? b'.opening b'.closing e.declaration = none) (other : b ≠ e.bracket) :
    Straddles b inner e := by
  obtain ⟨known, split⟩ := enclosed?_eq_some found
  obtain ⟨front', b', later', table', finding, missed⟩ := List.findSome?_eq_some_iff.1 found
  obtain ⟨rfl, -⟩ := Bracket.enclosed?_eq_some finding
  have behind : e.bracket ∈ later := (first_or_behind known table tried rfl).resolve_left other.symm
  have comparable := List.prefix_or_prefix_of_prefix (opening_isPrefix fits) (opening_isPrefix (b := e.bracket) rfl)
  have longer : e.bracket.opening <+: b.opening := comparable.resolve_left (not_isPrefix_of_tried table behind)
  have member : b ∈ Bracket.all := by simp [table]
  -- So the search for the pair tried them before, and missed them.
  have before : b ∈ front' := by
    have place := member
    rw [table', List.mem_append, List.mem_cons] at place
    rcases place with before | here | later
    · exact before
    · exact absurd here other
    · exact absurd longer (not_isPrefix_of_tried table' later)
  have missing := missed b before
  rw [split, fits, List.append_assoc, List.append_assoc] at missing
  obtain ⟨opens, closes⟩ := straddles_of_missed member missing
  exact ⟨member, fits, opens, closes⟩

theorem reads_or_straddles {t : Text} {e : Enclosed} (found : enclosed? t = some e) :
    shapeAndLabel e.declaration = (e.bracket.shape, unquote e.body) ∨ ∃ b inner, Straddles b inner e := by
  obtain ⟨known, -⟩ := enclosed?_eq_some found
  obtain ⟨front, b, later, inner, table, fits, said, tried⟩ := shapeAndLabel_first (enclosed_trim known) known rfl
  by_cases same : b = e.bracket
  · left
    rw [same, Enclosed.declaration, List.append_cancel_right_eq, List.append_cancel_left_eq] at fits
    rw [said, same, fits]
  · exact .inr ⟨b, inner, straddles_of_read found table fits tried same⟩

/-! ### Labels -/

/-- Delimiters with a longer opening one have a longer closing one. -/
theorem delimiters_nest : ∀ b ∈ Bracket.all, ∀ b' ∈ Bracket.all, b'.opening <+: b.opening →
    b = b' ∨ b'.opening.length < b.opening.length ∧ b'.closing <:+ b.closing := by decide

theorem opening_dark : ∀ b ∈ Bracket.all, ∀ c ∈ b.opening, ¬ isWhite c := by
  simp [Bracket.all, isWhite]

/-- A label is left as it is where no quote is around it. -/
theorem unquote_open {c : Char} {label : Text} (ink : ¬ isWhite c) (bare : c = '"' → '"' ∉ label) :
    unquote (c :: label) = c :: label.trimEnd := by
  have ends : EndsInk [c] := by simpa [EndsInk] using ink
  have trimmed : trim (c :: label) = c :: label.trimEnd := by
    rw [trim, trimStart, List.dropWhile_cons_of_neg ink]
    exact trimEnd_append_of_ink ends label
  have bareTrimmed : between? ['"'] ['"'] (c :: label.trimEnd) = none := by
    rw [Option.eq_none_iff_forall_not_mem]
    intro inner quoted
    obtain ⟨same, rest⟩ := List.cons.inj (between?_eq_some.1 quoted)
    have member : '"' ∈ label.trimEnd := by
      rw [rest]
      simp
    exact bare same ((trimEnd_isPrefix label).subset member)
  rw [unquote, trimmed, bareTrimmed]

theorem unquote_passBlanks (t : Text) : unquote (passBlanks t) = unquote t := by
  have white : White (t.takeWhile isBlank) := fun c member => isWhite_of_isBlank (List.mem_takeWhile_imp member)
  have trimmed : trim (passBlanks t) = trim t := by
    rw [← trim_white_append white]
    exact congrArg trim List.takeWhile_append_dropWhile
  rw [unquote, unquote, trimmed]

/-- Delimiters that straddle a quote say another label than those that the pair was found by. -/
theorem Straddles.label_ne {t : Text} {e : Enclosed} (found : enclosed? t = some e) {b : Bracket} {inner : Text}
    (straddles : Straddles b inner e) : unquote inner ≠ unquote e.body := by
  obtain ⟨known, split⟩ := enclosed?_eq_some found
  have shorter := straddles.longest _ known (opening_isPrefix rfl)
  have other : b ≠ e.bracket := by
    rintro rfl
    obtain ⟨b', -, finding⟩ := List.exists_of_findSome?_eq_some found
    obtain ⟨rfl, -⟩ := Bracket.enclosed?_eq_some finding
    exact straddles.missed (split ▸ finding)
  obtain ⟨longer, less, closing⟩ := (delimiters_nest b straddles.known _ known shorter).resolve_left other
  obtain ⟨more, grown⟩ := shorter
  obtain ⟨c, more, rfl⟩ := List.exists_cons_of_ne_nil (l := more) (by rintro rfl; simp [← grown] at longer)
  have body : e.body = c :: (more ++ inner ++ less) := by
    have both : e.body ++ e.bracket.closing = c :: (more ++ inner ++ less) ++ e.bracket.closing := by
      simpa [Enclosed.declaration, ← grown, ← closing] using straddles.text
    exact List.append_cancel_right both
  -- The one label starts with what makes the opening delimiter longer, and the other with the quote.
  have member : c ∈ b.opening := by simp [← grown]
  have bare : c ≠ '"' := fun quote => (delimiters_unquoted b straddles.known).1 (quote ▸ member)
  have outer : unquote e.body = c :: trimEnd (more ++ inner ++ less) := by
    rw [body]
    exact unquote_open (opening_dark b straddles.known c member) fun quote => absurd quote bare
  obtain ⟨label, opens, single⟩ := straddles.opens
  have quoted : unquote inner = '"' :: trimEnd label := by
    rw [← unquote_passBlanks inner, opens, unquote_open (by decide) fun _ => single]
  rw [quoted, outer]
  exact fun same => bare (List.cons.inj same).1.symm

/-- The shape and label that are read off a bracket pair are those of the delimiters it was found by, just where no
    others straddle a quote; and where some do, what is read is theirs. -/
theorem shapeAndLabel_declaration {t : Text} {e : Enclosed} (found : enclosed? t = some e) :
    (shapeAndLabel e.declaration = (e.bracket.shape, unquote e.body) ↔ ∀ b inner, ¬ Straddles b inner e) ∧
      ∀ b inner, Straddles b inner e → shapeAndLabel e.declaration = (b.shape, unquote inner) := by
  have trimmed := enclosed_trim (enclosed?_eq_some found).1
  refine ⟨⟨fun agrees b inner straddles => ?_, fun none => ?_⟩, fun b inner straddles => straddles.reads trimmed⟩
  · have labels := congrArg Prod.snd ((straddles.reads trimmed).symm.trans agrees)
    exact straddles.label_ne found labels
  · refine (reads_or_straddles found).resolve_right ?_
    rintro ⟨b, inner, straddles⟩
    exact none b inner straddles

/-- A rectangle with an opening parenthesis and a quote in it, in front of another quote. -/
def straddled : Enclosed := ⟨⟨['['], [']'], .rectangle⟩, ['(', '"', 'a', ')'], ['"']⟩

theorem shapeAndLabel_straddled :
    enclosed? (straddled.declaration ++ straddled.rest) = some straddled ∧
      Straddles ⟨['[', '('], [')', ']'], .cylinder⟩ ['"', 'a'] straddled ∧
      (shapeAndLabel straddled.declaration = (.rectangle, ['(', '"', 'a', ')']) ↔
        ∀ b inner, ¬ Straddles b inner straddled) ∧
      shapeAndLabel straddled.declaration = (.cylinder, ['"', 'a']) := by
  have found : enclosed? (straddled.declaration ++ straddled.rest) = some straddled := by decide +kernel
  have straddles : Straddles ⟨['[', '('], [')', ']'], .cylinder⟩ ['"', 'a'] straddled :=
    ⟨by decide, by decide, ⟨['a'], by decide, by decide⟩, by decide⟩
  obtain ⟨agrees, reads⟩ := shapeAndLabel_declaration found
  exact ⟨found, straddles, agrees, reads _ _ straddles⟩

theorem not_shapeAndLabel_bracket :
    ¬ ∀ (t : Text) (e : Enclosed), enclosed? t = some e →
      shapeAndLabel e.declaration = (e.bracket.shape, unquote e.body) := by
  intro agrees
  have found : enclosed? (straddled.declaration ++ straddled.rest) = some straddled := by decide +kernel
  have same := agrees _ straddled found
  exact absurd same (by decide +kernel)

end Flowchart.Line
