import Flowchart.Proofs.Writer.Line

/-!
Every spelling of an edge is read. The ends of an edge stand by their ids or in full, blanks may stand or be missing
around every part of the connector, and its label is any text without the mark that closes it (`parse_spelled`). The
inline form of a label says what the form between pipes says. A line is not read where its first word is a
directive, and whether it is one does not depend on anything behind the first character of the connector
(`startsDirective_foreign`).
-/
namespace Flowchart.Line
open Text Writer

/-! ### The line of an edge -/

/-- The blanks of a line with an edge. -/
structure Gaps where
  /-- In front of the arrow. -/
  front : Text
  /-- Between the arrow and the label. -/
  inner : Text
  /-- In front of the target. -/
  back : Text

/-- Spaces and tabs, or none. -/
def Gaps.Blank (g : Gaps) : Prop := ∀ w ∈ [g.front, g.inner, g.back], ∀ c ∈ w, isBlank c

/-- An edge with an arrow, and a label between pipes if there is one. -/
def arrowLine (g : Gaps) (source token : Text) (label : Option Text) (target : Text) : Text :=
  source ++ (g.front ++ (token ++ (g.inner ++ (piped label ++ (g.back ++ target)))))

/-- An edge with its label in the inline form. -/
def inlineLine (g : Gaps) (source raw target : Text) : Text :=
  source ++ (g.front ++ '-' :: '-' :: ' ' :: (raw ++ ' ' :: (inlineEnd ++ (g.back ++ target))))

/-! ### What follows the source -/

theorem detached_blank {c : Char} (blank : isBlank c) (t : Text) : Detached (c :: t) := by
  refine ⟨?_, ?_⟩
  · intro d first
    obtain rfl : c = d := by simpa using first
    exact isIdChar_of_isBlank blank
  · simp only [isBlank, Bool.or_eq_true, decide_eq_true_eq] at blank
    rcases blank with rfl | rfl <;> rfl

theorem detached_arrow {c : Char} (member : c ∈ ['-', '=']) (t : Text) : Detached (c :: t) := by
  simp only [List.mem_cons, List.not_mem_nil, or_false] at member
  rcases member with rfl | rfl <;> exact ⟨stops_cons (by decide), rfl⟩

/-- A connector with blanks in front of it does not belong to the source. -/
theorem detached_connector {w : Text} (blanks : ∀ c ∈ w, isBlank c) {c : Char} (member : c ∈ ['-', '=']) (t : Text) :
    Detached (w ++ c :: t) := by
  cases w with
  | nil => exact detached_arrow member t
  | cons d w => exact detached_blank (blanks d List.mem_cons_self) _

/-- The first word of a line is a directive or not, whatever comes behind a character of ink that no directive holds. -/
theorem startsDirective_foreign {m : Char} (ink : ¬ isWhite m) (foreign : ∀ word ∈ directives, m ∉ word)
    (front s t : Text) : startsDirective (front ++ m :: s) = startsDirective (front ++ m :: t) := by
  have passed : ∀ s, trimStart (front ++ m :: s) = trimStart front ++ m :: s := by
    intro s
    unfold trimStart
    rw [List.dropWhile_append]
    split
    · next all => simp [List.isEmpty_iff.1 all, ink]
    · rfl
  have none : ∀ {word : Text}, m ∈ word → directives.contains word = false := by
    intro word member
    by_contra directive
    exact foreign word (by simpa using directive) member
  unfold startsDirective firstWord
  rw [passed, passed]
  -- Either the first word ends within the front, or it holds the character.
  by_cases all : ∀ c ∈ trimStart front, (!isWhite c) = true
  · rw [List.takeWhile_append_of_pos all, List.takeWhile_append_of_pos all, none (by simp [ink]), none (by simp [ink])]
  · have within : ∀ s, (trimStart front ++ m :: s).takeWhile (!isWhite ·) =
        (trimStart front).takeWhile (!isWhite ·) := by
      intro s
      rw [List.takeWhile_append, if_neg]
      intro whole
      exact all (List.takeWhile_eq_self_iff.1 ((List.takeWhile_prefix _).eq_of_length whole))
    rw [within, within]

/-! ### Reading the line -/

section
variable {source target : Node} (sourceValid : isId source.id) (targetValid : isId target.id)
    (sourceFull targetFull : Bool)
include sourceValid targetValid

theorem trim_linked (connector : Text) :
    trim (form sourceFull source ++ (connector ++ form targetFull target)) =
      form sourceFull source ++ (connector ++ form targetFull target) := by
  obtain ⟨c, r, first, idChar⟩ := form_cons sourceValid sourceFull
  obtain ⟨filled, ink⟩ := form_endsInk targetValid targetFull
  refine trim_eq_self ?_
    (endsInk_append (List.append_ne_nil_of_right_ne_nil connector filled) (endsInk_append filled ink))
  rw [first]
  exact startsInk_cons (idChar_ink idChar) _

/-- Two ends with a connector between them are read as a link, and they declare what stands in full. -/
theorem parse_linked {connector w : Text} {arrow : Arrow} {label : Option Text} (blanks : ∀ c ∈ w, isBlank c)
    (detached : Detached (connector ++ form targetFull target))
    (connected : takeConnector (connector ++ form targetFull target) =
      (some (arrow, label), w ++ form targetFull target))
    (plain : startsDirective (form sourceFull source ++ (connector ++ form targetFull target)) = false) :
    parse (form sourceFull source ++ (connector ++ form targetFull target)) =
      .content (declared sourceFull source ++ declared targetFull target)
        (some ⟨source.id, target.id, label, arrow⟩) := by
  obtain ⟨c, r, first, idChar⟩ := form_cons sourceValid sourceFull
  have head : form sourceFull source ++ (connector ++ form targetFull target) =
      c :: (r ++ (connector ++ form targetFull target)) := by rw [first]; rfl
  have last := takeEndpoint_form targetValid targetFull detached_nil
  rw [List.append_nil] at last
  have linked : link? (form sourceFull source ++ (connector ++ form targetFull target)) =
      some ⟨source.id, target.id, label, arrow⟩ := by
    unfold link? takeLink
    rw [takeEndpoint_form sourceValid sourceFull detached]
    simp only [connected, takeEndpoint_blanks blanks, last]
  have declares : declarations (form sourceFull source ++ (connector ++ form targetFull target)) =
      declared sourceFull source ++ declared targetFull target := by
    rw [declarations_form sourceValid sourceFull detached, declarations_walk.takeConnector connected,
      declarations_walk.blanks blanks, declarations_alone targetValid]
  rw [parse, trim_linked sourceValid targetValid,
    statementOf_id head idChar plain (.inr (by simp [linked])), linked, declares]

variable {g : Gaps} (blank : g.Blank)
include blank

theorem parse_arrowLine {token : Text} {arrow : Arrow} (known : (token, arrow) ∈ Arrow.tokens) {label : Option Text}
    (clean : ∀ raw ∈ label, '|' ∉ raw)
    (plain : startsDirective (arrowLine g (form sourceFull source) token label (form targetFull target)) = false) :
    parse (arrowLine g (form sourceFull source) token label (form targetFull target)) =
      .content (declared sourceFull source ++ declared targetFull target)
        (some ⟨source.id, target.id, label.bind linkLabel, arrow⟩) := by
  have front := blank g.front (by simp)
  have inner := blank g.inner (by simp)
  have back := blank g.back (by simp)
  obtain ⟨c, r, shape, member⟩ := token_cons known
  have taken := takeConnector_token front known (g.inner ++ (piped label ++ (g.back ++ form targetFull target)))
  have line : arrowLine g (form sourceFull source) token label (form targetFull target) =
      form sourceFull source ++ (g.front ++ token ++ g.inner ++ piped label ++ g.back ++ form targetFull target) := by
    simp [arrowLine]
  have detached : Detached (g.front ++ token ++ g.inner ++ piped label ++ g.back ++ form targetFull target) := by
    simpa [shape] using detached_connector front member
      (r ++ (g.inner ++ (piped label ++ (g.back ++ form targetFull target))))
  rw [line] at plain ⊢
  cases label with
  | none =>
    obtain ⟨d, s, target', idChar⟩ := form_cons targetValid targetFull
    have blanks : ∀ c ∈ g.inner ++ g.back, isBlank c := by
      intro c inside
      exact (List.mem_append.1 inside).elim (inner c) (back c)
    have bare : takeLabel (g.inner ++ (g.back ++ form targetFull target)) =
        (none, g.inner ++ (g.back ++ form targetFull target)) := by
      refine takeLabel_none ?_
      rw [← List.append_assoc, passBlanks_append_blanks blanks, target', passBlanks_ink (idChar_not_blank idChar)]
      simpa using idChar_ne idChar (d := '|') (by decide)
    simp only [piped, List.nil_append, bare] at taken
    refine parse_linked sourceValid targetValid sourceFull targetFull blanks detached ?_ plain
    simpa [piped] using taken
  | some raw =>
    have labelled := takeLabel_pipes inner (clean raw rfl) (g.back ++ form targetFull target)
    have split : piped (some raw) ++ (g.back ++ form targetFull target) =
        '|' :: (raw ++ '|' :: (g.back ++ form targetFull target)) := by simp [piped]
    rw [split, labelled] at taken
    refine parse_linked sourceValid targetValid sourceFull targetFull back detached ?_ plain
    simpa [piped] using taken

/-- In the inline form a line states what it states with the label between pipes, also when it is passed over. -/
theorem parse_inlineLine {raw : Text} (clean : '|' ∉ raw) (absent : ¬ inlineEnd <:+: raw) :
    parse (inlineLine g (form sourceFull source) raw (form targetFull target)) =
      parse (arrowLine { g with inner := [] } (form sourceFull source) inlineEnd (some raw)
        (form targetFull target)) := by
  have front := blank g.front (by simp)
  have back := blank g.back (by simp)
  let inline := g.front ++ '-' :: '-' :: ' ' :: (raw ++ ' ' :: (inlineEnd ++ g.back))
  let pipes := g.front ++ (inlineEnd ++ (piped (some raw) ++ g.back))
  have inline' : inlineLine g (form sourceFull source) raw (form targetFull target) =
      form sourceFull source ++ (inline ++ form targetFull target) := by simp [inlineLine, inline]
  have pipes' :
      arrowLine { g with inner := [] } (form sourceFull source) inlineEnd (some raw) (form targetFull target) =
        form sourceFull source ++ (pipes ++ form targetFull target) := by simp [arrowLine, pipes]
  have same : startsDirective (form sourceFull source ++ (pipes ++ form targetFull target)) =
      startsDirective (form sourceFull source ++ (inline ++ form targetFull target)) := by
    simpa [inline, pipes, inlineEnd] using startsDirective_foreign (m := '-') (by decide) (by decide +kernel)
      (form sourceFull source ++ g.front) ('-' :: '>' :: (piped (some raw) ++ (g.back ++ form targetFull target)))
      ('-' :: ' ' :: (raw ++ ' ' :: (inlineEnd ++ (g.back ++ form targetFull target))))
  by_cases directive : startsDirective (form sourceFull source ++ (inline ++ form targetFull target))
  · have skipped : ∀ {t : Text}, startsDirective t → statementOf t = .skip := by
      intro t directive
      simp [statementOf, directive]
    rw [inline', pipes', parse, parse, trim_linked sourceValid targetValid, trim_linked sourceValid targetValid,
      skipped directive, skipped (same ▸ directive)]
  · have plain : startsDirective (form sourceFull source ++ (inline ++ form targetFull target)) = false := by
      simpa using directive
    have gaps : ({ g with inner := [] } : Gaps).Blank := by
      intro w member
      simp only [List.mem_cons, List.not_mem_nil, or_false] at member
      rcases member with rfl | rfl | rfl
      · exact front
      · exact List.forall_mem_nil _
      · exact back
    have known : (inlineEnd, Arrow.solid) ∈ Arrow.tokens := by decide
    have labelled : ∀ r ∈ some raw, '|' ∉ r := by simpa using clean
    have read := parse_arrowLine sourceValid targetValid sourceFull targetFull gaps known labelled
      (by rw [pipes', same, plain])
    have taken := takeConnector_inline front absent (g.back ++ form targetFull target)
    have detached : Detached (inline ++ form targetFull target) := by
      simpa [inline] using detached_connector front (c := '-') (by decide)
        ('-' :: ' ' :: (raw ++ ' ' :: (inlineEnd ++ (g.back ++ form targetFull target))))
    rw [read, inline', parse_linked sourceValid targetValid sourceFull targetFull back detached
      (by simpa [inline] using taken) plain]
    rfl

end

/-- Two ends, by their ids or in full, any blanks around the connector, and any arrow, with any label or none: the
    line is read as that link, with the declarations of the ends that stand in full, unless it starts with a
    directive. The inline form of a label says the same as the form between pipes. -/
theorem parse_spelled {source target : Node} (sourceValid : isId source.id) (targetValid : isId target.id)
    (sourceFull targetFull : Bool) {g : Gaps} (blank : g.Blank) :
    (∀ pair ∈ Arrow.tokens, ∀ label : Option Text, (∀ raw ∈ label, '|' ∉ raw) →
        startsDirective (arrowLine g (form sourceFull source) pair.1 label (form targetFull target)) = false →
          parse (arrowLine g (form sourceFull source) pair.1 label (form targetFull target)) =
            .content (declared sourceFull source ++ declared targetFull target)
              (some ⟨source.id, target.id, label.bind linkLabel, pair.2⟩)) ∧
      ∀ raw, '|' ∉ raw → ¬ inlineEnd <:+: raw →
        parse (inlineLine g (form sourceFull source) raw (form targetFull target)) =
          parse (arrowLine { g with inner := [] } (form sourceFull source) inlineEnd (some raw)
            (form targetFull target)) :=
  ⟨fun _ known _ clean plain => parse_arrowLine sourceValid targetValid sourceFull targetFull blank known clean plain,
    fun _ clean absent => parse_inlineLine sourceValid targetValid sourceFull targetFull blank clean absent⟩

/-- A node whose label looks like the connector behind it. -/
def tangled : Node := ⟨['A'], "x --> \"y\" | (z)".toList, .hexagon⟩

/-- Blanks of both kinds in front of the arrow, none behind it, and a tab in front of the target. -/
def uneven : Gaps := ⟨" \t".toList, [], ['\t']⟩

/-- A label that looks like a declaration, a quote and two connectors. -/
def barbed : Text := "B[no] -- \"-.->".toList

theorem parse_spelled_tangled :
    parse "A\x7b\x7b\"x --> 'y' | (z)\"\x7d\x7d \t==>|B[no] -- \"-.->|\tend".toList =
        .content [⟨['A'], "x --> 'y' | (z)".toList, .hexagon⟩] (some ⟨['A'], "end".toList, some barbed, .thick⟩) ∧
      parse "A\x7b\x7b\"x --> 'y' | (z)\"\x7d\x7d \t-- B[no] -- \"-.-> -->\tend".toList =
        parse "A\x7b\x7b\"x --> 'y' | (z)\"\x7d\x7d \t-->|B[no] -- \"-.->|\tend".toList := by
  have blank : uneven.Blank := by simp [Gaps.Blank, uneven, isBlank]
  have ids : isId tangled.id ∧ isId (Node.bare "end".toList).id := by decide +kernel
  obtain ⟨arrows, inline⟩ := parse_spelled ids.1 ids.2 true false blank
  have thick := arrows (['=', '=', '>'], .thick) (by decide) (some barbed) (by decide +kernel) (by decide +kernel)
  have between := inline barbed (by decide +kernel) (by decide +kernel)
  have line : arrowLine uneven (form true tangled) ['=', '=', '>'] (some barbed) (form false (.bare "end".toList)) =
      "A\x7b\x7b\"x --> 'y' | (z)\"\x7d\x7d \t==>|B[no] -- \"-.->|\tend".toList := by decide +kernel
  have pipes : arrowLine uneven (form true tangled) inlineEnd (some barbed) (form false (.bare "end".toList)) =
      "A\x7b\x7b\"x --> 'y' | (z)\"\x7d\x7d \t-->|B[no] -- \"-.->|\tend".toList := by decide +kernel
  have dashes : inlineLine uneven (form true tangled) barbed (form false (.bare "end".toList)) =
      "A\x7b\x7b\"x --> 'y' | (z)\"\x7d\x7d \t-- B[no] -- \"-.-> -->\tend".toList := by decide +kernel
  have shown : declared true tangled ++ declared false (.bare "end".toList) =
      [⟨['A'], "x --> 'y' | (z)".toList, .hexagon⟩] := by decide +kernel
  have label : (some barbed).bind linkLabel = some barbed := by decide +kernel
  rw [line, shown, label] at thick
  rw [dashes, show ({ uneven with inner := [] } : Gaps) = uneven from rfl, pipes] at between
  exact ⟨thick, between⟩

end Flowchart.Line
