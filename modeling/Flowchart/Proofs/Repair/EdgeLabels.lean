import Flowchart.Proofs.Line.Spellings
import Flowchart.Proofs.Repair.OneLine

/-!
Labels of edges under repair. Where no pipe in the source of an edge opens an edge label and no quote is left open
there (`Sealed`), repair finds the label behind the arrow where the line reader finds it, and goes on apart in front
of it and behind it (`pass_linked`). So the connector stays as it is through all passes, the source is repaired as
if it stood alone, and the target keeps its id (`repair_keeps_edge_label`). A source is sealed if it has no pipe and
its quotes are in pairs (`Framed.sealed`), and if its pipes stand in quotes and repair leaves it as it is
(`sealed_of_repaired`). Otherwise a pipe in the label of the source is taken for the start of an edge label, and
repair goes through the real one (`unpaired_pipe_moves_aside`).
-/
namespace Flowchart.Repair
open Text Line

/-! ### Connectors -/

/-- A connector with a label between pipes, taken apart. -/
structure Labelled where
  front : Text
  token : Text
  inner : Text
  raw : Text
  deriving DecidableEq, Repr

namespace Labelled

/-- The arrow with the blanks around it. -/
def lead (c : Labelled) : Text := c.front ++ (c.token ++ c.inner)

def text (c : Labelled) : Text := c.lead ++ '|' :: (c.raw ++ ['|'])

/-- The connector is drawn so, with a label that ends at its second pipe. -/
structure Draws (c : Labelled) (arrow : Arrow) : Prop where
  known : (c.token, arrow) ∈ Arrow.tokens
  front : ∀ d ∈ c.front, isBlank d
  inner : ∀ d ∈ c.inner, isBlank d
  clean : '|' ∉ c.raw

variable {c : Labelled} {arrow : Arrow}

theorem text_append (c : Labelled) (t : Text) : c.text ++ t = c.lead ++ '|' :: (c.raw ++ '|' :: t) := by simp [text]

theorem text_ends (c : Labelled) : c.text.getLast? = some '|' := by simp [text, List.getLast?_cons]

theorem pipe_mem_text (c : Labelled) : '|' ∈ c.text := by simp [text]

theorem Draws.takes (draws : c.Draws arrow) (t : Text) :
    takeConnector (c.text ++ t) = (some (arrow, linkLabel c.raw), t) := by
  have taken := takeConnector_token draws.front draws.known (c.inner ++ '|' :: (c.raw ++ '|' :: t))
  rw [takeLabel_pipes draws.inner draws.clean] at taken
  rw [text_append, lead, List.append_assoc, List.append_assoc]
  exact taken

/-- Behind an id and blanks the connector starts with a character of an arrow. -/
theorem Draws.starts (draws : c.Draws arrow) : ∃ m r, m ∈ ['-', '='] ∧ c.text = c.front ++ m :: r := by
  obtain ⟨m, r, shape, member⟩ := token_cons draws.known
  exact ⟨m, r ++ c.inner ++ '|' :: (c.raw ++ ['|']), member, by simp [text, lead, shape]⟩

theorem Draws.detached (draws : c.Draws arrow) (t : Text) : Writer.Detached (c.text ++ t) := by
  obtain ⟨m, r, member, shape⟩ := draws.starts
  rw [shape, List.append_assoc, List.cons_append]
  exact detached_connector draws.front member _

/-- Between two ends the connector makes a link with its arrow and label. -/
theorem Draws.link? (draws : c.Draws arrow) {t rest source target : Text}
    (first : takeEndpoint t = (some source, c.text ++ rest)) (last : (takeEndpoint rest).1 = some target) :
    link? t = some ⟨source, target, linkLabel c.raw, arrow⟩ := by
  obtain ⟨behind, taken⟩ : ∃ behind, takeEndpoint rest = (some target, behind) := ⟨_, Prod.ext last rfl⟩
  rw [Line.link?, takeLink, first]
  simp only [draws.takes, taken]

theorem Draws.apart (draws : c.Draws arrow) : ∀ m ∈ ['[', ']', '|', '"'], m ∉ c.lead := by
  have tokens : ∀ m ∈ ['[', ']', '|', '"'], ∀ pair ∈ Arrow.tokens, m ∉ pair.1 :=
    List.all_iff_forall_prop.1 (by decide)
  have marks : ∀ m ∈ ['[', ']', '|', '"'], ¬ isBlank m := List.all_iff_forall_prop.1 (by decide)
  intro m mark member
  have blank : ∀ w : Text, (∀ d ∈ w, isBlank d) → m ∉ w := fun w blanks inside => marks m mark (blanks m inside)
  rcases List.mem_append.1 member with front | behind
  · exact blank _ draws.front front
  · rcases List.mem_append.1 behind with token | inner
    · exact tokens m mark _ draws.known token
    · exact blank _ draws.inner inner

end Labelled

/-! ### Sources -/

/-- While the text is repaired, no pipe in it opens an edge label, and no quote is left open. -/
def Sealed (s : Text) : Prop := ∀ n k, Passed (asideRound^[k] (pass^[n] s))

/-- No token is dropped of the text and nothing is trimmed. -/
structure Steady (s : Text) : Prop where
  starts : StartsInk (repairAsides s)
  ends : EndsInk (repairAsides s)
  filled : repairAsides s ≠ []
  pass : pass s = collapseBlanks (repairAsides s)

/-- An id with something in brackets. -/
structure Framed (s : Text) : Prop where
  line : OneLine s
  first : ∃ c ∈ s.head?, isIdChar c
  last : ∃ c ∈ s.getLast?, c ∈ [')', ']', '\x7d']

variable {s : Text}

theorem Sealed.pass (kept : Sealed s) : Sealed (pass s) := fun n => kept (n + 1)

/-- A text that repair leaves as it is has its pipes in quotes, and its quotes in pairs. -/
theorem sealed_of_repaired (same : repair s = s) (passed : Passed s) : Sealed s := by
  have repaired := repair_repaired s
  rw [same] at repaired
  intro n k
  rwa [Function.iterate_fixed (pass_of_repaired repaired), Function.iterate_fixed repaired.round]

namespace Framed

theorem startsInk (framed : Framed s) : StartsInk s := by
  obtain ⟨c, first, idChar⟩ := framed.first
  intro d head
  obtain rfl := Option.some.inj (first.symm.trans head)
  exact idChar_ink idChar

theorem endsInk (framed : Framed s) : EndsInk s := endsInk_of_closing framed.last

theorem asideRound (framed : Framed s) : Framed (asideRound s) := by
  refine ⟨framed.line.asideRound, ?_, ?_⟩
  · rw [asideRound_row framed.line.single, head?_repairRow]
    exact framed.first
  · rw [asideRound_row framed.line.single, getLast?_repairRow]
    exact framed.last

theorem asides (framed : Framed s) : Framed (repairAsides s) :=
  settle_keeps (P := Framed) (fun _ => asideRound) _ s framed

theorem collapse (framed : Framed s) : Framed (collapseBlanks s) := by
  refine ⟨framed.line.collapse, ?_, ?_⟩
  · obtain ⟨c, first, idChar⟩ := framed.first
    exact ⟨c, (head?_collapse_eq_some (idChar_not_blank idChar)).2 first, idChar⟩
  · obtain ⟨c, last, closing⟩ := framed.last
    exact ⟨c, (getLast?_collapse_eq_some (isBlank_of_ink (framed.endsInk c last))).2 last, closing⟩

theorem meaningful (framed : Framed s) : isMeaningful s := by
  obtain ⟨c, first, idChar⟩ := framed.first
  exact isMeaningful_iff.2 ⟨c, List.mem_of_mem_head? first, by simp [isTelling, idChar]⟩

/-- No token is dropped behind the closing delimiter, and there is nothing to trim. -/
theorem pass_eq (framed : Framed s) : pass s = collapseBlanks (repairAsides s) := by
  have asides := framed.asides
  have tokens : dropTrailingTokens (repairAsides s) = repairAsides s := by
    obtain ⟨c, last, closing⟩ := asides.last
    obtain ⟨front, split⟩ := List.getLast?_eq_some_iff.1 last
    have single := asides.line.single
    rw [split] at single ⊢
    exact dropTrailingTokens_last (fun newline => single (List.mem_append_left _ newline)) closing
  rw [pass_line framed.line framed.meaningful, swept, tokens]
  exact trim_eq_self asides.collapse.startsInk asides.collapse.endsInk

theorem steady (framed : Framed s) : Steady s :=
  ⟨framed.asides.startsInk, framed.asides.endsInk, ne_nil_of_meaningful framed.asides.meaningful, framed.pass_eq⟩

theorem pass (framed : Framed s) : Framed (pass s) := by
  rw [framed.pass_eq]
  exact framed.asides.collapse

/-- Without pipes it is enough that the quotes are in pairs: neither are taken away or added. -/
theorem sealed (framed : Framed s) (pipe : '|' ∉ s) (quotes : Even (s.count '"')) : Sealed s := by
  let quiet (t : Text) : Prop := Framed t ∧ '|' ∉ t ∧ Even (t.count '"')
  have round : ∀ t, quiet t → quiet (Repair.asideRound t) := by
    rintro t ⟨framed, pipe, quotes⟩
    refine ⟨framed.asideRound, fun member => pipe (mem_asideRound (by decide) (by decide) t member), ?_⟩
    rwa [count_asideRound (by decide) (by decide)]
  have next : ∀ t, quiet t → quiet (Repair.pass t) := by
    rintro t held
    obtain ⟨framed, pipe, quotes⟩ := settle_keeps (P := quiet) round (t.count '(' + 1) t held
    rw [held.1.pass_eq]
    exact ⟨framed.collapse, by rwa [mem_collapse_iff (by decide)], by rwa [count_collapse (by decide)]⟩
  intro n k
  have all : quiet (Repair.asideRound^[k] (Repair.pass^[n] s)) :=
    Function.Iterate.rec quiet (Function.Iterate.rec quiet ⟨framed, pipe, quotes⟩ next n) round k
  exact passed_paired all.2.1 all.2.2

end Framed

/-- A source is framed, or repair leaves it as it is. -/
def Sourced (s : Text) : Prop := Framed s ∨ Repaired s ∧ s ≠ []

theorem Sourced.steady (sourced : Sourced s) : Steady s := by
  rcases sourced with framed | ⟨repaired, filled⟩
  · exact framed.steady
  · refine ⟨?_, ?_, ?_, ?_⟩
    · rw [repaired.asides, ← repaired.trimmed]
      exact trim_startsInk s
    · rw [repaired.asides, ← repaired.trimmed]
      exact trim_endsInk s
    · rwa [repaired.asides]
    · rw [pass_of_repaired repaired, repaired.asides, repaired.blanks]

theorem Sourced.pass (sourced : Sourced s) : Sourced (pass s) := by
  rcases sourced with framed | ⟨repaired, filled⟩
  · exact .inl framed.pass
  · rw [pass_of_repaired repaired]
    exact .inr ⟨repaired, filled⟩

/-! ### One pass -/

section
variable {c : Labelled} {arrow : Arrow} (draws : c.Draws arrow) {w : Text} (white : White w)
include draws white

/-- A round goes over the source and over what follows the connector, each on its own. -/
theorem asideRound_linked (passed : Passed s) {b : Text} (single : '\n' ∉ w ++ (s ++ (c.text ++ b))) :
    asideRound (w ++ (s ++ (c.text ++ b))) = w ++ (asideRound s ++ (c.text ++ asideRound b)) := by
  have outside : ∀ m ∈ ['|', '"'], m ∉ w := by
    have marks : ∀ m ∈ ['|', '"'], ¬ isWhite m := List.all_iff_forall_prop.1 (by decide)
    exact fun m mark member => marks m mark (white m member)
  have front : Passed (w ++ (s ++ c.lead)) :=
    (passed_plain (outside '|' (by decide)) (outside '"' (by decide))).append
      (passed.append (passed_plain (draws.apart '|' (by decide)) (draws.apart '"' (by decide))))
  have labelled : edgeLabel? false ('|' :: (c.raw ++ '|' :: b)) = some ([], c.raw, b) := by
    have closed : piped? false '|' (c.raw ++ '|' :: b) = some (c.raw, b) := cut_char draws.clean
    rw [edgeLabel?, closed]
  have found := front ('|' :: (c.raw ++ '|' :: b))
  rw [labelled, Option.map_some] at found
  have whole : w ++ (s ++ (c.text ++ b)) = w ++ (s ++ c.lead) ++ '|' :: (c.raw ++ '|' :: b) := by
    rw [c.text_append]
    simp
  have source : asideRound s = repairLabels s := by
    rw [asideRound_row fun newline => single (by simp [newline]), repairRow_eq, passed.none]
  have behind : asideRound b = repairRow b := asideRound_row fun newline => single (by simp [newline])
  have outer : Outer c.lead := fun m mark => draws.apart m (List.mem_append_left ['"'] mark)
  rw [asideRound_row single, repairRow_eq, whole, found, source, behind, c.text_append]
  simp [repairLabels_front (fun d member => opensLabel_white (white d member)), repairLabels_append outer]

theorem iterate_linked (k : Nat) (passed : ∀ k, Passed (asideRound^[k] s)) {b : Text}
    (single : '\n' ∉ w ++ (s ++ (c.text ++ b))) :
    asideRound^[k] (w ++ (s ++ (c.text ++ b))) = w ++ (asideRound^[k] s ++ (c.text ++ asideRound^[k] b)) := by
  induction k generalizing s b with
  | zero => rfl
  | succ k ih =>
    have first := asideRound_linked (s := s) draws white (passed 0) single
    have single' : '\n' ∉ asideRound (w ++ (s ++ (c.text ++ b))) := fun newline =>
      single (mem_asideRound (by decide) (by decide) _ newline)
    rw [first] at single'
    rw [Function.iterate_succ_apply, first, ih (fun k => passed (k + 1)) single']
    rfl

theorem repairAsides_linked (passed : ∀ k, Passed (asideRound^[k] s)) {b : Text}
    (single : '\n' ∉ w ++ (s ++ (c.text ++ b))) :
    repairAsides (w ++ (s ++ (c.text ++ b))) = w ++ (repairAsides s ++ (c.text ++ repairAsides b)) := by
  -- As many rounds as the whole line needs are enough for each part of it.
  have rounds : ∀ t, t <:+: w ++ (s ++ (c.text ++ b)) →
      repairAsides t = asideRound^[(w ++ (s ++ (c.text ++ b))).count '(' + 1] t := by
    intro t part
    exact settle_of_enough asideRound_shrinks (Nat.lt_succ_self _) (Nat.lt_succ_of_le (part.sublist.count_le '('))
  have source : s <:+: w ++ (s ++ (c.text ++ b)) := ⟨w, c.text ++ b, by simp⟩
  have behind : b <:+: w ++ (s ++ (c.text ++ b)) := ⟨w ++ (s ++ c.text), [], by simp⟩
  rw [rounds _ List.infix_rfl, rounds s source, rounds b behind]
  exact iterate_linked draws white _ passed single

variable (spaced : collapseBlanks c.text = c.text)
include spaced

theorem swept_linked (steady : Steady s) (passed : ∀ k, Passed (asideRound^[k] s)) {b : Text}
    (line : OneLine (w ++ (s ++ (c.text ++ b)))) :
    swept (w ++ (s ++ (c.text ++ b))) =
      collapseBlanks w ++ (collapseBlanks (repairAsides s) ++ (c.text ++ swept b)) := by
  have asides := repairAsides_linked draws white passed line.single
  have single := line.repairAsides.single
  rw [asides] at single
  have tokens : dropTrailingTokens (w ++ (repairAsides s ++ (c.text ++ repairAsides b))) =
      w ++ (repairAsides s ++ (c.text ++ dropTrailingTokens (repairAsides b))) := by
    have split : ∀ b, w ++ (repairAsides s ++ (c.text ++ b)) =
        (w ++ (repairAsides s ++ (c.lead ++ '|' :: c.raw))) ++ '|' :: b := by
      intro b
      rw [c.text_append]
      simp
    rw [split] at single ⊢
    rw [dropTrailingTokens_append (fun newline => single (List.mem_append_left _ newline)) (by decide) (by decide)
      (by decide), dropTrailingTokens_cons (by decide), split]
  have first : ∀ d ∈ (repairAsides s ++ (c.text ++ dropTrailingTokens (repairAsides b))).head?, isBlank d = false :=
    fun d head => isBlank_of_ink (startsInk_append steady.filled steady.starts d head)
  have last : ∀ d ∈ c.text.getLast?, isBlank d = false := by
    rw [c.text_ends]
    simp [isBlank]
  rw [swept, asides, tokens, collapse_append_of_ink w first,
    collapse_append_of_ends fun d end' => isBlank_of_ink (steady.ends d end'), collapse_append_of_ends last,
    spaced, swept]

theorem pass_linked (steady : Steady s) (passed : ∀ k, Passed (asideRound^[k] s)) {b : Text}
    (line : OneLine (w ++ (s ++ (c.text ++ b)))) :
    pass (w ++ (s ++ (c.text ++ b))) = pass s ++ (c.text ++ (swept b).trimEnd) := by
  have held : isMeaningful (w ++ (s ++ (c.text ++ b))) :=
    isMeaningful_iff.2 ⟨'|', by simp [c.pipe_mem_text], by decide +kernel⟩
  have white' : White (collapseBlanks w) := by
    intro d member
    rcases mem_collapse member with inside | rfl
    · exact white d inside
    · decide
  have filled : pass s ≠ [] := by
    rw [steady.pass, Ne, collapse_eq_nil]
    exact steady.filled
  have starts : StartsInk (pass s ++ (c.text ++ swept b)) := startsInk_append filled (trim_startsInk _)
  have ends : EndsInk (pass s ++ c.text) := by
    refine endsInk_append (List.ne_nil_of_mem c.pipe_mem_text) ?_
    intro d last
    rw [c.text_ends] at last
    obtain rfl := Option.some.inj last
    decide
  rw [pass_line line held, swept_linked draws white spaced steady passed line, ← steady.pass, trim,
    trimStart_append_white white', trimStart_eq_self starts, ← List.append_assoc, trimEnd_append_of_ink ends,
    List.append_assoc]

end

/-! ### All passes -/

/-- An id goes on with nothing that belongs to it. -/
def Stopped (next : Option Char) : Prop := ∀ d ∈ next, isIdChar d = false

theorem stopped_lasting : Lasting Stopped := by
  refine ⟨?_, ?_⟩
  · rintro d - -
    simpa [Stopped] using isIdChar_punctuation (c := ' ') (by decide)
  · simp [Stopped]

theorem Led.append_white {id t w : Text} (led : Led id Stopped t) (white : White w) : Led id Stopped (t ++ w) := by
  obtain ⟨w', y, blanks, rfl, stops⟩ := led
  refine ⟨w', y ++ w, blanks, by simp, ?_⟩
  cases y with
  | nil => exact fun d first => isIdChar_white (white d (List.mem_of_mem_head? first))
  | cons d y => exact stops

theorem led_of_takeEndpoint {id t : Text} (taken : (takeEndpoint t).1 = some id) : Led id Stopped t := by
  obtain ⟨-, behind, word, stops, -⟩ := takeEndpoint_front (Prod.ext taken rfl)
  refine ⟨t.takeWhile isBlank, behind, fun _ => List.mem_takeWhile_imp, ?_, stops⟩
  rw [← word]
  exact List.takeWhile_append_dropWhile.symm

section
variable {id : Text} (valid : isId id)
include valid

theorem takeEndpoint_of_led {t : Text} (led : Led id Stopped t) : (takeEndpoint t).1 = some id := by
  obtain ⟨w, y, blanks, rfl, stops⟩ := led
  rw [takeEndpoint_blanks blanks, takeEndpoint, Writer.passBlanks_id valid, Writer.takeId_append valid stops]

/-- Nothing of an id is repaired. -/
theorem repair_id : repair id = id := by
  have lasting : Lasting fun next => next = none := ⟨fun _ _ next => (nomatch next), fun _ _ _ => rfl⟩
  have line : OneLine id := by
    refine ⟨fun newline => idChar_ne (isId_run valid _ newline) (d := '\n') (by decide) rfl, fun found => ?_⟩
    exact tick_not_mem_id valid (found.subset (by decide))
  obtain ⟨y, same, empty⟩ := Led.repaired (t := id) valid lasting ⟨[], [], List.forall_mem_nil _, by simp, rfl⟩ line
  rw [same, List.head?_eq_none_iff.1 empty, List.append_nil]

variable {c : Labelled} {arrow : Arrow} (draws : c.Draws arrow) (spaced : collapseBlanks c.text = c.text) {s : Text}
include draws spaced

/-- One pass leaves the target in front of what follows the connector, and nothing in front of the source. -/
theorem pass_linked_led {w : Text} (white : White w) (sourced : Sourced s) (kept : Sealed s) {b : Text}
    (line : OneLine (w ++ (s ++ (c.text ++ b)))) (led : Led id Stopped b) :
    ∃ b', pass (w ++ (s ++ (c.text ++ b))) = pass s ++ (c.text ++ b') ∧
      OneLine (pass s ++ (c.text ++ b')) ∧ Led id Stopped b' := by
  have first := pass_linked draws white spaced sourced.steady (kept 0) line
  have held : isMeaningful (w ++ (s ++ (c.text ++ b))) :=
    isMeaningful_iff.2 ⟨'|', by simp [c.pipe_mem_text], by decide +kernel⟩
  have behind : OneLine b := line.part ⟨w ++ (s ++ c.text), [], by simp⟩
  exact ⟨_, first, first ▸ line.pass held, (led.swept valid stopped_lasting behind).trimEnd valid stopped_lasting⟩

theorem passes_linked (n : Nat) {w : Text} (white : White w) (sourced : Sourced s) (kept : Sealed s) {b : Text}
    (line : OneLine (w ++ (s ++ (c.text ++ b)))) (led : Led id Stopped b) :
    ∃ b', pass^[n + 1] (w ++ (s ++ (c.text ++ b))) = pass^[n + 1] s ++ (c.text ++ b') ∧ Led id Stopped b' := by
  induction n generalizing w s b with
  | zero =>
    obtain ⟨b', first, -, led'⟩ := pass_linked_led valid draws spaced white sourced kept line led
    exact ⟨b', first, led'⟩
  | succ n ih =>
    obtain ⟨b', first, line', led'⟩ := pass_linked_led valid draws spaced white sourced kept line led
    rw [Function.iterate_succ_apply, Function.iterate_succ_apply _ _ s, first]
    exact ih (w := []) (List.forall_mem_nil _) sourced.pass kept.pass line' led'

/-- The source is repaired as if it stood alone, and the connector stays. -/
theorem repair_linked {w : Text} (white : White w) (sourced : Sourced s) (kept : Sealed s) {b : Text}
    (line : OneLine (w ++ (s ++ (c.text ++ b)))) (led : Led id Stopped b) :
    ∃ b', repair (w ++ (s ++ (c.text ++ b))) = repair s ++ (c.text ++ b') ∧ (takeEndpoint b').1 = some id := by
  have source : OneLine s := line.part ⟨w, c.text ++ b, by simp⟩
  obtain ⟨b', same, led'⟩ :=
    passes_linked valid draws spaced (weight (w ++ (s ++ (c.text ++ b))) + weight s) white sourced kept line led
  refine ⟨b', ?_, takeEndpoint_of_led valid led'⟩
  rw [line.repair (Nat.lt_succ_of_le (Nat.le_add_right _ (weight s))),
    source.repair (Nat.lt_succ_of_le (Nat.le_add_left _ _)), same]

end

/-! ### Lines -/

theorem sourced_of_split {id brackets : Text} (valid : isId id) (delimited : brackets = [] ∨ Delimited brackets)
    (line : OneLine (id ++ brackets)) : Sourced (id ++ brackets) := by
  obtain ⟨c, r, first, idChar, -⟩ := isId_cons valid
  rcases delimited with rfl | delimited
  · have repaired := repair_repaired id
    rw [repair_id valid] at repaired
    rw [List.append_nil]
    exact .inr ⟨repaired, by simp [first]⟩
  · obtain ⟨m, last, closing⟩ := delimited.closing
    have filled : brackets ≠ [] := by
      rintro rfl
      cases last
    refine .inl ⟨line, ⟨c, by simp [first], idChar⟩, m, ?_, closing⟩
    rwa [List.getLast?_append_of_ne_nil _ filled]

/-- The source of a trimmed line is an id with a bracket pair or without one. -/
theorem source_split {t : Text} {l : Link} {p : LinkLine} (reads : p.Reads t l) (starts : StartsInk t) :
    isId l.source ∧ ∃ brackets, p.source.text = l.source ++ brackets ∧ (brackets = [] ∨ Delimited brackets) := by
  have taken := reads.source.id
  rw [reads.ends.1] at taken
  obtain ⟨valid, behind, word, -, ends⟩ := takeEndpoint_front taken
  obtain ⟨brackets, split, delimited⟩ := takeShape_delimited behind
  refine ⟨valid, brackets, ?_, delimited⟩
  have unblank : passBlanks t = t := by
    cases t with
    | nil => rfl
    | cons c r => exact passBlanks_ink (isBlank_of_ink (starts c rfl)) r
  rw [unblank, split, ends, ← List.append_assoc] at word
  exact List.append_cancel_right (reads.source.text.symm.trans word)

/-- The first word of a line with a link is no directive after repair either. -/
theorem startsDirective_repaired {c : Labelled} {arrow : Arrow} (draws : c.Draws arrow) {id brackets : Text}
    (valid : isId id) (delimited : brackets = [] ∨ Delimited brackets) (line : OneLine (id ++ brackets)) {t : Text}
    (plain : startsDirective (id ++ brackets ++ (c.text ++ t)) = false) (rest : Text) :
    startsDirective (repair (id ++ brackets) ++ (c.text ++ rest)) = false := by
  have marks : ∀ m ∈ ['\x7b', '(', '['] ++ ['-', '='], ¬ isWhite m ∧ ∀ word ∈ directives, m ∉ word :=
    List.all_iff_forall_prop.1 (by decide +kernel)
  rcases delimited with rfl | delimited
  · obtain ⟨m, r, member, shape⟩ := draws.starts
    obtain ⟨ink, foreign⟩ := marks m (List.mem_append_right _ member)
    have front : ∀ t, id ++ (c.text ++ t) = (id ++ c.front) ++ m :: (r ++ t) := by
      intro t
      rw [shape]
      simp
    rw [List.append_nil, front] at plain
    rwa [List.append_nil, repair_id valid, front, startsDirective_foreign ink foreign _ _ (r ++ t)]
  · obtain ⟨m, r, rfl, member⟩ := delimited.cons
    obtain ⟨ink, foreign⟩ := marks m (List.mem_append_left _ member)
    have lasting : Lasting fun next => next = some m := by
      refine ⟨?_, ?_⟩
      · rintro d blank same
        rw [Option.some.inj same] at blank
        exact absurd (isWhite_of_isBlank blank) ink
      · rintro d white same
        rw [Option.some.inj same] at white
        exact absurd white ink
    obtain ⟨y, same, next⟩ := Led.repaired (t := id ++ m :: r) valid lasting
      ⟨[], m :: r, List.forall_mem_nil _, rfl, rfl⟩ line
    obtain ⟨y', rfl⟩ := List.head?_eq_some_iff.1 next
    rw [same, List.append_assoc, List.cons_append]
    exact Writer.startsDirective_mark valid ink foreign _

/-- The white space around a line with a link and the pieces of the link. -/
theorem line_split {t : Text} {l : Link} {p : LinkLine} (reads : p.Reads t.trim l) :
    ∃ w w', White w ∧ White w' ∧ t = w ++ (p.source.text ++ (p.connector ++ (p.target.text ++ (p.rest ++ w')))) := by
  obtain ⟨w, white, front⟩ := append_trimStart t
  obtain ⟨w', white', back⟩ := trimEnd_append t.trimStart
  have both : t = w ++ (t.trim ++ w') := front.trans (congrArg (w ++ ·) back)
  rw [reads.source.text] at both
  exact ⟨w, w', white, white', by simpa using both⟩

/-- A link found on the repaired line is stated by it. -/
theorem parse_repaired_link {c : Labelled} {arrow : Arrow} (draws : c.Draws arrow) {id brackets : Text}
    (valid : isId id) (delimited : brackets = [] ∨ Delimited brackets) (line : OneLine (id ++ brackets))
    {s t rest : Text} (plain : startsDirective (id ++ brackets ++ (c.text ++ s)) = false)
    (same : repair t = repair (id ++ brackets) ++ (c.text ++ rest)) {l : Link} (linked : link? (repair t) = some l) :
    ∃ found, Line.parse (repair t) = .content found (some l) := by
  have plain' : startsDirective (repair t) = false :=
    same ▸ startsDirective_repaired draws valid delimited line plain rest
  obtain ⟨y, start, -⟩ := Led.repaired (t := id ++ brackets) (Q := fun _ => True) valid
    ⟨fun _ _ _ => trivial, fun _ _ _ => trivial⟩ ⟨[], brackets, List.forall_mem_nil _, rfl, trivial⟩ line
  obtain ⟨d, r, first, idChar, -⟩ := isId_cons valid
  have shape : repair t = d :: (r ++ y ++ (c.text ++ rest)) := by
    rw [same, start, first]
    simp
  refine ⟨declarations (repair t), ?_⟩
  rw [Line.parse, (repair_repaired t).trimmed,
    Writer.statementOf_id shape idChar plain' (.inr (by simp [linked])), linked]

/-- A line whose edge has its label between pipes, if no pipe of its source opens an edge label
    and no quote is left open there: repaired, it is the repaired source, the connector with its
    label as it is, and a rest that starts with the target. So where the source is still read up
    to the connector, the edge has the same ends, arrow and label, and it is so read if it is
    repaired to an id alone or with the bracket pair that is written for a node. -/
theorem repair_keeps_edge_label {t : Text} {found : List Node} {l : Link}
    (stated : Line.parse t = .content found (some l)) {p : LinkLine} (reads : p.Reads t.trim l)
    {c : Labelled} {arrow : Arrow} (draws : c.Draws arrow) (connector : p.connector = c.text)
    (line : OneLine t) (spaced : collapseBlanks t = t) (kept : Sealed p.source.text) :
    ∃ rest, repair t = repair p.source.text ++ (p.connector ++ rest) ∧ (takeEndpoint rest).1 = some l.target ∧
      (takeEndpoint (repair t) = (some l.source, p.connector ++ rest) ∨
          (∃ full n, n.id = l.source ∧ repair p.source.text = Writer.form full n) →
        ∃ found', Line.parse (repair t) = .content found' (some l)) := by
  obtain ⟨w, w', white, white', whole⟩ := line_split reads
  obtain ⟨valid, brackets, source, delimited⟩ := source_split reads (trim_startsInk t)
  have targetTaken := reads.target.id
  rw [reads.ends.2] at targetTaken
  have targetValid : isId l.target := takeEndpoint_isId (congrArg Prod.fst targetTaken)
  have led := (led_of_takeEndpoint (congrArg Prod.fst targetTaken)).append_white white'
  rw [connector] at whole ⊢
  rw [List.append_assoc] at led
  have sourceLine : OneLine (l.source ++ brackets) :=
    source ▸ line.part ⟨w, c.text ++ (p.target.text ++ (p.rest ++ w')), by simpa using whole.symm⟩
  have spaced' : collapseBlanks c.text = c.text :=
    collapse_of_infix ⟨w ++ p.source.text, p.target.text ++ (p.rest ++ w'), by simpa using whole.symm⟩ spaced
  have line' := line
  rw [whole] at line'
  obtain ⟨rest, same, target⟩ := repair_linked targetValid draws spaced' white
    (source ▸ sourced_of_split valid delimited sourceLine) kept line' led
  rw [← whole] at same
  refine ⟨rest, same, target, fun either => ?_⟩
  have read : takeEndpoint (repair t) = (some l.source, c.text ++ rest) := by
    rcases either with read | ⟨full, n, ends, written⟩
    · exact read
    · rw [← ends] at valid ⊢
      rw [same, written]
      exact Writer.takeEndpoint_form valid full (draws.detached rest)
  have linked : link? (repair t) = some l := by
    have between := reads.connector
    rw [connector, draws.takes] at between
    obtain ⟨arrowKept, labelKept⟩ : arrow = l.arrow ∧ linkLabel c.raw = l.label := by simpa using between
    rw [draws.link? read target, arrowKept, labelKept]
  have plain : startsDirective t.trim = false := startsDirective_of_content stated
  rw [reads.source.text, source, connector] at plain
  exact parse_repaired_link draws valid delimited sourceLine plain (source ▸ same) linked

/-- Asides in the source and the target, and a label with an aside in brackets and a lone quote. -/
def remarked : Text := "½é[Load \"a\" (csv)] -.->\t|b[see (x)] \"| C[Run (fast)] UP".toList

/-- Its connector. -/
def remark : Labelled := ⟨[' '], "-.->".toList, ['\t'], "b[see (x)] \"".toList⟩

/-- The pieces of that line. -/
def remarkedPieces : LinkLine :=
  ⟨⟨[], "½é".toList, "[Load \"a\" (csv)]".toList⟩, remark.text,
    ⟨[' '], ['C'], "[Run (fast)]".toList⟩, " UP".toList⟩

theorem remark_stays :
    let l : Link := ⟨"½é".toList, ['C'], some "b[see (x)] \"".toList, .dotted⟩
    (∃ found, Line.parse remarked = .content found (some l)) ∧ remarkedPieces.Reads remarked.trim l ∧
      remark.Draws .dotted ∧ remarkedPieces.connector = remark.text ∧ OneLine remarked ∧
      collapseBlanks remarked = remarked ∧ Sealed remarkedPieces.source.text ∧
      repair remarked = "½é[Load \"a\" - csv] -.->\t|b[see (x)] \"| C[Run - fast]".toList ∧
      ∃ found, Line.parse (repair remarked) = .content found (some l) := by
  intro l
  have stated : Line.parse remarked =
      .content [⟨"½é".toList, "Load \"a\" (csv)".toList, .rectangle⟩, ⟨['C'], "Run (fast)".toList, .rectangle⟩]
        (some l) := by
    decide +kernel
  have reads : remarkedPieces.Reads remarked.trim l :=
    ⟨by decide +kernel, ⟨by decide +kernel, by decide +kernel, by decide +kernel⟩, by decide +kernel,
      ⟨by decide +kernel, by decide +kernel, by decide +kernel⟩, by decide +kernel⟩
  have draws : remark.Draws .dotted :=
    ⟨by decide +kernel, by simp [remark, isBlank], by simp [remark, isBlank], by decide +kernel⟩
  have line : OneLine remarked := ⟨by decide +kernel, by decide +kernel⟩
  have spaced : collapseBlanks remarked = remarked := by decide +kernel
  have framed : Framed remarkedPieces.source.text :=
    ⟨⟨by decide +kernel, by decide +kernel⟩, ⟨'½', by decide +kernel, by decide +kernel⟩,
      ']', by decide +kernel, by decide⟩
  have kept : Sealed remarkedPieces.source.text := framed.sealed (by decide +kernel) (by decide +kernel)
  have result : repair remarked = "½é[Load \"a\" - csv] -.->\t|b[see (x)] \"| C[Run - fast]".toList := by decide +kernel
  obtain ⟨rest, same, -, again⟩ := repair_keeps_edge_label stated reads draws rfl line spaced kept
  have read : takeEndpoint (repair remarked) = (some l.source, remarkedPieces.connector ++ rest) := by
    have source : repair remarked = repair remarkedPieces.source.text ++
        (remarkedPieces.connector ++ " C[Run - fast]".toList) := by
      decide +kernel
    rw [source, List.append_cancel_left_eq, List.append_cancel_left_eq] at same
    rw [← same]
    decide +kernel
  exact ⟨⟨_, stated⟩, reads, draws, rfl, line, spaced, kept, result, again (.inl read)⟩

/-- A pipe in the label of the source, and no tab, fence, newline or carriage return: the pipe is paired with the
    first one of the edge label, so that the aside in the edge label is moved. -/
theorem unpaired_pipe_moves_aside :
    let t := "A[x | y] -->|a[b (c)]| B".toList
    let n : Node := ⟨['A'], "x | y".toList, .rectangle⟩
    (∀ c ∈ ['\t', '\n', '\r', '\x60'], c ∉ t) ∧ collapseBlanks t = t ∧
      Line.parse t = .content [n] (some ⟨['A'], ['B'], some "a[b (c)]".toList, .solid⟩) ∧
      repair t = "A[x | y] -->|a[b - c]| B".toList ∧
      Line.parse (repair t) = .content [n] (some ⟨['A'], ['B'], some "a[b - c]".toList, .solid⟩) ∧
      ¬ Sealed "A[x | y]".toList := by
  intro t n
  have clean : ∀ c ∈ ['\t', '\n', '\r', '\x60'], c ∉ t := List.all_iff_forall_prop.1 (by decide +kernel)
  refine ⟨clean, by decide +kernel, by decide +kernel, by decide +kernel, by decide +kernel, ?_⟩
  intro kept
  have closed := kept 0 0 ['|']
  have opened : edgeLabel? false ("A[x | y]".toList ++ ['|']) = some ("A[x ".toList, " y]".toList, []) := by
    decide +kernel
  rw [Function.iterate_zero, Function.iterate_zero, id, id, opened] at closed
  cases closed

end Flowchart.Repair
