import Flowchart.Proofs.Graph.Blanks
import Flowchart.Proofs.Line.Rows
import Flowchart.Proofs.Repair.Settled

/-!
Repairs keep the meaning of a text that has no aside to move and no fence (`parse_repair`). Every other step of a
pass leaves a row alone, drops it when it states nothing, or makes a row of it that states the same but for runs of
blanks in labels (`RowKept`); and it makes no aside and no fence that was not there, so that the next pass finds the
text as this one did (`Kept`).
-/
namespace Flowchart
open Text Line

theorem Line.Statement.collapsed_idem (s : Statement) : s.collapsed.collapsed = s.collapsed := by
  have node : Node.collapsed ∘ Node.collapsed = Node.collapsed :=
    funext fun n => by simp [Node.collapsed, Repair.collapse_idem]
  have link : Link.collapsed ∘ Link.collapsed = Link.collapsed := by
    funext l
    cases shape : l.label <;> simp [Link.collapsed, shape, Repair.collapse_idem]
  cases s <;> simp [Statement.collapsed, node, link]

theorem Line.Statement.collapsed_isStated (s : Statement) : s.collapsed.isStated = s.isStated := by cases s <;> rfl

namespace Repair

/-! ### Rows -/

/-- A row stands for another one: it states the same but for runs of blanks, and has no aside and no fence that
    the other one does not have. -/
structure RowKept (row row' : Text) : Prop where
  states : (Line.parse row').collapsed = (Line.parse row).collapsed
  settled : Settled row → Settled row'
  fenceless : ¬ fence <:+: row → ¬ fence <:+: row'

theorem rowKept_refl (row : Text) : RowKept row row := ⟨rfl, id, id⟩

theorem RowKept.trans {row row' row'' : Text} (first : RowKept row row') (second : RowKept row' row'') :
    RowKept row row'' :=
  ⟨second.states.trans first.states, second.settled ∘ first.settled, second.fenceless ∘ first.fenceless⟩

theorem RowKept.isStated {row row' : Text} (kept : RowKept row row') :
    (Line.parse row').isStated = (Line.parse row).isStated := by
  rw [← Statement.collapsed_isStated, kept.states, Statement.collapsed_isStated]

theorem rowKept_collapse (row : Text) : RowKept row (collapseBlanks row) := by
  refine ⟨by rw [parse_collapse, Statement.collapsed_idem], settled_collapse, ?_⟩
  intro none found
  rw [← cut_isSome_iff, cut_collapse (by decide) (by decide), Option.isSome_map, cut_isSome_iff] at found
  exact none found

theorem outer_white {w : Text} (white : White w) : Outer w := by
  intro c mark member
  simp only [List.mem_cons, List.not_mem_nil, or_false] at mark
  have here := white c member
  rcases mark with rfl | rfl | rfl
  all_goals cases here

theorem outer_inert {s : Text} (inert : Inert s) : Outer s := by
  intro c mark
  have marks : Solid ['[', ']', '|'] := by decide
  exact inert.not_mem (marks.solid c mark).1 (marks.solid c mark).2

theorem rowKept_white_front {w : Text} (white : White w) (row : Text) : RowKept (w ++ row) row := by
  refine ⟨by rw [Line.parse, Line.parse, trim_white_append white], (settled_front white).1, ?_⟩
  exact fun none found => none (found.trans (List.suffix_append w row).isInfix)

theorem rowKept_white_behind {w : Text} (white : White w) (row : Text) : RowKept (row ++ w) row := by
  refine ⟨by rw [Line.parse, Line.parse, trim_append_white white], (settled_behind (outer_white white)).1, ?_⟩
  exact fun none found => none (found.trans (List.prefix_append row w).isInfix)

/-- What a capital token leaves of its row. -/
theorem rowKept_token {s : Text} (inert : Inert s) (front : Text) : RowKept (front ++ ']' :: s) (front ++ [']']) := by
  have closed : Closed (front ++ [']']) := by simp [Closed]
  have split : front ++ ']' :: s = front ++ [']'] ++ s := by simp
  rw [split]
  refine ⟨by rw [parse_closed_append closed inert], (settled_behind (outer_inert inert)).1, ?_⟩
  exact fun none found => none (found.trans (List.prefix_append _ s).isInfix)

/-! ### Lists of rows -/

/-- Rows that stand for others, of which some that state nothing are left out. -/
inductive Thinned : List Text → List Text → Prop
  | nil : Thinned [] []
  | keep {row row' : Text} {rs rs' : List Text} : RowKept row row' → Thinned rs rs' → Thinned (row :: rs) (row' :: rs')
  | drop {row : Text} {rs rs' : List Text} :
      (Line.parse row).isStated = false → Thinned rs rs' → Thinned (row :: rs) rs'

theorem thinned_refl (rs : List Text) : Thinned rs rs := by
  induction rs with
  | nil => exact .nil
  | cons row rs ih => exact .keep (rowKept_refl row) ih

theorem thinned_map {f : Text → Text} (each : ∀ row, RowKept row (f row)) (rs : List Text) : Thinned rs (rs.map f) := by
  induction rs with
  | nil => exact .nil
  | cons row rs ih => exact .keep (each row) ih

theorem Thinned.contents {rs rs' : List Text} (thinned : Thinned rs rs') :
    ((rs'.map Line.parse).filter (·.isStated)).map Statement.collapsed =
      ((rs.map Line.parse).filter (·.isStated)).map Statement.collapsed := by
  induction thinned with
  | nil => rfl
  | @keep row row' rs rs' kept _ ih =>
    cases stated : (Line.parse row).isStated with
    | false => simp [stated, kept.isStated, ih]
    | true => simp [stated, kept.isStated, ih, kept.states]
  | drop silent _ ih => simp [silent, ih]

theorem Thinned.all {P : Text → Prop} (keeps : ∀ {row row'}, RowKept row row' → P row → P row') {rs rs' : List Text}
    (thinned : Thinned rs rs') (before : ∀ row ∈ rs, P row) : ∀ row ∈ rs', P row := by
  induction thinned with
  | nil => exact before
  | keep kept _ ih =>
    rw [List.forall_mem_cons] at before ⊢
    exact ⟨keeps kept before.1, ih before.2⟩
  | drop _ _ ih => exact ih (List.forall_mem_cons.1 before).2

/-! ### Texts -/

/-- A text says the same as another, but for runs of blanks, and has no aside and no fence that the other one does
    not have. -/
structure Kept (t u : Text) : Prop where
  contents : (contents u).map Statement.collapsed = (contents t).map Statement.collapsed
  settled : (∀ row ∈ rows t, Settled row) → ∀ row ∈ rows u, Settled row
  fenceless : (∀ row ∈ rows t, ¬ fence <:+: row) → ∀ row ∈ rows u, ¬ fence <:+: row

theorem kept_refl (t : Text) : Kept t t := ⟨rfl, id, id⟩

theorem Kept.trans {t u v : Text} (first : Kept t u) (second : Kept u v) : Kept t v :=
  ⟨second.contents.trans first.contents, second.settled ∘ first.settled, second.fenceless ∘ first.fenceless⟩

instance : Trans Kept Kept Kept := ⟨Kept.trans⟩

theorem kept_of_thinned {t u : Text} (thinned : Thinned (rows t) (rows u)) : Kept t u :=
  ⟨thinned.contents, thinned.all fun kept => kept.settled, thinned.all fun kept => kept.fenceless⟩

theorem kept_collapse (t : Text) : Kept t (collapseBlanks t) :=
  kept_of_thinned (by rw [rows_collapse]; exact thinned_map rowKept_collapse _)

/-! ### Ends of rows -/

/-- The end of a row stands for another end, whatever is in front of it. -/
def EndKept (row row' : Text) : Prop := ∀ front, RowKept (front ++ row) (front ++ row')

/-- The rows of a text stand for the rows of another, and the first one does whatever is put in front of both. -/
def TailThinned (t u : Text) : Prop :=
  ∃ row others row' others', rows t = row :: others ∧ rows u = row' :: others' ∧
    EndKept row row' ∧ Thinned others others'

theorem TailThinned.thinned {t u : Text} (tail : TailThinned t u) : Thinned (rows t) (rows u) := by
  obtain ⟨row, others, row', others', before, after, here, later⟩ := tail
  rw [before, after]
  exact .keep (here []) later

theorem TailThinned.cons {t u : Text} (tail : TailThinned t u) (c : Char) : TailThinned (c :: t) (c :: u) := by
  by_cases newline : c = '\n'
  · subst newline
    exact ⟨[], rows t, [], rows u, rows_cons_newline t, rows_cons_newline u, fun front => rowKept_refl _, tail.thinned⟩
  · obtain ⟨row, others, row', others', before, after, here, later⟩ := tail
    have single : '\n' ∉ [c] := by simpa [eq_comm] using newline
    refine ⟨c :: row, others, c :: row', others',
      rows_append_single single before, rows_append_single single after, ?_, later⟩
    intro front
    have := here (front ++ [c])
    rwa [List.append_assoc, List.append_assoc] at this

theorem tailThinned_nil : TailThinned [] [] := ⟨[], [], [], [], rfl, rfl, fun _ => rowKept_refl _, .nil⟩

theorem tailThinned_dropReturns (t : Text) : TailThinned t (dropReturns t) := by
  fun_induction dropReturns t with
  | case1 r ih =>
    have row : rows ('\r' :: '\n' :: r) = ['\r'] :: rows r := rows_append_newline ['\r'] r
    have white : White ['\r'] := by simp [White, isWhite]
    refine ⟨['\r'], rows r, [], rows (dropReturns r), row, rows_cons_newline _, ?_, ih.thinned⟩
    intro front
    rw [List.append_nil]
    exact rowKept_white_behind white front
  | case2 c r _ ih => exact ih.cons c
  | case3 => exact tailThinned_nil

theorem dropWhile_split (p : Char → Bool) (t : Text) : ∃ w, (∀ c ∈ w, p c) ∧ t = w ++ t.dropWhile p :=
  ⟨t.takeWhile p, fun _ => List.mem_takeWhile_imp, List.takeWhile_append_dropWhile.symm⟩

/-- A token is blanks and capitals up to the end of its line, and begins on the line of the bracket or on the next. -/
theorem trailingToken?_eq_some {t rest : Text} (found : trailingToken? t = some rest) :
    endsLine rest ∧ ∃ s, Inert s ∧ (t = s ++ rest ∨ ∃ w, Inert w ∧ t = w ++ '\n' :: (s ++ rest)) := by
  have inertBlanks : ∀ {w : Text}, (∀ c ∈ w, isBlank c) → Inert w := fun blanks c member => .inl (blanks c member)
  obtain ⟨gap, gapBlank, front⟩ := dropWhile_split isBlank t
  -- Behind the blanks in front of it, a token is capitals and blanks.
  have token : ∀ {w u : Text}, (∀ c ∈ w, isBlank c) → ∃ s, Inert s ∧
      w ++ u = s ++ (u.dropWhile isCapital).dropWhile isBlank := by
    intro w u blanks
    obtain ⟨word, capitals, split⟩ := dropWhile_split isCapital u
    obtain ⟨tail, tailBlank, split'⟩ := dropWhile_split isBlank (u.dropWhile isCapital)
    refine ⟨w ++ word ++ tail, ?_, ?_⟩
    · intro c member
      rcases List.mem_append.1 member with early | late
      · rcases List.mem_append.1 early with blank | capital
        · exact .inl (blanks c blank)
        · exact .inr (capitals c capital)
      · exact .inl (tailBlank c late)
    · conv => lhs; rw [split, split']
      simp
  simp only [trailingToken?] at found
  split at found
  · next condition =>
    obtain rfl := Option.some.inj found
    refine ⟨(Bool.and_eq_true_iff.1 condition).2, ?_⟩
    unfold skipToToken
    split
    · next r line =>
      obtain ⟨gap', gapBlank', behind⟩ := dropWhile_split isBlank r
      obtain ⟨s, inert, split⟩ := token (u := r.dropWhile isBlank) gapBlank'
      exact ⟨s, inert, .inr ⟨gap, inertBlanks gapBlank, by rw [← split, ← behind, ← line, ← front]⟩⟩
    · obtain ⟨s, inert, split⟩ := token (u := t.dropWhile isBlank) gapBlank
      exact ⟨s, inert, .inl (by rw [← split, ← front])⟩
  · cases found

theorem rows_endsLine {rest : Text} (ends : endsLine rest) : ∃ others, rows rest = [] :: others := by
  cases rest with
  | nil => exact ⟨[], rfl⟩
  | cons c r =>
    obtain rfl : c = '\n' := by simpa [endsLine] using ends
    exact ⟨rows r, rows_cons_newline r⟩

theorem dropTrailingTokens_cons {c : Char} (other : c ≠ ']') (r : Text) :
    dropTrailingTokens (c :: r) = c :: dropTrailingTokens r := by
  rw [dropTrailingTokens]
  split
  · next found =>
    rw [if_neg other] at found
    cases found
  · rfl

/-- No token in front of other characters is dropped. -/
theorem trailingToken?_append {s : Text} (single : '\n' ∉ s) {c : Char} (ink : isBlank c = false)
    (small : isCapital c = false) (within : c ≠ '\n') (t : Text) : trailingToken? (s ++ c :: t) = none := by
  -- What blanks and capitals leave of the text is neither empty nor does it start with a newline.
  have split : ∀ {w r : Text}, Inert w → s ++ c :: t = w ++ r → ∃ d r', r = d :: r' ∧ d ≠ '\n' := by
    intro w r inert same
    have outside : c ∉ w := inert.not_mem ink small
    rcases List.append_eq_append_iff.1 same with ⟨u, front, back⟩ | ⟨u, front, back⟩
    · cases u with
      | nil => exact ⟨c, t, back.symm, within⟩
      | cons d u =>
        obtain ⟨rfl, -⟩ := List.cons.inj back
        exact absurd (by simp [front]) outside
    · cases u with
      | nil => exact ⟨c, t, back, within⟩
      | cons d u =>
        refine ⟨d, u ++ c :: t, back, ?_⟩
        rintro rfl
        exact single (by simp [front])
  rw [Option.eq_none_iff_forall_not_mem]
  intro rest found
  obtain ⟨ends, w, inert, place⟩ := trailingToken?_eq_some found
  rcases place with same | ⟨gap, inertGap, same⟩
  · obtain ⟨d, r, rfl, other⟩ := split inert same
    exact other (by simpa [endsLine] using ends)
  · obtain ⟨d, r, shape, other⟩ := split inertGap same
    exact other (List.cons.inj shape).1.symm

/-- In front of a character that is no blank and no capital, tokens are dropped only where the line goes on. -/
theorem dropTrailingTokens_append {s : Text} (single : '\n' ∉ s) {c : Char} (ink : isBlank c = false)
    (small : isCapital c = false) (within : c ≠ '\n') (t : Text) :
    dropTrailingTokens (s ++ c :: t) = s ++ dropTrailingTokens (c :: t) := by
  induction s with
  | nil => rfl
  | cons d s ih =>
    have single' : '\n' ∉ s := fun newline => single (List.mem_cons_of_mem _ newline)
    have none := trailingToken?_append single' ink small within t
    rw [List.cons_append, dropTrailingTokens]
    split
    · next rest found =>
      rw [none, ite_self] at found
      cases found
    · rw [ih single']
      rfl

theorem dropTrailingTokens_last {s : Text} (single : '\n' ∉ s) {c : Char} (closing : c ∈ [')', ']', '\x7d']) :
    dropTrailingTokens (s ++ [c]) = s ++ [c] := by
  have marks : ∀ c ∈ [')', ']', '\x7d'], isBlank c = false ∧ isCapital c = false ∧ c ≠ '\n' :=
    List.all_iff_forall_prop.1 (by decide)
  obtain ⟨ink, small, within⟩ := marks c closing
  rw [dropTrailingTokens_append single ink small within]
  simp only [List.mem_cons, List.not_mem_nil, or_false] at closing
  rcases closing with rfl | rfl | rfl
  all_goals simp [dropTrailingTokens, trailingToken?, skipToToken]

theorem dropTrailingTokens_endsLine {rest : Text} (ends : endsLine rest) : endsLine (dropTrailingTokens rest) := by
  cases rest with
  | nil => rwa [dropTrailingTokens]
  | cons c r =>
    obtain rfl : c = '\n' := by simpa [endsLine] using ends
    rw [dropTrailingTokens_cons (by decide)]
    rfl

theorem newline_not_mem_inert {s : Text} (inert : Inert s) : '\n' ∉ s := inert.not_mem (by decide) (by decide)

theorem tailThinned_dropTrailingTokens (t : Text) : TailThinned t (dropTrailingTokens t) := by
  fun_induction dropTrailingTokens t with
  | case1 => exact tailThinned_nil
  | case2 c r rest found ih =>
    have bracket : c = ']' ∧ trailingToken? r = some rest := by
      split at found
      · next same => exact ⟨same, found⟩
      · cases found
    obtain ⟨rfl, token⟩ := bracket
    obtain ⟨ends, s, inert, place⟩ := trailingToken?_eq_some token
    obtain ⟨row, others, row', others', before, after, -, later⟩ := ih
    -- The text behind the token starts at the end of a line, before and after.
    obtain ⟨same, first⟩ := rows_endsLine ends
    obtain ⟨same', first'⟩ := rows_endsLine (dropTrailingTokens_endsLine ends)
    obtain ⟨rfl, rfl⟩ := List.cons.inj (before.symm.trans first)
    obtain ⟨rfl, rfl⟩ := List.cons.inj (after.symm.trans first')
    have single : ∀ {s : Text}, Inert s → '\n' ∉ ']' :: s := fun inert =>
      List.not_mem_cons_of_ne_of_not_mem (by decide) (newline_not_mem_inert inert)
    have result : rows (']' :: dropTrailingTokens rest) = [']'] :: others' :=
      rows_append_single (s := [']']) (by decide) first'
    rcases place with rfl | ⟨w, inertGap, rfl⟩
    · have line : rows (']' :: (s ++ rest)) = (']' :: s ++ []) :: others :=
        rows_append_single (single inert) first
      rw [List.append_nil] at line
      exact ⟨_, _, _, _, line, result, rowKept_token inert, later⟩
    · have line : rows (']' :: (w ++ '\n' :: (s ++ rest))) = (']' :: w) :: (s ++ []) :: others := by
        have behind := rows_append_single (newline_not_mem_inert inert) first
        have split := rows_append_newline (']' :: w) (s ++ rest)
        rw [behind, rows_of_no_newline (single inertGap)] at split
        exact split
      rw [List.append_nil] at line
      exact ⟨_, _, _, _, line, result, rowKept_token inertGap, .drop (parse_inert inert) later⟩
  | case3 c r _ ih => exact ih.cons c

/-! ### Each step -/

theorem rowKept_trimEnd (row : Text) : RowKept row row.trimEnd := by
  obtain ⟨w, white, split⟩ := trimEnd_append row
  have kept := rowKept_white_behind white row.trimEnd
  rwa [← split] at kept

theorem rowKept_dropReturn (row : Text) : RowKept row (dropReturn row) := by
  unfold dropReturn
  split
  · next last =>
    have kept := rowKept_white_behind (w := ['\r']) (by simp [White, isWhite]) row.dropLast
    rwa [List.dropLast_append_getLast? _ last] at kept
  · exact rowKept_refl row

/-- A row without meaning states nothing. -/
theorem isMeaningful_of_isStated {row : Text} (stated : (Line.parse row).isStated) : isMeaningful row := by
  obtain ⟨c, member, idChar⟩ := exists_idChar stated
  exact List.any_eq_true.2 ⟨c, member, by simp [idChar]⟩

theorem thinned_linesOfRows (rs : List Text) : Thinned rs (((linesOfRows rs).map trimEnd).filter isMeaningful) := by
  have line : ∀ {row row' : Text} {rs rs' : List Text}, RowKept row row' → Thinned rs (rs'.filter isMeaningful) →
      Thinned (row :: rs) ((row' :: rs').filter isMeaningful) := by
    intro row row' rs rs' kept later
    by_cases meaningful : isMeaningful row'
    · rw [List.filter_cons_of_pos meaningful]
      exact .keep kept later
    · rw [List.filter_cons_of_neg meaningful]
      refine .drop ?_ later
      rw [← kept.isStated]
      by_contra stated
      exact meaningful (isMeaningful_of_isStated (by simpa using stated))
  fun_induction linesOfRows rs with
  | case1 => exact .nil
  | case2 => exact .drop rfl .nil
  | case3 last _ => exact line (rowKept_trimEnd last) .nil
  | case4 row others _ ih => exact line ((rowKept_dropReturn row).trans (rowKept_trimEnd _)) ih

theorem kept_dropNoiseLines (t : Text) : Kept t (dropNoiseLines t) := by
  have thinned := thinned_linesOfRows (rows t)
  by_cases none : (t.lines.map trimEnd).filter isMeaningful = []
  · have empty : dropNoiseLines t = [] := by rw [dropNoiseLines, none]; rfl
    have nothing : Thinned (rows t) [] := by rwa [← none]
    rw [empty]
    refine ⟨nothing.contents, fun _ => ?_, fun _ => ?_⟩
    all_goals
      intro row member
      obtain rfl : row = [] := by simpa [rows] using member
    · rw [settled_of_no_label rfl, repairLabels]
    · simp [fence]
  · have same : rows (dropNoiseLines t) = (t.lines.map trimEnd).filter isMeaningful :=
      rows_joinRows none fun _ h => (kept_line h).2.2
    refine kept_of_thinned ?_
    rw [same]
    exact thinned

theorem kept_trimStart (t : Text) : Kept t t.trimStart := by
  unfold trimStart
  induction t with
  | nil => exact kept_refl []
  | cons c r ih =>
    by_cases white : isWhite c
    · rw [List.dropWhile_cons_of_pos white]
      refine Kept.trans (kept_of_thinned ?_) ih
      by_cases newline : c = '\n'
      · rw [newline, rows_cons_newline]
        exact .drop rfl (thinned_refl _)
      · obtain ⟨row, others, first⟩ := List.exists_cons_of_ne_nil (rows_ne_nil r)
        have single : '\n' ∉ [c] := by simpa [eq_comm] using newline
        have whole : rows (c :: r) = (c :: row) :: others := rows_append_single single first
        rw [whole, first]
        exact .keep (rowKept_white_front (w := [c]) (by simpa [White] using white) row) (thinned_refl _)
    · rw [List.dropWhile_cons_of_neg white]
      exact kept_refl _

theorem kept_trim_dropNoiseLines (t : Text) : Kept (dropNoiseLines t) (dropNoiseLines t).trim := by
  have ends : EndsInk (dropNoiseLines t) :=
    joinRows_endsInk (fun _ h => ne_nil_of_meaningful (kept_line h).1) fun _ h => (kept_line h).2.1
  have endsBehind : EndsInk (dropNoiseLines t).trimStart := by
    intro c last
    by_cases empty : (dropNoiseLines t).trimStart = []
    · rw [empty] at last
      cases last
    · obtain ⟨front, split⟩ := trimStart_suffix (dropNoiseLines t)
      apply ends c
      rw [← split, List.getLast?_append_of_ne_nil _ empty]
      exact last
  rw [trim, trimEnd_eq_self endsBehind]
  exact kept_trimStart _

/-! ### All passes -/

/-- A pass over a text without fences and without asides to move. -/
theorem kept_pass {t : Text} (settled : ∀ row ∈ rows t, Settled row) (fenceless : ∀ row ∈ rows t, ¬ fence <:+: row) :
    Kept t (pass t) := by
  have noFence : ¬ fence <:+: t := by
    rw [infix_rows (by decide)]
    rintro ⟨row, member, found⟩
    exact fenceless row member found
  rw [pass, repairAsides_eq_self.2 settled, dropFences_eq_self noFence]
  calc Kept t (dropTrailingTokens t) := kept_of_thinned (tailThinned_dropTrailingTokens t).thinned
    Kept _ (collapseBlanks _) := kept_collapse _
    Kept _ (dropNoiseLines _) := kept_dropNoiseLines _
    Kept _ (trim _) := kept_trim_dropNoiseLines _

theorem kept_repair {t : Text} (settled : ∀ row ∈ rows (dropReturns t), Settled row) (fenceless : ¬ fence <:+: t) :
    Kept t (repair t) := by
  have returns := kept_of_thinned (tailThinned_dropReturns t).thinned
  have noFence : ∀ row ∈ rows (dropReturns t), ¬ fence <:+: row := by
    refine returns.fenceless fun row member found => fenceless ?_
    exact (infix_rows (by decide) t).2 ⟨row, member, found⟩
  refine returns.trans (settle_keeps (P := Kept (dropReturns t)) ?_ _ _ (kept_refl _))
  intro u kept
  exact kept.trans (kept_pass (kept.settled settled) (kept.fenceless noFence))

theorem contents_named (t : Text) : ∀ s ∈ contents t, s.Named := by
  intro s member
  obtain ⟨row, -, rfl⟩ := List.mem_map.1 (List.mem_filter.1 member).1
  exact parse_named row

/-- A text without two blanks side by side states what it states with all runs of blanks collapsed. -/
theorem contents_collapsed {t : Text} (single : collapseBlanks t = t) :
    (contents t).map Statement.collapsed = contents t := by
  refine (List.map_congr_left fun s member => ?_).trans (List.map_id _)
  obtain ⟨row, inside, rfl⟩ := List.mem_map.1 (List.mem_filter.1 member).1
  rw [← parse_collapse, collapse_row single inside]
  rfl

/-- What says the same without runs of blanks is read as the same graph without them. -/
theorem parse_of_kept {t u : Text} {g : Graph} (kept : Kept t u) (single : collapseBlanks u = u)
    (read : parse t = .ok g) : parse u = .ok g.collapsed := by
  obtain ⟨rfl, filled⟩ := parse_iff_contents.1 read
  rw [parse_iff_contents, Graph.ofStatements_collapsed (contents_named t), ← kept.contents, contents_collapsed single]
  refine ⟨rfl, ?_⟩
  rw [← contents_collapsed single, kept.contents, ← Graph.ofStatements_collapsed (contents_named t)]
  simpa [Graph.collapsed] using filled

end Repair

open Repair

/-- A text that has no fence and no aside to move is still read when it is repaired, as the same graph but for runs of
    blanks in its labels. -/
theorem parse_repair {t : Text} {g : Graph} (fenceless : ¬ fence <:+: t)
    (settled : repairAsides (dropReturns t) = dropReturns t) (read : parse t = .ok g) :
    parse (repair t) = .ok g.collapsed :=
  parse_of_kept (kept_repair (repairAsides_eq_self.1 settled) fenceless) (repair_repaired t).blanks read

/-- Wide labels, leftover tokens behind a bracket and on a line of their own, carriage returns and a line of noise. -/
def chatty : Text :=
  "flowchart TD\r\nA[one \t two] TOP\n ... \n  A -->|go   on| B([\"p  [q]\"])\n  C[x]\n  LEFT\n".toList

/-- The graph of that text. -/
def wide : Graph :=
  ⟨[⟨['A'], "one \t two".toList, .rectangle⟩, ⟨['B'], "p  [q]".toList, .rounded⟩, ⟨['C'], ['x'], .rectangle⟩],
    [⟨edgeId 0 ['A'] ['B'], ['A'], ['B'], some "go   on".toList, false⟩]⟩

theorem parse_repair_chatty :
    ¬ fence <:+: chatty ∧ repairAsides (dropReturns chatty) = dropReturns chatty ∧ parse chatty = .ok wide ∧
      parse (repair chatty) = .ok wide.collapsed ∧
      repair chatty = "flowchart TD\nA[one two]\n A -->|go on| B([\"p [q]\"])\n C[x]".toList := by
  have fenceless : ¬ fence <:+: chatty := by decide +kernel
  have settled : repairAsides (dropReturns chatty) = dropReturns chatty := by decide +kernel
  have read : parse chatty = .ok wide := by decide +kernel
  exact ⟨fenceless, settled, read, parse_repair fenceless settled read, by decide +kernel⟩

end Flowchart
