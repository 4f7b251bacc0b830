import Flowchart.Proofs.Repair.NormalForm
import Flowchart.Proofs.Text.Blanks
import Flowchart.Proofs.Text.Punctuation

/-!
Texts without an aside to move. A round leaves a text alone when it leaves each of its rows alone
(`asideRound_eq_self`), because a piece that changes has fewer parentheses, which no other piece makes up for.
A row that is settled stays so when its runs of blanks are collapsed (`settled_collapse`), and when characters
outside all labels are cut off its ends (`settled_front`, `settled_behind`).
-/
namespace Flowchart.Repair
open Text

/-- A row with the asides in its labels moved. -/
def repairRow (row : Text) : Text := outsideEdgeLabels repairLabels [] false row

/-- No label of the row has an aside to move. -/
def Settled (row : Text) : Prop := repairRow row = row

/-- A text of one row is repaired as that row. -/
theorem asideRound_row {t : Text} (single : '\n' ∉ t) : asideRound t = repairRow t := by
  rw [asideRound, rows_of_no_newline single]
  simp [joinRows, repairRow]

/-! ### Pieces that do not change -/

/-- If pieces put together are as before, each of them is. -/
theorem moves_append_eq {m n : Nat} {s s' t t' : Text} (first : Moves m s t) (second : Moves n s' t')
    (same : t ++ t' = s ++ s') : t = s ∧ t' = s' := by
  have count := congrArg (List.count '(') same
  rw [List.count_append, List.count_append] at count
  have := first.1
  have := second.1
  exact ⟨first.2.2 (by omega), second.2.2 (by omega)⟩

theorem repairLabels_moves (t : Text) : ∃ n, Moves n t (repairLabels t) :=
  repairLabels_lift moves_piecewise moves_labels t

theorem repairRow_moves (row : Text) : ∃ n, Moves n row (repairRow row) :=
  outsideEdgeLabels_lift moves_piecewise moves_labels [] false row

/-- A round leaves a text alone when it leaves every row alone. -/
theorem asideRound_eq_self {t : Text} : asideRound t = t ↔ ∀ row ∈ rows t, Settled row := by
  have joined : ∀ rs : List Text, joinRows (rs.map repairRow) = joinRows rs ↔ ∀ row ∈ rs, Settled row := by
    intro rs
    induction rs with
    | nil => simp
    | cons row others ih =>
      cases others with
      | nil => simp [joinRows, Settled]
      | cons next others =>
        rw [List.forall_mem_cons, ← ih, List.map_cons, List.map_cons, joinRows_cons_cons, joinRows_cons_cons,
          ← List.map_cons]
        constructor
        · intro same
          obtain ⟨m, here⟩ := repairRow_moves row
          obtain ⟨n, later⟩ : ∃ n, Moves n (joinRows (next :: others)) (joinRows ((next :: others).map repairRow)) :=
            joinRows_lift moves_piecewise moves_labels _
          obtain ⟨settled, rest⟩ := moves_append_eq here (moves_append (moves_refl ['\n']) later) same
          exact ⟨settled, (List.cons.inj rest).2⟩
        · rintro ⟨settled, rest⟩
          rw [rest, show repairRow row = row from settled]
  conv => lhs; rhs; rw [← joinRows_rows t]
  exact joined (rows t)

theorem repairAsides_eq_self {t : Text} : repairAsides t = t ↔ ∀ row ∈ rows t, Settled row := by
  rw [← asideRound_eq_self]
  constructor
  · intro same
    rw [← same]
    exact asideRound_repairAsides t
  · intro same
    exact settle_of_fixed same _

/-! ### Labels between brackets -/

theorem bracketBody?_eq (t : Text) :
    bracketBody? t = (after? ['['] t).bind fun r =>
      (after? [']'] (r.dropWhile inBody)).map (r.takeWhile inBody, ·) := by
  unfold bracketBody?
  split
  · next r =>
    rw [show after? ['['] ('[' :: r) = some r by simp [after?], Option.bind_some]
    split
    · next rest shape => simp [shape, after?]
    · next other =>
      cases found : after? [']'] (r.dropWhile inBody) with
      | none => rfl
      | some rest => exact absurd (after?_eq_some.1 found) (other rest)
  · next other =>
    cases found : after? ['['] t with
    | none => rfl
    | some r => exact absurd (after?_eq_some.1 found) (other r)

/-- The body of the label that opens behind a character. -/
def label? (c : Char) (t : Text) : Option (Text × Text) := if opensLabel c then bracketBody? t else none

theorem repairLabels_label {c : Char} {t body rest : Text} (found : label? c t = some (body, rest)) :
    repairLabels (c :: t) = c :: '[' :: repairBody body ++ ']' :: repairLabels rest := by
  unfold label? at found
  rw [repairLabels]
  split
  · next body' rest' found' =>
    rw [found] at found'
    obtain ⟨rfl, rfl⟩ := Prod.mk.inj (Option.some.inj found')
    rfl
  · next none =>
    rw [found] at none
    cases none

theorem repairLabels_cons {c : Char} {t : Text} (none : label? c t = none) :
    repairLabels (c :: t) = c :: repairLabels t := by
  unfold label? at none
  rw [repairLabels]
  split
  · next body' rest' found' =>
    rw [none] at found'
    cases found'
  · rfl

theorem label?_eq_some {c : Char} {t body rest : Text} (found : label? c t = some (body, rest)) :
    t = '[' :: body ++ ']' :: rest ∧ ∀ d ∈ body, inBody d := by
  unfold label? at found
  split at found
  · exact bracketBody?_eq_some found
  · cases found

/-- Behind a character at which a label may open, a body between square brackets is one. -/
theorem label?_bracket {c : Char} (opens : opensLabel c) {body : Text} (kept : ∀ d ∈ body, inBody d) (t : Text) :
    label? c ('[' :: body ++ ']' :: t) = some (body, t) := by
  have passed : (body ++ ']' :: t).dropWhile inBody = ']' :: t := by
    rw [List.dropWhile_append_of_pos kept]
    rfl
  have read : (body ++ ']' :: t).takeWhile inBody = body := by
    rw [List.takeWhile_append_of_pos kept]
    simp [inBody]
  rw [label?, if_pos opens, bracketBody?_eq]
  simp [after?, passed, read]

/-- A label and the labels behind it stay as they are together. -/
theorem repairLabels_label_eq {c : Char} {t body rest : Text} (found : label? c t = some (body, rest)) :
    repairLabels (c :: t) = c :: t ↔ repairBody body = body ∧ repairLabels rest = rest := by
  rw [repairLabels_label found, (label?_eq_some found).1]
  constructor
  · intro same
    obtain ⟨m, here⟩ := repairBody_moves body
    obtain ⟨n, later⟩ := repairLabels_moves rest
    have opened : repairBody body ++ ']' :: repairLabels rest = body ++ ']' :: rest := by simpa using same
    obtain ⟨stays, behind⟩ := moves_append_eq here (moves_append (moves_refl [']']) later) opened
    exact ⟨stays, (List.cons.inj behind).2⟩
  · rintro ⟨stays, behind⟩
    rw [stays, behind]
    rfl

theorem repairLabels_cons_eq {c : Char} {t : Text} (none : label? c t = none) :
    repairLabels (c :: t) = c :: t ↔ repairLabels t = t := by
  rw [repairLabels_cons none, List.cons.injEq, and_iff_right rfl]

/-! ### Labels between pipes -/

/-- The label that opens at a character, and the text behind it. A pipe in double quotes opens none. -/
def piped? (quoted : Bool) (c : Char) (r : Text) : Option (Text × Text) :=
  if c = '|' && !quoted then cut ['|'] r else none

/-- The first label between pipes, with the text in front of it and the text behind it. -/
def edgeLabel? (quoted : Bool) : Text → Option (Text × Text × Text)
  | [] => none
  | c :: r =>
    match piped? quoted c r with
    | some (label, rest) => some ([], label, rest)
    | none => (edgeLabel? (quoted ^^ c = '"') r).map (Prod.map (c :: ·) id)

theorem piped?_eq_some {quoted : Bool} {c : Char} {r label rest : Text}
    (found : piped? quoted c r = some (label, rest)) : c = '|' ∧ r = label ++ '|' :: rest := by
  unfold piped? at found
  split at found
  · next opens =>
    exact ⟨by simpa using (Bool.and_eq_true_iff.1 opens).1, by simpa using cut_eq_some found⟩
  · cases found

theorem piped?_of_ne {c : Char} (other : c ≠ '|') (quoted : Bool) (r : Text) : piped? quoted c r = none := by
  simp [piped?, other]

theorem edgeLabel?_cons {quoted : Bool} {c : Char} {r : Text} (none : piped? quoted c r = none) :
    edgeLabel? quoted (c :: r) = (edgeLabel? (quoted ^^ c = '"') r).map (Prod.map (c :: ·) id) := by
  rw [edgeLabel?, none]

theorem edgeLabel?_eq_some {quoted : Bool} {t front label rest : Text}
    (found : edgeLabel? quoted t = some (front, label, rest)) : t = front ++ '|' :: label ++ '|' :: rest := by
  fun_induction edgeLabel? quoted t generalizing front with
  | case1 => cases found
  | case2 quoted c r label' rest' closed =>
    obtain ⟨rfl, rfl, rfl⟩ : [] = front ∧ label' = label ∧ rest' = rest := by simpa using found
    obtain ⟨rfl, rfl⟩ := piped?_eq_some closed
    rfl
  | case3 quoted c r _ ih =>
    obtain ⟨⟨front', label', rest'⟩, later, same⟩ := Option.map_eq_some_iff.1 found
    obtain ⟨rfl, rfl, rfl⟩ : c :: front' = front ∧ label' = label ∧ rest' = rest := by simpa using same
    rw [ih later]
    rfl

theorem outsideEdgeLabels_eq (f : Text → Text) (plain : Text) (quoted : Bool) (t : Text) :
    outsideEdgeLabels f plain quoted t = match edgeLabel? quoted t with
      | some (front, label, rest) =>
        f (plain.reverse ++ front) ++ '|' :: label ++ '|' :: outsideEdgeLabels f [] false rest
      | none => f (plain.reverse ++ t) := by
  fun_induction outsideEdgeLabels f plain quoted t with
  | case1 => simp [edgeLabel?]
  | case2 plain quoted c r label rest closed _ =>
    have found : piped? quoted c r = some (label, rest) := by simpa [piped?] using closed
    rw [edgeLabel?, found]
    simp
  | case3 plain quoted c r none ih =>
    rw [edgeLabel?_cons (by simpa [piped?] using none), ih]
    cases edgeLabel? (quoted ^^ decide (c = '"')) r with
    | none => simp
    | some parts => simp

theorem repairRow_eq (t : Text) :
    repairRow t = match edgeLabel? false t with
      | some (front, label, rest) => repairLabels front ++ '|' :: label ++ '|' :: repairRow rest
      | none => repairLabels t := by
  rw [repairRow, outsideEdgeLabels_eq]
  rfl

theorem settled_of_label {t front label rest : Text} (found : edgeLabel? false t = some (front, label, rest)) :
    Settled t ↔ repairLabels front = front ∧ Settled rest := by
  rw [Settled, repairRow_eq, found, edgeLabel?_eq_some found]
  constructor
  · intro same
    obtain ⟨m, here⟩ := repairLabels_moves front
    obtain ⟨n, later⟩ := repairRow_moves rest
    have split : repairLabels front ++ (('|' :: label ++ ['|']) ++ repairRow rest) =
        front ++ (('|' :: label ++ ['|']) ++ rest) := by simpa using same
    obtain ⟨stays, behind⟩ := moves_append_eq here (moves_append (moves_refl _) later) split
    exact ⟨stays, List.append_cancel_left behind⟩
  · rintro ⟨stays, behind⟩
    simp only [stays, show repairRow rest = rest from behind]

theorem settled_of_no_label {t : Text} (none : edgeLabel? false t = none) : Settled t ↔ repairLabels t = t := by
  rw [Settled, repairRow_eq, none]

/-! ### What is cut off at the ends -/

/-- No bracket and no pipe. -/
def Outer (s : Text) : Prop := ∀ c ∈ ['[', ']', '|'], c ∉ s

variable {s t : Text}

theorem Outer.apart {c : Char} (outer : Outer s) (member : c ∈ ['[', ']', '|']) : ∀ m ∈ [c], m ∉ s := by
  intro m same
  rw [List.mem_singleton.1 same]
  exact outer c member

theorem label?_append (outer : Outer s) (c : Char) (t : Text) :
    label? c (t ++ s) = (label? c t).map (Prod.map id (· ++ s)) := by
  unfold label?
  split
  · rw [bracketBody?_eq, bracketBody?_eq, after?_append_apart (outer.apart (by decide))]
    cases after? ['['] t with
    | none => rfl
    | some r =>
      simp only [Option.map_some, Option.bind_some]
      by_cases run : r.dropWhile inBody = []
      · have passed : (r ++ s).dropWhile inBody = s.dropWhile inBody := by rw [List.dropWhile_append, run]; rfl
        have open' : after? [']'] (s.dropWhile inBody) = none := by
          rw [Option.eq_none_iff_forall_not_mem]
          intro rest found
          apply outer ']' (by decide)
          apply (List.dropWhile_suffix inBody).subset
          rw [after?_eq_some.1 found]
          exact List.mem_cons_self
        rw [passed, open', run]
        rfl
      · have stops : (r ++ s).dropWhile inBody = r.dropWhile inBody ++ s := by
          rw [List.dropWhile_append, if_neg (by simpa using run)]
        have same : (r ++ s).takeWhile inBody = r.takeWhile inBody := by
          rw [List.takeWhile_append, if_neg]
          intro whole
          apply run
          rw [List.dropWhile_eq_nil_iff]
          exact List.takeWhile_eq_self_iff.1 ((List.takeWhile_prefix inBody).eq_of_length whole)
        rw [stops, same, after?_append_apart (outer.apart (by decide))]
        cases after? [']'] (r.dropWhile inBody) <;> rfl
  · rfl

theorem repairLabels_of_no_bracket {t : Text} (none : '[' ∉ t) : repairLabels t = t := by
  induction t with
  | nil => rw [repairLabels]
  | cons c r ih =>
    have closed : label? c r = Option.none := by
      rw [Option.eq_none_iff_forall_not_mem]
      intro parts found
      apply none
      rw [(label?_eq_some found).1]
      simp
    rw [repairLabels_cons closed, ih fun member => none (List.mem_cons_of_mem _ member)]

theorem repairLabels_append (outer : Outer s) (t : Text) : repairLabels (t ++ s) = repairLabels t ++ s := by
  induction hn : t.length using Nat.strongRecOn generalizing t with
  | ind n ih =>
    subst hn
    cases t with
    | nil =>
      rw [List.nil_append, repairLabels_of_no_bracket (outer '[' (by decide)), repairLabels]
      rfl
    | cons c r =>
      have appended := label?_append outer c r
      rw [List.cons_append]
      cases found : label? c r with
      | none =>
        rw [found] at appended
        rw [repairLabels_cons appended, repairLabels_cons found, ih _ (by simp) r rfl]
        rfl
      | some parts =>
        obtain ⟨body, rest⟩ := parts
        have shorter : rest.length < (c :: r).length := by
          rw [(label?_eq_some found).1]
          simp only [List.length_append, List.length_cons]
          omega
        rw [found] at appended
        rw [repairLabels_label appended, repairLabels_label found, ih _ shorter rest rfl]
        simp

theorem edgeLabel?_append (outer : Outer s) (quoted : Bool) (t : Text) :
    edgeLabel? quoted (t ++ s) = (edgeLabel? quoted t).map (Prod.map id (Prod.map id (· ++ s))) := by
  induction t generalizing quoted with
  | nil =>
    rw [List.nil_append, edgeLabel?, Option.map_none, Option.eq_none_iff_forall_not_mem]
    rintro ⟨front, label, rest⟩ found
    apply outer '|' (by decide)
    rw [edgeLabel?_eq_some found]
    simp
  | cons c r ih =>
    have appended : piped? quoted c (r ++ s) = (piped? quoted c r).map (Prod.map id (· ++ s)) := by
      unfold piped?
      split
      · exact cut_append_apart (List.cons_ne_nil '|' []) (outer.apart (by decide)) r
      · rfl
    rw [List.cons_append, edgeLabel?, edgeLabel?, appended, ih]
    cases piped? quoted c r with
    | some parts => rfl
    | none => cases edgeLabel? (quoted ^^ decide (c = '"')) r <;> rfl

theorem edgeLabel?_length {quoted : Bool} {t front label rest : Text}
    (found : edgeLabel? quoted t = some (front, label, rest)) : rest.length < t.length := by
  rw [edgeLabel?_eq_some found]
  simp only [List.length_append, List.length_cons]
  omega

theorem repairRow_append (outer : Outer s) (t : Text) : repairRow (t ++ s) = repairRow t ++ s := by
  induction hn : t.length using Nat.strongRecOn generalizing t with
  | ind n ih =>
    subst hn
    have appended := edgeLabel?_append outer false t
    rw [repairRow_eq, repairRow_eq]
    cases found : edgeLabel? false t with
    | none =>
      rw [found] at appended
      rw [appended]
      exact repairLabels_append outer t
    | some parts =>
      obtain ⟨front, label, rest⟩ := parts
      rw [found] at appended
      rw [appended]
      simp [ih _ (edgeLabel?_length found) rest rfl]

/-- Characters outside all labels behind a row. -/
theorem settled_behind (outer : Outer s) : Settled (t ++ s) ↔ Settled t := by
  rw [Settled, repairRow_append outer, Settled, List.append_left_inj]

theorem edgeLabel?_front {w : Text} (pipe : '|' ∉ w) (quote : '"' ∉ w) (quoted : Bool) (t : Text) :
    edgeLabel? quoted (w ++ t) = (edgeLabel? quoted t).map (Prod.map (w ++ ·) id) := by
  refine search_front (P := fun c => c ≠ '|' ∧ c ≠ '"') ?_ ?_ quoted t
  · rintro quoted c r ⟨noPipe, noQuote⟩
    have same : (quoted ^^ decide (c = '"')) = quoted := by simp [noQuote]
    rw [edgeLabel?_cons (piped?_of_ne noPipe _ _), same]
  · exact fun c member => ⟨fun same => pipe (same ▸ member), fun same => quote (same ▸ member)⟩

theorem repairLabels_front {w : Text} (closed : ∀ c ∈ w, opensLabel c = false) (t : Text) :
    repairLabels (w ++ t) = w ++ repairLabels t := by
  induction w with
  | nil => rfl
  | cons c w ih =>
    have none : label? c (w ++ t) = Option.none := by rw [label?, closed c List.mem_cons_self]; rfl
    rw [List.cons_append, repairLabels_cons none, ih fun d member => closed d (List.mem_cons_of_mem _ member)]
    rfl

theorem opensLabel_white {c : Char} (white : isWhite c) : opensLabel c = false := by
  have other : c ≠ '(' := by
    rintro rfl
    cases white
  simp [opensLabel, isWordChar_white white, other]

/-- White space in front of a row. -/
theorem settled_front {w : Text} (white : White w) : Settled (w ++ t) ↔ Settled t := by
  have passed := edgeLabel?_front (fun member => absurd (white _ member) (by decide))
    (fun member => absurd (white _ member) (by decide)) false t
  have stays : ∀ u, repairLabels (w ++ u) = w ++ u ↔ repairLabels u = u := by
    intro u
    rw [repairLabels_front fun c member => opensLabel_white (white c member), List.append_right_inj]
  cases found : edgeLabel? false t with
  | none =>
    rw [found] at passed
    rw [settled_of_no_label passed, settled_of_no_label found, stays]
  | some parts =>
    obtain ⟨front, label, rest⟩ := parts
    rw [found] at passed
    rw [settled_of_label passed, settled_of_label found, stays]

/-! ### Bodies that do not change -/

theorem moveAside_ne {label moved : Text} (done : moveAside label = some moved) : moved ≠ label := by
  rintro rfl
  have := (moveAside_moves done).1
  omega

/-- A body stays when what is between its slashes, if it has them, has no aside to move. -/
theorem repairBody_eq_self {body : Text} :
    repairBody body = body ↔ moveAside (((slashed? body).map Prod.snd).getD body) = none := by
  unfold repairBody
  cases slashes : slashed? body with
  | none =>
    cases done : moveAside body with
    | none => simp [done]
    | some moved => simp [done, moveAside_ne done]
  | some pair =>
    obtain ⟨slash, inner⟩ := pair
    cases done : moveAside inner with
    | none => simp [done]
    | some moved => simp [done, slashed?_eq_some slashes, moveAside_ne done]

/-- A label without an aside to move is quoted, or in parentheses, or its first `)` closes nothing. -/
theorem moveAside_eq_none {label : Text} :
    moveAside label = none ↔ isQuoted label ∨ isParenthesized label ∨
      ∀ upTo after, cut [')'] label = some (upTo, after) → '(' ∉ upTo := by
  have closes : aside? label = none ↔ ∀ upTo after, cut [')'] label = some (upTo, after) → '(' ∉ upTo := by
    unfold aside?
    cases found : cut [')'] label with
    | none => simp
    | some parts =>
      obtain ⟨upTo, after⟩ := parts
      cases opened : cutLast ['('] upTo with
      | none =>
        have outside := cutLast_char_eq_none.1 opened
        simpa [opened] using outside
      | some inner =>
        have inside : '(' ∈ upTo := by
          by_contra outside
          rw [cutLast_char_eq_none.2 outside] at opened
          cases opened
        simpa [opened] using inside
  unfold moveAside
  rw [← or_assoc, ← closes]
  by_cases kept : isQuoted label || isParenthesized label
  · simpa [kept] using .inl (by simpa using kept)
  · have moved : ¬ (isQuoted label ∨ isParenthesized label) := by simpa using kept
    simp [kept, moved]

theorem moveAside_collapse {label : Text} (stays : moveAside label = none) :
    moveAside (collapseBlanks label) = none := by
  rw [moveAside_eq_none] at stays ⊢
  rcases stays with quoted | parens | none
  · left
    simp only [isQuoted, decide_eq_true_eq] at quoted ⊢
    rw [trimStart_collapse, head?_collapse_eq_some (by decide)]
    exact quoted
  · right
    left
    simp only [isParenthesized, Bool.and_eq_true, decide_eq_true_eq] at parens ⊢
    rw [head?_collapse_eq_some (by decide), getLast?_collapse_eq_some (by decide)]
    exact parens
  · right
    right
    intro upTo after found
    rw [cut_char_collapse (by decide)] at found
    obtain ⟨⟨upTo', after'⟩, before, same⟩ := Option.map_eq_some_iff.1 found
    obtain ⟨rfl, rfl⟩ := Prod.mk.inj same
    rw [mem_collapse_iff (by decide)]
    exact none upTo' after' before

theorem slashed?_collapse (body : Text) :
    slashed? (collapseBlanks body) = (slashed? body).map (Prod.map id collapseBlanks) := by
  have slash : Ink ['/'] := by decide
  have backslash : Ink ['\\'] := by decide
  unfold slashed?
  rw [between?_collapse slash slash, between?_collapse backslash backslash]
  cases between? ['/'] ['/'] body with
  | some inner => rfl
  | none => cases between? ['\\'] ['\\'] body <;> rfl

theorem repairBody_collapse {body : Text} (stays : repairBody body = body) :
    repairBody (collapseBlanks body) = collapseBlanks body := by
  rw [repairBody_eq_self] at stays ⊢
  rw [slashed?_collapse]
  cases found : slashed? body with
  | none =>
    rw [found] at stays
    exact moveAside_collapse stays
  | some pair =>
    rw [found] at stays
    exact moveAside_collapse stays

/-! ### Runs of blanks -/

theorem label?_collapse (c : Char) (r : Text) :
    label? c (collapseBlanks r) = (label? c r).map (Prod.map collapseBlanks collapseBlanks) := by
  have blanks : ∀ d, isBlank d → inBody d := by
    intro d blank
    simp only [isBlank, Bool.or_eq_true, decide_eq_true_eq] at blank
    rcases blank with rfl | rfl <;> decide
  have opening : Ink ['['] := by decide
  have closing : Ink [']'] := by decide
  unfold label?
  split
  · rw [bracketBody?_eq, bracketBody?_eq, after?_collapse opening]
    cases after? ['['] r with
    | none => rfl
    | some s =>
      simp only [Option.map_some, Option.bind_some, dropWhile_collapse blanks, takeWhile_collapse blanks,
        after?_collapse closing, Option.map_map]
      rfl
  · rfl

theorem repairLabels_collapse {t : Text} (stays : repairLabels t = t) :
    repairLabels (collapseBlanks t) = collapseBlanks t := by
  induction t using runs_induction with
  | nil => rw [collapse_nil, stays]
  | run w r blanks first ih =>
    have closed : ∀ w : Text, (∀ c ∈ w, isBlank c) → ∀ c ∈ w, opensLabel c = false :=
      fun w blanks c member => opensLabel_white (isWhite_of_isBlank (blanks c member))
    rw [repairLabels_front (closed w blanks), List.append_right_inj] at stays
    rw [collapse_append_of_ink w first, repairLabels_front (closed _ (collapse_blanks_blank blanks)), ih stays]
  | ink c r ink ih =>
    have collapsed := label?_collapse c r
    rw [collapse_ink ink]
    cases found : label? c r with
    | none =>
      rw [found] at collapsed
      rw [repairLabels_cons_eq found] at stays
      exact (repairLabels_cons_eq collapsed).2 (ih r (List.suffix_refl r) stays)
    | some parts =>
      obtain ⟨body, rest⟩ := parts
      have final : rest <:+ r := ⟨'[' :: body ++ [']'], by rw [(label?_eq_some found).1]; simp⟩
      rw [found] at collapsed
      rw [repairLabels_label_eq found] at stays
      exact (repairLabels_label_eq collapsed).2 ⟨repairBody_collapse stays.1, ih rest final stays.2⟩

theorem edgeLabel?_collapse (quoted : Bool) (t : Text) :
    edgeLabel? quoted (collapseBlanks t) =
      (edgeLabel? quoted t).map (Prod.map collapseBlanks (Prod.map collapseBlanks collapseBlanks)) := by
  refine search_collapse edgeLabel? ?_ (fun _ => rfl) ?_ ?_ quoted t
  · intro quoted t front found same
    obtain ⟨label, rest⟩ := found
    exact ⟨'|' :: label ++ '|' :: rest, by rw [edgeLabel?_eq_some same, List.append_assoc]⟩
  · intro quoted c r blank
    have other : c ≠ '|' ∧ c ≠ '"' := by
      constructor
      all_goals
        rintro rfl
        cases blank
    rw [edgeLabel?_cons (piped?_of_ne other.1 _ _)]
    simp [other.2]
  · intro quoted c r ink
    have collapsed : piped? quoted c (collapseBlanks r) =
        (piped? quoted c r).map (Prod.map collapseBlanks collapseBlanks) := by
      unfold piped?
      split
      · exact cut_char_collapse (by decide) r
      · rfl
    cases found : piped? quoted c r with
    | some parts =>
      rw [found] at collapsed
      exact .inl ⟨parts, by rw [edgeLabel?, found], by rw [edgeLabel?, collapsed]; rfl⟩
    | none =>
      rw [found] at collapsed
      refine .inr ⟨quoted ^^ decide (c = '"'), fun s member => ?_⟩
      rcases List.mem_pair.1 member with rfl | rfl
      · exact edgeLabel?_cons found
      · exact edgeLabel?_cons collapsed

theorem settled_collapse {row : Text} (settled : Settled row) : Settled (collapseBlanks row) := by
  induction hn : row.length using Nat.strongRecOn generalizing row with
  | ind n ih =>
    subst hn
    have collapsed := edgeLabel?_collapse false row
    cases found : edgeLabel? false row with
    | none =>
      rw [found] at collapsed
      exact (settled_of_no_label collapsed).2 (repairLabels_collapse ((settled_of_no_label found).1 settled))
    | some parts =>
      obtain ⟨front, label, rest⟩ := parts
      obtain ⟨stays, behind⟩ := (settled_of_label found).1 settled
      rw [found] at collapsed
      exact (settled_of_label collapsed).2 ⟨repairLabels_collapse stays, ih _ (edgeLabel?_length found) behind rfl⟩

end Flowchart.Repair
