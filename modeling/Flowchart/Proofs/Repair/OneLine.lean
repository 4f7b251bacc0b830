import Flowchart.Proofs.Load
import Flowchart.Proofs.Repair.Bodies
import Flowchart.Proofs.Repair.Meaning
import Flowchart.Proofs.Writer.Line

/-!
Repair of one line. A line without a fence stays one through every step (`OneLine.pass`), and of a pass over it
three steps are left that do something (`pass_line`). No step comes between an id that the line starts with and what
it goes on with (`Led.pass`): a label opens behind an id at the earliest, and only white space is taken away there.
-/
namespace Flowchart.Repair
open Text Line

variable {s t : Text}

/-! ### Characters -/

theorem mem_asideRound {c : Char} (space : c ≠ ' ') (dash : c ≠ '-') (t : Text) : c ∈ asideRound t → c ∈ t := by
  have pieces : Piecewise fun s t => c ∈ t → c ∈ s := by
    refine ⟨fun _ => id, ?_⟩
    intro s t s' t' first second
    rw [List.mem_append, List.mem_append]
    exact Or.imp first second
  exact asideRound_lift (R := fun s t => c ∈ t → c ∈ s) pieces
    (pieces.labels (repairBody_lift pieces (of_mem_moveAside space dash))) t

/-- Ink other than parentheses and dashes is as often in a text as before. -/
theorem count_asideRound {c : Char} (ink : ¬ isWhite c) (other : c ∉ ['(', ')', '-']) (t : Text) :
    (asideRound t).count c = t.count c := by
  have pieces : Piecewise fun s t : Text => t.count c = s.count c := by
    refine ⟨fun _ => rfl, ?_⟩
    intro s t s' t' first second
    rw [List.count_append, List.count_append, first, second]
  refine asideRound_lift (R := fun s t => t.count c = s.count c) pieces (pieces.labels (repairBody_lift pieces ?_)) t
  intro label moved done
  obtain ⟨before, inside, after, rfl, rfl⟩ := moveAside_eq_some done
  simp only [List.mem_cons, List.not_mem_nil, or_false, not_or] at other
  rw [moved_count ink other.2.2]
  simp only [count_trimEnd ink, count_trim ink, count_trimStart ink, List.count_append, List.count_cons, beq_iff_eq,
    Ne.symm other.1, Ne.symm other.2.1, if_false]
  omega

/-! ### Fences -/

theorem fence_joinWords (found : fence <:+: joinWords s t) : fence <:+: s ∨ fence <:+: t := by
  unfold joinWords at found
  split at found
  · next empty =>
    simp only [Bool.or_eq_true, List.isEmpty_iff] at empty
    rcases empty with rfl | rfl
    · exact .inr found
    · exact .inl (by simpa using found)
  · exact (infix_append_cons (by decide)).1 found

theorem fence_moved {a : Aside} (found : fence <:+: a.moved) :
    fence <:+: a.before ∨ fence <:+: a.inside ∨ fence <:+: a.after := by
  have head : fence <:+: joinWords a.before a.after → fence <:+: a.before ∨ fence <:+: a.inside ∨ fence <:+: a.after :=
    fun inside => (fence_joinWords inside).imp_right .inr
  unfold Aside.moved at found
  simp only at found
  split at found
  · exact .inr (.inl found)
  · split at found
    · exact head found
    · rw [dash_eq, List.append_assoc] at found
      rcases (infix_append_cons (by decide)).1 found with front | back
      · exact head front
      · have inside := (fence_behind (w := ['-', ' ']) (by decide) a.inside).1 back
        exact .inr (.inl inside)

theorem fence_moveAside {label moved : Text} (done : moveAside label = some moved) (found : fence <:+: moved) :
    fence <:+: label := by
  obtain ⟨before, inside, after, rfl, rfl⟩ := moveAside_eq_some done
  have split : before ++ '(' :: inside ++ ')' :: after = before ++ '(' :: (inside ++ ')' :: after) := by simp
  rw [split, infix_append_cons (by decide), infix_append_cons (by decide)]
  exact (fence_moved found).imp (·.trans (trimEnd_isPrefix before).isInfix)
    (Or.imp (·.trans (trim_isInfix inside)) (·.trans (trimStart_suffix after).isInfix))

theorem fence_repairBody {body : Text} (found : fence <:+: repairBody body) : fence <:+: body := by
  unfold repairBody at found
  split at found
  · next slash inner slashes =>
    cases done : moveAside inner with
    | none => simpa [done] using found
    | some moved =>
      have tick : ∀ slash ∈ ['/', '\\'], '\x60' ∉ [slash] := List.all_iff_forall_prop.1 (by decide)
      have apart := tick slash (slashed?_slash slashes)
      have ends : ∀ inner, fence <:+: slash :: inner ++ [slash] ↔ fence <:+: inner := by
        intro inner
        rw [fence_front apart, ← List.singleton_append, fence_behind apart]
      rw [done, Option.map_some, Option.getD_some, ends] at found
      rw [slashed?_eq_some slashes, ends]
      exact fence_moveAside done found
  · cases done : moveAside body with
    | none => simpa [done] using found
    | some moved =>
      rw [done, Option.getD_some] at found
      exact fence_moveAside done found

/-- Backticks in front of a text stay in front of it, since no label opens behind one. -/
theorem ticks_repairLabels {w : Text} (ticks : ∀ c ∈ w, c = '\x60') (initial : w <+: repairLabels t) : w <+: t := by
  have closed : opensLabel '\x60' = false := by decide +kernel
  induction w generalizing t with
  | nil => exact List.nil_prefix
  | cons c w ih =>
    obtain rfl := ticks c List.mem_cons_self
    cases t with
    | nil => rwa [repairLabels_nil] at initial
    | cons d r =>
      have tick : '\x60' = d := by
        cases found : label? d r with
        | none =>
          rw [repairLabels_cons found] at initial
          exact (List.cons_prefix_cons.1 initial).1
        | some parts =>
          rw [repairLabels_label found] at initial
          exact (List.cons_prefix_cons.1 initial).1
      subst tick
      have none : label? '\x60' r = Option.none := by rw [label?, closed]; rfl
      rw [repairLabels_cons none, List.cons_prefix_cons] at initial
      exact List.cons_prefix_cons.2 ⟨rfl, ih (fun d member => ticks d (List.mem_cons_of_mem _ member)) initial.2⟩

theorem fence_repairLabels (found : fence <:+: repairLabels t) : fence <:+: t := by
  induction hn : t.length using Nat.strongRecOn generalizing t with
  | ind n ih =>
    subst hn
    cases t with
    | nil => rwa [repairLabels_nil] at found
    | cons c r =>
      cases labelled : label? c r with
      | none =>
        have same := repairLabels_cons labelled
        rw [same] at found
        rcases List.infix_cons_iff.1 found with initial | later
        · rw [← same] at initial
          exact (ticks_repairLabels (by simp [fence]) initial).isInfix
        · exact (ih _ (Nat.lt_succ_self _) later rfl).trans (List.suffix_cons c r).isInfix
      | some parts =>
        obtain ⟨body, rest⟩ := parts
        obtain ⟨shape, -⟩ := label?_eq_some labelled
        have shorter : rest.length < (c :: r).length := by
          rw [shape]
          simp only [List.length_append, List.length_cons]
          omega
        have split : ∀ body rest, fence <:+: c :: '[' :: body ++ ']' :: rest ↔ fence <:+: body ∨ fence <:+: rest := by
          intro body rest
          have single : ¬ fence <:+: [c] := fun inside => absurd inside.length_le (by simp [fence])
          have here : c :: '[' :: body ++ ']' :: rest = [c] ++ '[' :: (body ++ ']' :: rest) := by simp
          rw [here, infix_append_cons (by decide), infix_append_cons (by decide), or_iff_right single]
        rw [repairLabels_label labelled, split] at found
        have whole : c :: r = c :: '[' :: body ++ ']' :: rest := by rw [shape]; rfl
        rw [whole, split]
        exact found.imp fence_repairBody fun later => ih _ shorter later rfl

theorem fence_repairRow (found : fence <:+: repairRow t) : fence <:+: t := by
  induction hn : t.length using Nat.strongRecOn generalizing t with
  | ind n ih =>
    subst hn
    rw [repairRow_eq] at found
    cases labelled : edgeLabel? false t with
    | none =>
      rw [labelled] at found
      exact fence_repairLabels found
    | some parts =>
      obtain ⟨front, label, rest⟩ := parts
      have split : ∀ front rest, fence <:+: front ++ '|' :: label ++ '|' :: rest ↔
          fence <:+: front ∨ fence <:+: label ∨ fence <:+: rest := by
        intro front rest
        rw [List.append_assoc, List.cons_append, infix_append_cons (by decide), infix_append_cons (by decide)]
      rw [labelled, split] at found
      rw [edgeLabel?_eq_some labelled, split]
      exact found.imp fence_repairLabels (Or.imp_right fun later => ih _ (edgeLabel?_length labelled) later rfl)

/-! ### One line -/

/-- A text without newlines and fences. -/
structure OneLine (t : Text) : Prop where
  single : '\n' ∉ t
  fenceless : ¬ fence <:+: t

theorem OneLine.asideRound (line : OneLine t) : OneLine (asideRound t) := by
  refine ⟨fun newline => line.single (mem_asideRound (by decide) (by decide) t newline), ?_⟩
  rw [asideRound_row line.single]
  exact fun found => line.fenceless (fence_repairRow found)

theorem OneLine.repairAsides (line : OneLine t) : OneLine (repairAsides t) :=
  settle_keeps (P := OneLine) (fun _ => OneLine.asideRound) _ t line

theorem OneLine.part (line : OneLine t) (part : s <:+: t) : OneLine s :=
  ⟨fun newline => line.single (part.subset newline), fun found => line.fenceless (found.trans part)⟩

/-- On one line, what a token is dropped with is the end of the text. -/
theorem dropTrailingTokens_isPrefix (single : '\n' ∉ t) : dropTrailingTokens t <+: t := by
  fun_induction dropTrailingTokens t with
  | case1 => exact List.nil_prefix
  | case2 c r rest found ih =>
    split at found
    · next bracket =>
      obtain ⟨ends, -⟩ := trailingToken?_eq_some found
      have last : rest = [] := by
        cases rest with
        | nil => rfl
        | cons d r' =>
          obtain rfl : d = '\n' := by simpa [endsLine] using ends
          exact absurd ((trailingToken?_suffix found).subset List.mem_cons_self) fun newline =>
            single (List.mem_cons_of_mem _ newline)
      rw [last, dropTrailingTokens, bracket]
      exact List.cons_prefix_cons.2 ⟨rfl, List.nil_prefix⟩
    · cases found
  | case3 c r _ ih =>
    exact List.cons_prefix_cons.2 ⟨rfl, ih fun newline => single (List.mem_cons_of_mem _ newline)⟩

theorem OneLine.collapse (line : OneLine t) : OneLine (collapseBlanks t) :=
  ⟨fun newline => line.single ((mem_collapse_iff (by decide)).1 newline), (rowKept_collapse t).fenceless line.fenceless⟩

/-- What is left of a line before it is trimmed. -/
def swept (t : Text) : Text := collapseBlanks (dropTrailingTokens (repairAsides t))

theorem OneLine.swept (line : OneLine t) : OneLine (swept t) :=
  (line.repairAsides.part (dropTrailingTokens_isPrefix line.repairAsides.single).isInfix).collapse

/-- Of a line that holds something, a pass makes one line. -/
theorem pass_line (line : OneLine t) (held : isMeaningful t) : pass t = (swept t).trim := by
  have fences : dropFences (repairAsides t) = repairAsides t := dropFences_eq_self line.repairAsides.fenceless
  have left : isMeaningful (swept t) := by
    have kept := collapsed_meaningful held
    rwa [fences] at kept
  have noise : dropNoiseLines (swept t) = (swept t).trimEnd := by
    have filled := ne_nil_of_meaningful left
    have trimmed : isMeaningful (swept t).trimEnd :=
      isMeaningful_of_mem (fun _ member telling => (mem_trimEnd (isTelling_ink telling)).2 member) left
    rw [dropNoiseLines, lines, rows_of_no_newline line.swept.single]
    simp [linesOfRows, filled, trimmed, joinRows]
  obtain ⟨w, white, split⟩ := trimEnd_append (swept t)
  have same : (swept t).trimEnd.trim = (swept t).trim := by
    conv => rhs; rw [split, trim_append_white white]
  rw [pass, fences]
  exact (congrArg trim noise).trans same

theorem OneLine.pass (line : OneLine t) (held : isMeaningful t) : OneLine (pass t) := by
  rw [pass_line line held]
  exact line.swept.part (trim_isInfix _)

/-- Repair is as many passes as are enough. -/
theorem OneLine.repair (line : OneLine t) {n : Nat} (enough : weight t < n) : repair t = Repair.pass^[n] t := by
  have returns : dropReturns t = t := dropReturns_eq_self fun found => line.single (found.subset (by decide))
  rw [Flowchart.repair, run, returns]
  exact settle_of_enough pass_shrinks (Nat.lt_succ_self _) enough

/-! ### What an id goes on with -/

theorem head?_repairLabels (t : Text) : (repairLabels t).head? = t.head? := by
  cases t with
  | nil => rw [repairLabels_nil]
  | cons c r =>
    cases found : label? c r with
    | none => rw [repairLabels_cons found]; rfl
    | some parts => rw [repairLabels_label found]; rfl

/-- Behind text without an opening bracket a label may open, but nothing comes between. -/
theorem repairLabels_ahead {x : Text} (apart : '[' ∉ x) (y : Text) :
    ∃ y', repairLabels (x ++ y) = x ++ y' ∧ y'.head? = y.head? := by
  induction x with
  | nil => exact ⟨repairLabels y, rfl, head?_repairLabels y⟩
  | cons c x ih =>
    cases found : label? c (x ++ y) with
    | none =>
      obtain ⟨y', same, head⟩ := ih fun member => apart (List.mem_cons_of_mem _ member)
      exact ⟨y', by rw [List.cons_append, repairLabels_cons found, same]; rfl, head⟩
    | some parts =>
      obtain ⟨body, rest⟩ := parts
      obtain ⟨shape, -⟩ := label?_eq_some found
      have empty : x = [] := by
        cases x with
        | nil => rfl
        | cons d x =>
          obtain rfl : d = '[' := by simpa using congrArg List.head? shape
          exact absurd (by simp) apart
      subst empty
      refine ⟨'[' :: repairBody body ++ ']' :: repairLabels rest, repairLabels_label found, ?_⟩
      rw [List.nil_append] at shape
      rw [shape]
      rfl

theorem repairRow_ahead {x : Text} (apart : ∀ m ∈ ['[', '|', '"'], m ∉ x) (y : Text) :
    ∃ y', repairRow (x ++ y) = x ++ y' ∧ y'.head? = y.head? := by
  have passed := edgeLabel?_front (apart '|' (by decide)) (apart '"' (by decide)) false y
  have ahead := repairLabels_ahead (apart '[' (by decide))
  rw [repairRow_eq, passed]
  cases found : edgeLabel? false y with
  | none => exact ahead y
  | some parts =>
    obtain ⟨front, label, rest⟩ := parts
    obtain ⟨front', same, head⟩ := ahead front
    refine ⟨front' ++ '|' :: label ++ '|' :: repairRow rest, by simp [same], ?_⟩
    rw [edgeLabel?_eq_some found]
    simp only [List.append_assoc, List.head?_append, head, List.cons_append, List.head?_cons]

theorem head?_repairRow (t : Text) : (repairRow t).head? = t.head? := by
  obtain ⟨y, same, head⟩ := repairRow_ahead (fun _ _ => List.not_mem_nil) t
  rw [List.nil_append, List.nil_append] at same
  rw [same, head]

theorem getLast?_repairLabels (t : Text) : (repairLabels t).getLast? = t.getLast? := by
  fun_induction repairLabels t with
  | case1 => rfl
  | case2 c r body rest found ih =>
    have shape : r = '[' :: body ++ ']' :: rest := by
      split at found
      · exact (bracketBody?_eq_some found).1
      · cases found
    simp [shape, List.getLast?_append, List.getLast?_cons, ih]
  | case3 c r _ ih => rw [List.getLast?_cons, List.getLast?_cons, ih]

theorem getLast?_repairRow (t : Text) : (repairRow t).getLast? = t.getLast? := by
  induction hn : t.length using Nat.strongRecOn generalizing t with
  | ind n ih =>
    subst hn
    rw [repairRow_eq]
    cases found : edgeLabel? false t with
    | none => exact getLast?_repairLabels t
    | some parts =>
      obtain ⟨front, label, rest⟩ := parts
      have later := ih _ (edgeLabel?_length found) rest rfl
      rw [edgeLabel?_eq_some found]
      simp [List.getLast?_append, List.getLast?_cons, later]

/-- What is told of the character behind an id still holds when a blank there is
    changed or white space is taken away. -/
structure Lasting (Q : Option Char → Prop) : Prop where
  blank : ∀ c, isBlank c → Q (some c) → Q (some ' ')
  white : ∀ c, isWhite c → Q (some c) → Q none

/-- The text starts with an id, with or without blanks in front of it, and goes on as told. -/
def Led (id : Text) (Q : Option Char → Prop) (t : Text) : Prop :=
  ∃ w y, (∀ c ∈ w, isBlank c) ∧ t = w ++ (id ++ y) ∧ Q y.head?

section
variable {id : Text} (valid : isId id) {Q : Option Char → Prop}
include valid

theorem lead_apart {w : Text} (blanks : ∀ c ∈ w, isBlank c) {m : Char} (foreign : m ∈ punctuation)
    (ink : isBlank m = false) : m ∉ w ++ id := by
  intro member
  rcases List.mem_append.1 member with inside | inside
  · rw [blanks m inside] at ink
    cases ink
  · exact idChar_ne (isId_run valid m inside) foreign rfl

theorem Led.asides (led : Led id Q t) (line : OneLine t) : Led id Q (repairAsides t) := by
  have step : ∀ t, OneLine t ∧ Led id Q t → OneLine (asideRound t) ∧ Led id Q (asideRound t) := by
    rintro t ⟨line, w, y, blanks, rfl, next⟩
    refine ⟨line.asideRound, ?_⟩
    have apart : ∀ m ∈ ['[', '|', '"'], m ∉ w ++ id := by
      have marks : ∀ m ∈ ['[', '|', '"'], m ∈ punctuation ∧ isBlank m = false :=
        List.all_iff_forall_prop.1 (by decide)
      exact fun m member => lead_apart valid blanks (marks m member).1 (marks m member).2
    obtain ⟨y', same, head⟩ := repairRow_ahead apart y
    rw [List.append_assoc, List.append_assoc] at same
    exact ⟨w, y', blanks, (asideRound_row line.single).trans same, head ▸ next⟩
  exact (settle_keeps (P := fun t => OneLine t ∧ Led id Q t) step _ t ⟨line, led⟩).2

theorem Led.tokens (led : Led id Q t) : Led id Q (dropTrailingTokens t) := by
  have ahead : ∀ {x : Text}, ']' ∉ x → ∀ y, dropTrailingTokens (x ++ y) = x ++ dropTrailingTokens y := by
    intro x apart y
    induction x with
    | nil => rfl
    | cons c x ih =>
      have other : c ≠ ']' := fun same => apart (same ▸ List.mem_cons_self)
      rw [List.cons_append, dropTrailingTokens_cons other, ih fun member => apart (List.mem_cons_of_mem _ member)]
      rfl
  have head : ∀ y, (dropTrailingTokens y).head? = y.head? := by
    intro y
    fun_cases dropTrailingTokens y with
    | case1 => rfl
    | case2 c r rest found =>
      split at found
      · next bracket => rw [bracket]; rfl
      · cases found
    | case3 c r none => rfl
  obtain ⟨w, y, blanks, rfl, next⟩ := led
  refine ⟨w, dropTrailingTokens y, blanks, ?_, (head y).symm ▸ next⟩
  have same := ahead (lead_apart valid blanks (by decide) (by decide)) y
  rwa [List.append_assoc, List.append_assoc] at same

theorem Led.collapse (lasting : Lasting Q) (led : Led id Q t) : Led id Q (collapseBlanks t) := by
  obtain ⟨w, y, blanks, rfl, next⟩ := led
  have ink : Ink id := fun c member => idChar_not_blank (isId_run valid c member)
  have first : ∀ c ∈ (id ++ y).head?, isBlank c = false := by
    obtain ⟨c, r, rfl, idChar, -⟩ := isId_cons valid
    simpa using idChar_not_blank idChar
  refine ⟨collapseBlanks w, collapseBlanks y, collapse_blanks_blank blanks, ?_, ?_⟩
  · rw [collapse_append_of_ink w first, ink_append ink]
  · rcases head?_collapse y with same | ⟨⟨c, there, blank⟩, space⟩
    · rwa [same]
    · rw [Option.mem_def.1 there] at next
      rw [space]
      exact lasting.blank c blank next

theorem Led.trimEnd (lasting : Lasting Q) (led : Led id Q t) : Led id Q t.trimEnd := by
  obtain ⟨w, y, blanks, rfl, next⟩ := led
  have filled : id ≠ [] := by
    rintro rfl
    cases valid
  have ends : EndsInk (w ++ id) := endsInk_append filled (Writer.endsInk_id valid)
  have split := trimEnd_append_of_ink ends y
  rw [List.append_assoc, List.append_assoc] at split
  refine ⟨w, y.trimEnd, blanks, split, ?_⟩
  by_cases empty : y.trimEnd = []
  · rw [empty]
    cases y with
    | nil => exact next
    | cons c r =>
      have white : White (c :: r) := List.rdropWhile_eq_nil_iff.1 empty
      exact lasting.white c (white c List.mem_cons_self) next
  · obtain ⟨rest, same⟩ := trimEnd_isPrefix y
    have head : y.trimEnd.head? = y.head? := by
      conv => rhs; rw [← same, List.head?_append_of_ne_nil _ empty]
    rwa [head]

theorem Led.trimStart (led : Led id Q t) : Led id Q t.trimStart := by
  obtain ⟨w, y, blanks, rfl, next⟩ := led
  have white : White w := fun c member => isWhite_of_isBlank (blanks c member)
  refine ⟨[], y, List.forall_mem_nil _, ?_, next⟩
  rw [trimStart_append_white white, trimStart_eq_self (Writer.startsInk_id valid y)]
  rfl

theorem Led.swept (lasting : Lasting Q) (led : Led id Q t) (line : OneLine t) : Led id Q (swept t) :=
  ((led.asides valid line).tokens valid).collapse valid lasting

theorem Led.meaningful (led : Led id Q t) : isMeaningful t := by
  obtain ⟨w, y, -, rfl, -⟩ := led
  obtain ⟨c, r, rfl, idChar, -⟩ := isId_cons valid
  exact isMeaningful_iff.2 ⟨c, by simp, by simp [isTelling, idChar]⟩

theorem Led.pass (lasting : Lasting Q) (led : Led id Q t) (line : OneLine t) : Led id Q (pass t) := by
  rw [pass_line line (led.meaningful valid)]
  exact ((led.swept valid lasting line).trimStart valid).trimEnd valid lasting

/-- Repaired, a line starts with its id and goes on behind it as before. -/
theorem Led.repaired (lasting : Lasting Q) (led : Led id Q t) (line : OneLine t) :
    ∃ y, repair t = id ++ y ∧ Q y.head? := by
  have step : ∀ t, OneLine t ∧ Led id Q t → OneLine (Repair.pass t) ∧ Led id Q (Repair.pass t) := by
    rintro t ⟨line, led⟩
    exact ⟨line.pass (led.meaningful valid), led.pass valid lasting line⟩
  have led' := (Function.Iterate.rec (fun t => OneLine t ∧ Led id Q t) ⟨line, led⟩ step (weight t + 1)).2
  rw [← line.repair (Nat.lt_succ_self _)] at led'
  obtain ⟨w, y, blanks, text, next⟩ := led'
  have trimmed : (Flowchart.repair t).trim = Flowchart.repair t := (repair_repaired t).trimmed
  -- A trimmed text has no blanks in front of the id.
  have none : w = [] := by
    cases w with
    | nil => rfl
    | cons c w =>
      have ink := trim_startsInk (Flowchart.repair t) c (by rw [trimmed, text]; rfl)
      exact absurd (isWhite_of_isBlank (blanks c List.mem_cons_self)) ink
  exact ⟨y, by rw [text, none]; rfl, next⟩

end

end Flowchart.Repair
