import Flowchart.Repair.Basic
import Flowchart.Proofs.Repair.Asides

/-!
Repaired text. No step of a pass makes the weight of a text larger, and a step that changes the
text makes it smaller (`Shrinks`). So passes come to an end, and at the end no step on its own
changes anything: the steps cannot undo one another (`fixed_of_run`). A text that no step changes
has no fence, no two blanks side by side and no line without meaning (`Repaired`), and
because the last step but one joins trimmed lines it has no carriage return before a newline, which
is what keeps it as it is when it is repaired again (`repair_normal_form`).
-/
namespace Flowchart.Repair
open Text

/-- Each step of a pass leaves the text alone. -/
structure Repaired (t : Text) : Prop where
  round : asideRound t = t
  asides : repairAsides t = t
  fences : dropFences t = t
  tokens : dropTrailingTokens t = t
  blanks : collapseBlanks t = t
  noise : dropNoiseLines t = t
  trimmed : t.trim = t

/-- The steps of a pass, in their order. -/
def steps : List (Text → Text) :=
  [repairAsides, dropFences, dropTrailingTokens, collapseBlanks, dropNoiseLines, trim]

theorem pass_eq_run (t : Text) : pass t = steps.foldl (fun u step => step u) t := rfl

/-! ### Steps that only delete -/

theorem dropFences_sublist (t : Text) : (dropFences t).Sublist t := by
  fun_induction dropFences t with
  | case1 r ih => exact ((ih.cons _).cons _).cons _
  | case2 c r _ ih => exact ih.cons_cons c
  | case3 => exact List.Sublist.refl []

theorem skipToToken_suffix (t : Text) : skipToToken t <:+ t := by
  unfold skipToToken
  have passed := List.dropWhile_suffix isBlank (l := t)
  split
  · next r line =>
    rw [line] at passed
    exact (List.dropWhile_suffix _).trans ((List.suffix_cons _ r).trans passed)
  · exact passed

theorem trailingToken?_suffix {t rest : Text} (found : trailingToken? t = some rest) : rest <:+ t := by
  simp only [trailingToken?] at found
  split at found
  · obtain rfl := Option.some.inj found
    exact ((List.dropWhile_suffix _).trans (List.dropWhile_suffix _)).trans (skipToToken_suffix t)
  · cases found

theorem dropTrailingTokens_sublist (t : Text) : (dropTrailingTokens t).Sublist t := by
  fun_induction dropTrailingTokens t with
  | case1 => exact List.Sublist.refl []
  | case2 c r rest found ih =>
    split at found
    · next bracket =>
      subst bracket
      exact (ih.trans (trailingToken?_suffix found).sublist).cons_cons ']'
    · cases found
  | case3 c r _ ih => exact ih.cons_cons c

/-- The rows that are left when noise is dropped, joined, are part of the rows joined. -/
theorem joinRows_filter_sublist (rs : List Text) :
    (joinRows (((linesOfRows rs).map trimEnd).filter isMeaningful)).Sublist (joinRows rs) := by
  have part : ∀ line : Text, (joinRows ([trimEnd line].filter isMeaningful)).Sublist line := by
    intro line
    by_cases meaningful : isMeaningful (trimEnd line)
    · simpa [meaningful, joinRows] using (trimEnd_isPrefix line).sublist
    · simp [meaningful, joinRows]
  fun_induction linesOfRows rs with
  | case1 => exact List.Sublist.refl _
  | case2 => exact List.Sublist.refl _
  | case3 last _ => simpa [joinRows] using part last
  | case4 row others some ih =>
    obtain ⟨next, more, rfl⟩ := List.exists_cons_of_ne_nil some
    rw [joinRows_cons_cons, List.map_cons]
    have line : (trimEnd (dropReturn row)).Sublist row :=
      ((trimEnd_isPrefix _).trans (dropReturn_isPrefix row)).sublist
    by_cases meaningful : isMeaningful (trimEnd (dropReturn row))
    · rw [List.filter_cons_of_pos meaningful]
      cases left : ((linesOfRows (next :: more)).map trimEnd).filter isMeaningful with
      | nil =>
        have : joinRows [trimEnd (dropReturn row)] = trimEnd (dropReturn row) := by simp [joinRows]
        rw [this]
        exact line.trans (List.sublist_append_left _ _)
      | cons first later =>
        rw [joinRows_cons_cons, ← left]
        exact line.append (ih.cons_cons '\n')
    · rw [List.filter_cons_of_neg meaningful]
      exact ih.trans ((List.sublist_cons_self _ _).trans (List.sublist_append_right _ _))

theorem dropNoiseLines_sublist (t : Text) : (dropNoiseLines t).Sublist t := by
  have := joinRows_filter_sublist (rows t)
  rwa [joinRows_rows] at this

/-! ### Steps shrink -/

/-- A step makes every text lighter that it changes. -/
def Shrinks (step : Text → Text) : Prop := ∀ t, step t = t ∨ weight (step t) < weight t

theorem shrinks_of_sublist {step : Text → Text} (deletes : ∀ t, (step t).Sublist t) : Shrinks step := by
  intro t
  have length := (deletes t).length_le
  have count := (deletes t).count_le '('
  by_cases same : (step t).length = t.length
  · exact .inl ((deletes t).eq_of_length same)
  · right
    simp only [weight]
    omega

theorem repairAsides_shrinks : Shrinks repairAsides := by
  intro t
  obtain ⟨n, fewer, longer, none⟩ := repairAsides_moves t
  by_cases zero : n = 0
  · exact .inl (none zero)
  · right
    simp only [weight]
    omega

theorem weight_cons (c : Char) (t : Text) : weight (c :: t) = weight t + (if c = '(' then 4 else 1) := by
  simp only [weight, List.length_cons, List.count_cons, beq_iff_eq]
  split <;> omega

theorem weight_suffix {s t : Text} (final : s <:+ t) : weight s ≤ weight t := by
  have length := final.length_le
  have count := final.sublist.count_le '('
  simp only [weight]
  omega

theorem collapseBlanks_weight (t : Text) : weight (collapseBlanks t) ≤ weight t := by
  fun_induction collapseBlanks t with
  | case1 => exact Nat.le_refl _
  | case2 c r _ ih =>
    have rest := weight_suffix (List.dropWhile_suffix isBlank (l := r))
    simp only [weight_cons, Char.reduceEq, if_false]
    split <;> omega
  | case3 c r _ ih =>
    simp only [weight_cons]
    omega

/-- A run of blanks gets lighter when it is collapsed. -/
theorem blankRun_lighter {c : Char} {r : Text} (run : isBlank c && r.head?.any isBlank) :
    weight (' ' :: collapseBlanks (r.dropWhile isBlank)) < weight (c :: r) := by
  simp only [Bool.and_eq_true] at run
  cases r with
  | nil => simp at run
  | cons d r =>
    have second : isBlank d := by simpa using run.2
    have collapsed := collapseBlanks_weight (r.dropWhile isBlank)
    have rest := weight_suffix (List.dropWhile_suffix isBlank (l := r))
    rw [List.dropWhile_cons_of_pos second]
    simp only [weight_cons, Char.reduceEq, if_false]
    split <;> split <;> omega

theorem collapseBlanks_shrinks : Shrinks collapseBlanks := by
  intro t
  fun_induction collapseBlanks t with
  | case1 => exact .inl rfl
  | case2 c r run _ => exact .inr (blankRun_lighter run)
  | case3 c r _ ih =>
    rcases ih with same | less
    · exact .inl (by rw [same])
    · right
      simp only [weight_cons]
      omega

theorem steps_shrink : ∀ step ∈ steps, Shrinks step := by
  simp only [steps, List.forall_mem_cons, List.not_mem_nil, false_imp_iff, implies_true, and_true]
  exact ⟨repairAsides_shrinks, shrinks_of_sublist dropFences_sublist, shrinks_of_sublist dropTrailingTokens_sublist,
    collapseBlanks_shrinks, shrinks_of_sublist dropNoiseLines_sublist,
    shrinks_of_sublist fun t => (trim_isInfix t).sublist⟩

/-! ### A run of steps -/

theorem run_shrinks {fs : List (Text → Text)} (shrink : ∀ step ∈ fs, Shrinks step) :
    Shrinks fun t => fs.foldl (fun u step => step u) t := by
  induction fs with
  | nil => exact fun _ => .inl rfl
  | cons f rest ih =>
    intro t
    have later := ih (fun step h => shrink step (List.mem_cons_of_mem _ h)) (f t)
    simp only [List.foldl_cons] at later ⊢
    rcases shrink f List.mem_cons_self t with same | less
    · simpa only [same] using later
    · right
      rcases later with same | less'
      · rwa [same]
      · omega

theorem pass_shrinks : Shrinks pass := run_shrinks steps_shrink

/-- Steps that shrink do not undo one another: if all of them in turn lead back to a text, each of
    them leaves it alone. -/
theorem fixed_of_run {fs : List (Text → Text)} (shrink : ∀ step ∈ fs, Shrinks step) {t : Text}
    (fixed : fs.foldl (fun u step => step u) t = t) : ∀ step ∈ fs, step t = t := by
  induction fs with
  | nil => simp
  | cons f rest ih =>
    have shrinkRest : ∀ step ∈ rest, Shrinks step := fun step h => shrink step (List.mem_cons_of_mem _ h)
    -- A first step that changed the text would make it lighter, and no later step makes up for that.
    have here : f t = t := by
      rcases shrink f List.mem_cons_self t with same | less
      · exact same
      · have later := run_shrinks shrinkRest (f t)
        simp only [List.foldl_cons] at fixed later
        rw [fixed] at later
        rcases later with same | less'
        · exact same.symm
        · omega
    rw [List.foldl_cons, here] at fixed
    intro step member
    rcases List.mem_cons.1 member with rfl | behind
    · exact here
    · exact ih shrinkRest fixed step behind

/-- A text that a whole pass leaves alone is left alone by each of its steps. -/
theorem repaired_of_pass {t : Text} (fixed : pass t = t) : Repaired t := by
  rw [pass_eq_run] at fixed
  have each := fixed_of_run steps_shrink fixed
  simp only [steps, List.forall_mem_cons, List.not_mem_nil, false_imp_iff, implies_true, and_true] at each
  obtain ⟨asides, fences, tokens, blanks, noise, trimmed⟩ := each
  have round := asideRound_repairAsides t
  rw [asides] at round
  exact ⟨round, asides, fences, tokens, blanks, noise, trimmed⟩

theorem pass_of_repaired {t : Text} (repaired : Repaired t) : pass t = t := by
  rw [pass, repaired.asides, repaired.fences, repaired.tokens, repaired.blanks, repaired.noise, repaired.trimmed]

/-! ### What repaired text does not hold -/

theorem dropFences_length {t : Text} (found : fence <:+: t) : (dropFences t).length < t.length := by
  fun_induction dropFences t with
  | case1 r _ =>
    have := (dropFences_sublist r).length_le
    simp only [List.length_cons]
    omega
  | case2 c r other ih =>
    rcases List.infix_cons_iff.1 found with ⟨rest, here⟩ | later
    · obtain ⟨rfl, rfl⟩ : '\x60' = c ∧ '\x60' :: '\x60' :: rest = r := by simpa [fence] using here
      exact absurd rfl (other rest rfl)
    · have := ih later
      simp only [List.length_cons]
      omega
  | case3 => exact absurd (List.eq_nil_of_infix_nil found) (by simp [fence])

theorem dropFences_eq_self {t : Text} (none : ¬ fence <:+: t) : dropFences t = t := by
  fun_induction dropFences t with
  | case1 r _ => exact absurd ⟨[], r, rfl⟩ none
  | case2 c r _ ih => rw [ih fun found => none (found.trans (List.suffix_cons c r).isInfix)]
  | case3 => rfl

section
variable {w : Text} (clean : '\x60' ∉ w)
include clean

theorem not_mem_fence : ∀ c ∈ w, c ∉ fence := by
  rintro c member tick
  obtain rfl : c = '\x60' := by simpa [fence] using tick
  exact clean member

theorem fence_behind (t : Text) : fence <:+: w ++ t ↔ fence <:+: t :=
  infix_behind (List.cons_ne_nil _ _) (not_mem_fence clean) t

theorem fence_front (t : Text) : fence <:+: t ++ w ↔ fence <:+: t :=
  infix_front (List.cons_ne_nil _ _) (not_mem_fence clean) t

end

theorem collapseBlanks_ne {t : Text} {a b : Char} (first : isBlank a) (second : isBlank b) (found : [a, b] <:+: t) :
    collapseBlanks t ≠ t := by
  fun_induction collapseBlanks t with
  | case1 => exact absurd (List.eq_nil_of_infix_nil found) (by simp)
  | case2 c r run _ =>
    intro same
    have lighter := blankRun_lighter run
    rw [same] at lighter
    exact Nat.lt_irrefl _ lighter
  | case3 c r single ih =>
    rcases List.infix_cons_iff.1 found with ⟨rest, here⟩ | later
    · obtain ⟨rfl, rfl⟩ : a = c ∧ b :: rest = r := by simpa using here
      simp [first, second] at single
    · intro same
      exact ih later (List.cons.inj same).2

/-- Texts without two blanks side by side have no runs to collapse. -/
theorem collapseBlanks_eq_self {t : Text} :
    collapseBlanks t = t ↔ ∀ a b, isBlank a → isBlank b → ¬ [a, b] <:+: t := by
  constructor
  · exact fun same a b first second found => collapseBlanks_ne first second found same
  · intro single
    fun_induction collapseBlanks t with
    | case1 => rfl
    | case2 c r run _ =>
      simp only [Bool.and_eq_true] at run
      cases r with
      | nil => simp at run
      | cons d r => exact absurd ⟨[], r, rfl⟩ (single c d run.1 (by simpa using run.2))
    | case3 c r _ ih =>
      rw [ih fun a b first second found => single a b first second (found.trans (List.suffix_cons c r).isInfix)]

theorem collapse_of_infix {s t : Text} (part : s <:+: t) (single : collapseBlanks t = t) : collapseBlanks s = s := by
  rw [collapseBlanks_eq_self] at single ⊢
  exact fun a b first second found => single a b first second (found.trans part)

/-- The lines that are kept hold something, end in ink and hold no newline. -/
theorem kept_line {t line : Text} (kept : line ∈ (t.lines.map trimEnd).filter isMeaningful) :
    isMeaningful line ∧ EndsInk line ∧ '\n' ∉ line := by
  obtain ⟨member, meaningful⟩ := List.mem_filter.1 kept
  obtain ⟨raw, inside, rfl⟩ := List.mem_map.1 member
  refine ⟨meaningful, trimEnd_endsInk raw, ?_⟩
  exact fun newline => newline_not_mem_lines inside ((trimEnd_isPrefix raw).subset newline)

theorem ne_nil_of_meaningful {line : Text} (meaningful : isMeaningful line) : line ≠ [] := by
  rintro rfl
  cases meaningful

theorem lines_dropNoiseLines (t : Text) : (dropNoiseLines t).lines = (t.lines.map trimEnd).filter isMeaningful :=
  lines_joinRows (fun _ h => (kept_line h).2.2) (fun _ h => ne_nil_of_meaningful (kept_line h).1)
    fun _ h => (kept_line h).2.1

theorem dropNoiseLines_no_return (t : Text) : ¬ ['\r', '\n'] <:+: dropNoiseLines t :=
  joinRows_no_return (fun _ h => (kept_line h).2.2) fun _ h => (kept_line h).2.1

/-! ### Repairing -/

theorem dropReturns_eq_self {t : Text} (none : ¬ ['\r', '\n'] <:+: t) : dropReturns t = t := by
  fun_induction dropReturns t with
  | case1 r _ => exact absurd ⟨[], r, rfl⟩ none
  | case2 c r _ ih => rw [ih fun found => none (found.trans (List.suffix_cons c r).isInfix)]
  | case3 => rfl

/-- The passes over a text come to an end. -/
theorem pass_repair (t : Text) : pass (repair t) = repair t :=
  settle_fixed pass_shrinks _ _ (Nat.lt_succ_self _)

theorem repair_of_passes {t u : Text} {n : Nat} (reached : pass^[n] (dropReturns t) = u) (fixed : pass u = u) :
    repair t = u :=
  settle_eq pass_shrinks (Nat.lt_succ_self _) reached fixed

theorem repair_repaired (t : Text) : Repaired (repair t) := repaired_of_pass (pass_repair t)

theorem settle_of_fixed {α : Type} [DecidableEq α] {step : α → α} {a : α} (fixed : step a = a) (fuel : Nat) :
    (settle step fuel a).1 = a := by
  cases fuel with
  | zero => rfl
  | succ fuel => simp [settle, fixed]

/-- Repaired text without a carriage return before a newline needs no repair. -/
theorem repair_eq_self {t : Text} (repaired : Repaired t) (none : ¬ ['\r', '\n'] <:+: t) : repair t = t := by
  rw [repair, run, dropReturns_eq_self none]
  exact settle_of_fixed (pass_of_repaired repaired) _

theorem repair_no_return (t : Text) : ¬ ['\r', '\n'] <:+: repair t := by
  rw [← (repair_repaired t).noise]
  exact dropNoiseLines_no_return _

theorem repair_no_fence (t : Text) : ¬ fence <:+: repair t := by
  intro found
  have shorter := dropFences_length found
  rw [(repair_repaired t).fences] at shorter
  exact Nat.lt_irrefl _ shorter

theorem repair_repair (t : Text) : repair (repair t) = repair t :=
  repair_eq_self (repair_repaired t) (repair_no_return t)

/-- Every text is repaired to one that no step changes any more, and that holds none of what the
    steps take away; to repair it again changes nothing. -/
theorem repair_normal_form (t : Text) :
    Repaired (repair t) ∧ ¬ fence <:+: repair t ∧
      (∀ a b, isBlank a → isBlank b → ¬ [a, b] <:+: repair t) ∧ ¬ ['\r', '\n'] <:+: repair t ∧
      (∀ line ∈ (repair t).lines, isMeaningful line) ∧ repair (repair t) = repair t := by
  have repaired := repair_repaired t
  refine ⟨repaired, repair_no_fence t, ?_, repair_no_return t, ?_, repair_repair t⟩
  · intro a b first second found
    exact collapseBlanks_ne first second found repaired.blanks
  · intro line member
    rw [← repaired.noise, lines_dropNoiseLines] at member
    exact (kept_line member).1

end Flowchart.Repair
