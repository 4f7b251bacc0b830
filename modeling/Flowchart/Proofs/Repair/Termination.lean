import Flowchart.Proofs.Repair.Ink
import Flowchart.Proofs.Repair.NormalForm
import Flowchart.Proofs.Text.Blanks

/-!
The two loops of a repair come to an end. A round that changes the text takes parentheses away, though it may make
the text longer (`asideRound_fewer`), and no other step of a pass brings a parenthesis or makes the text longer
(`steps_within`). So a pass that changes the text makes the number of opening parentheses smaller or, where that
stays, the length (`pass_smaller`), and each loop stops after so many turns (`loops_stop`).
-/
namespace Flowchart
open Text

/-! ### Loops -/

/-- A loop that repeats the step until it changes nothing starts at `a` and stops at `b`: each turn but the last changes
    something, and there are at most so many of these. -/
def Halts {α : Type} (step : α → α) (most : Nat) (a b : α) : Prop :=
  ∃ turns ≤ most, (∀ k < turns, step (step^[k] a) ≠ step^[k] a) ∧ step^[turns] a = b ∧ step b = b

namespace Repair

/-- A step that makes a measure smaller whenever it changes something stops, and where it stops it is settled. -/
theorem settle_stops {α : Type} [DecidableEq α] {step : α → α} {measure : α → Nat}
    (shrinks : ∀ a, step a = a ∨ measure (step a) < measure a) (fuel : Nat) (a : α) (enough : measure a < fuel) :
    Halts step (measure a) a (settle step fuel a).1 := by
  induction fuel generalizing a with
  | zero => omega
  | succ fuel ih =>
    simp only [settle]
    split
    · next same => exact ⟨0, Nat.zero_le _, by simp, rfl, same⟩
    · next changed =>
      have smaller := (shrinks a).resolve_left changed
      obtain ⟨turns, few, each, reached, fixed⟩ := ih (step a) (by omega)
      refine ⟨turns + 1, by omega, fun k before => ?_, reached, fixed⟩
      cases k with
      | zero => exact changed
      | succ k => exact each k (by omega)

/-! ### Lengths -/

/-- The length of a text in characters and in bytes. -/
def lengths : List (Text → Nat) := [List.length, Text.size]

theorem size_of_sublist {s t : Text} (part : s.Sublist t) :
    s.size ≤ t.size ∧ (s.length < t.length → s.size < t.size) := by
  induction part with
  | slnil => simp
  | cons c part ih =>
    have wide := c.utf8Size_pos
    rw [size_cons]
    exact ⟨by omega, fun _ => by omega⟩
  | cons_cons c part ih =>
    rw [size_cons, size_cons, List.length_cons, List.length_cons]
    exact ⟨by omega, fun shorter => by have := ih.2 (by omega); omega⟩

theorem size_of_blanks {w : Text} (blanks : ∀ c ∈ w, isBlank c) : w.size = w.length := by
  induction w with
  | nil => rfl
  | cons c w ih =>
    have narrow : c.utf8Size = 1 := by
      have blank := blanks c List.mem_cons_self
      simp only [isBlank, Bool.or_eq_true, decide_eq_true_eq] at blank
      rcases blank with rfl | rfl <;> decide
    rw [size_cons, narrow, ih fun d member => blanks d (List.mem_cons_of_mem _ member), List.length_cons, Nat.add_comm]

/-- Only blanks are taken away, which are one byte each. -/
theorem collapseBlanks_size (t : Text) : (collapseBlanks t).size + t.length = t.size + (collapseBlanks t).length := by
  induction t using runs_induction with
  | nil => simp
  | run w r blanks ink ih =>
    rw [collapse_append_of_ink w ink, size_append, size_append, List.length_append, List.length_append,
      size_of_blanks blanks, size_of_blanks (collapse_blanks_blank blanks)]
    omega
  | ink c r ink ih =>
    have behind := ih r (List.suffix_refl r)
    rw [collapse_ink ink, size_cons, size_cons, List.length_cons, List.length_cons]
    omega

/-! ### Steps -/

/-- A text with no more parentheses than another has. It is the same one, or it is shorter. -/
structure Within (s t : Text) : Prop where
  opening : t.count '(' ≤ s.count '('
  closing : t.count ')' ≤ s.count ')'
  shorter : t = s ∨ ∀ len ∈ lengths, len t < len s

theorem Within.refl (t : Text) : Within t t := ⟨Nat.le_refl _, Nat.le_refl _, .inl rfl⟩

theorem Within.trans {s t u : Text} (first : Within s t) (second : Within t u) : Within s u := by
  refine ⟨second.opening.trans first.opening, second.closing.trans first.closing, ?_⟩
  rcases second.shorter with rfl | later
  · exact first.shorter
  · rcases first.shorter with rfl | before
    · exact .inr later
    · exact .inr fun len member => (later len member).trans (before len member)

theorem within_of_sublist {s t : Text} (part : t.Sublist s) : Within s t := by
  refine ⟨part.count_le '(', part.count_le ')', ?_⟩
  rcases Nat.lt_or_eq_of_le part.length_le with less | same
  · right
    simp only [lengths, List.forall_mem_cons, List.not_mem_nil, false_imp_iff, implies_true, and_true]
    exact ⟨less, (size_of_sublist part).2 less⟩
  · exact .inl (part.eq_of_length same)

theorem within_collapse (t : Text) : Within t (collapseBlanks t) := by
  have opening : (collapseBlanks t).count '(' = t.count '(' := count_collapse (by decide) t
  refine ⟨opening.le, (count_collapse (by decide) t).le, ?_⟩
  rcases collapseBlanks_shrinks t with same | lighter
  · exact .inl same
  · right
    have bytes := collapseBlanks_size t
    simp only [weight, opening] at lighter
    simp only [lengths, List.forall_mem_cons, List.not_mem_nil, false_imp_iff, implies_true, and_true]
    constructor <;> omega

/-- The steps of a pass that come behind the moving of asides. -/
def laterSteps : List (Text → Text) := [dropFences, dropTrailingTokens, collapseBlanks, dropNoiseLines, trim]

theorem steps_within : ∀ step ∈ laterSteps, ∀ t, Within t (step t) := by
  simp only [laterSteps, List.forall_mem_cons, List.not_mem_nil, false_imp_iff, implies_true, and_true]
  exact ⟨fun t => within_of_sublist (dropFences_sublist t), fun t => within_of_sublist (dropTrailingTokens_sublist t),
    within_collapse, fun t => within_of_sublist (dropNoiseLines_sublist t),
    fun t => within_of_sublist (trim_isInfix t).sublist⟩

theorem run_within {fs : List (Text → Text)} (each : ∀ step ∈ fs, ∀ t, Within t (step t)) (t : Text) :
    Within t (fs.foldl (fun u step => step u) t) := by
  induction fs generalizing t with
  | nil => exact .refl t
  | cons f rest ih =>
    rw [List.foldl_cons]
    exact (each f List.mem_cons_self t).trans (ih (fun step member => each step (List.mem_cons_of_mem _ member)) (f t))

theorem pass_within (t : Text) : Within (repairAsides t) (pass t) := run_within steps_within (repairAsides t)

/-! ### Rounds and passes -/

/-- Each aside that is moved takes a pair of parentheses away. -/
theorem fewer_of_rewritten {n : Nat} {s t : Text} (rewritten : Rewritten n s t) (changed : t ≠ s) :
    t.count '(' < s.count '(' ∧ t.count ')' < s.count ')' := by
  have some : n ≠ 0 := by
    rintro rfl
    exact changed rewritten.eq_of_zero
  have opening := inkMoved_count rewritten.inkMoved (c := '(') (by decide) (by decide)
  have closing := inkMoved_count rewritten.inkMoved (c := ')') (by decide) (by decide)
  simp only [true_or, or_true, if_true] at opening closing
  omega

theorem asideRound_fewer {t : Text} (changed : asideRound t ≠ t) :
    (asideRound t).count '(' < t.count '(' ∧ (asideRound t).count ')' < t.count ')' := by
  obtain ⟨n, rewritten⟩ := asideRound_rewritten t
  exact fewer_of_rewritten rewritten changed

/-- A text has fewer opening parentheses than another, or as many and is shorter. -/
def Smaller (len : Text → Nat) (s t : Text) : Prop :=
  Prod.Lex (· < ·) (· < ·) (s.count '(', len s) (t.count '(', len t)

theorem pass_smaller {t : Text} (changed : pass t ≠ t) {len : Text → Nat} (member : len ∈ lengths) :
    Smaller len (pass t) t := by
  have within := pass_within t
  by_cases same : repairAsides t = t
  · rw [same] at within
    have shorter := within.shorter.resolve_left changed len member
    rcases Nat.lt_or_eq_of_le within.opening with fewer | equal
    · exact .left _ _ fewer
    · rw [Smaller, equal]
      exact .right _ shorter
  · obtain ⟨n, rewritten⟩ := repairAsides_rewritten t
    exact .left _ _ (Nat.lt_of_le_of_lt within.opening (fewer_of_rewritten rewritten same).1)

/-- Both loops stop on every text. A round that changes the text takes away an opening and a closing parenthesis at
    least, and may make the text longer all the same. The other steps of a pass add no parenthesis and make nothing
    longer, so that a pass that changes the text leaves fewer opening parentheses, or as many in a shorter text. -/
theorem loops_stop (t : Text) :
    (asideRound t ≠ t → (asideRound t).count '(' < t.count '(' ∧ (asideRound t).count ')' < t.count ')') ∧
      (pass t = laterSteps.foldl (fun u step => step u) (repairAsides t) ∧ ∀ step ∈ laterSteps, Within t (step t)) ∧
      (pass t ≠ t → ∀ len ∈ lengths, Smaller len (pass t) t) ∧
      Halts asideRound (t.count '(') t (repairAsides t) ∧
      Halts pass (weight (dropReturns t)) (dropReturns t) (repair t) ∧
      ∃ s, ∀ len ∈ lengths, len s < len (asideRound s) := by
  refine ⟨asideRound_fewer, ⟨rfl, fun step member => steps_within step member t⟩, fun changed _ => pass_smaller changed,
    settle_stops asideRound_shrinks _ t (Nat.lt_succ_self _), settle_stops pass_shrinks _ _ (Nat.lt_succ_self _), ?_⟩
  exact ⟨"A[b(c)d]".toList, by decide +kernel⟩

end Repair
end Flowchart
