import Mathlib.Data.List.Infix
import Flowchart.Load
import Flowchart.Proofs.Graph.Records
import Flowchart.Proofs.Repair.NormalForm
import Flowchart.Proofs.Repair.Settled

/-!
Why a raw text gives no diagram. Repair leaves nothing of a text just when no character of it is part of an id, a
bracket or an arrow (`repair_eq_nil`): no step takes the last such character away, and one pass deletes everything
where there is none. Since the repaired text is tested as well as the raw one, a text is called blank when nothing
is left of it, and not only when it is white; when something is left, loading fails just when no line of it states
anything (`load_eq_error`).
-/
namespace Flowchart
open Text

namespace Repair
variable {c : Char} {t : Text}

/-! ### Telling characters -/

/-- The character is part of an id, a bracket or an arrow. -/
def isTelling (c : Char) : Bool := isIdChar c || isStructural c

theorem isTelling_ink (telling : isTelling c) : ¬ isWhite c := by
  intro white
  rcases Bool.or_eq_true_iff.1 telling with idChar | structural
  · rw [isIdChar_white white] at idChar
    cases idChar
  · have apart : ['[', ']', '{', '}', '|', '-', '>', '<'].all fun d => !isWhite d := by decide
    have ink := List.all_eq_true.1 apart c (by simpa [isStructural] using structural)
    rw [white] at ink
    cases ink

theorem isTelling_not_blank (telling : isTelling c) : isBlank c = false := isBlank_of_ink (isTelling_ink telling)

theorem mem_trim (ink : ¬ isWhite c) : c ∈ t.trim ↔ c ∈ t := by
  rw [← List.count_pos_iff, count_trim ink, List.count_pos_iff]

theorem mem_trimEnd (ink : ¬ isWhite c) : c ∈ t.trimEnd ↔ c ∈ t := by
  rw [← List.count_pos_iff, count_trimEnd ink, List.count_pos_iff]

theorem mem_trimStart (ink : ¬ isWhite c) : c ∈ t.trimStart ↔ c ∈ t := by
  rw [← List.count_pos_iff, count_trimStart ink, List.count_pos_iff]

/-- A text holds something if any of its characters is telling. -/
theorem isMeaningful_iff : isMeaningful t ↔ ∃ c ∈ t, isTelling c := by
  show (t.trim.any isTelling : Prop) ↔ _
  rw [List.any_eq_true]
  constructor
  · rintro ⟨c, member, telling⟩
    exact ⟨c, (trim_isInfix t).subset member, telling⟩
  · rintro ⟨c, member, telling⟩
    exact ⟨c, (mem_trim (isTelling_ink telling)).2 member, telling⟩

theorem isMeaningful_of_mem {s t : Text} (kept : ∀ c ∈ s, isTelling c → c ∈ t) (held : isMeaningful s) :
    isMeaningful t := by
  obtain ⟨c, member, telling⟩ := isMeaningful_iff.1 held
  exact isMeaningful_iff.2 ⟨c, kept c member telling, telling⟩

theorem isMeaningful_append {s t : Text} : isMeaningful (s ++ t) ↔ isMeaningful s ∨ isMeaningful t := by
  simp [isMeaningful_iff, or_and_right, exists_or]

/-! ### No step takes the last telling character away -/

theorem mem_dropReturns (apart : c ≠ '\r') : c ∈ dropReturns t ↔ c ∈ t := by
  fun_induction dropReturns t with
  | case1 r ih => simp [apart, ih]
  | case2 d r _ ih => simp [ih]
  | case3 => rfl

theorem mem_dropFences (apart : c ≠ '\x60') : c ∈ dropFences t ↔ c ∈ t := by
  fun_induction dropFences t with
  | case1 r ih => simp [apart, ih]
  | case2 d r _ ih => simp [ih]
  | case3 => rfl

/-- Of an aside that is moved, only white space and its parentheses are lost. -/
theorem mem_moved (ink : ¬ isWhite c) {a : Aside} (member : c ∈ a.before ∨ c ∈ a.inside ∨ c ∈ a.after) :
    c ∈ a.moved := by
  have head : c ∈ a.before ∨ c ∈ a.after → c ∈ joinWords a.before a.after := by
    intro outside
    unfold joinWords
    split
    · exact List.mem_append.2 outside
    · exact List.mem_append.2 (outside.imp_right (List.mem_cons_of_mem _))
  unfold Aside.moved
  simp only
  split
  · next empty =>
    have white : White (joinWords a.before a.after) := white_of_trim_eq_nil (List.isEmpty_iff.1 empty)
    rcases member with before | inside | after
    · exact absurd (white c (head (.inl before))) ink
    · exact inside
    · exact absurd (white c (head (.inr after))) ink
  · split
    · next empty =>
      rw [List.isEmpty_iff.1 empty] at member
      exact head (by simpa using member)
    · rcases member with before | inside | after
      · exact List.mem_append_left _ (List.mem_append_left _ (head (.inl before)))
      · exact List.mem_append_right _ inside
      · exact List.mem_append_left _ (List.mem_append_left _ (head (.inr after)))

theorem moveAside_meaningful {label moved : Text} (done : moveAside label = some moved) (held : isMeaningful label) :
    isMeaningful moved := by
  obtain ⟨before, inside, after, rfl, rfl⟩ := moveAside_eq_some done
  obtain ⟨c, member, telling⟩ := isMeaningful_iff.1 held
  have ink := isTelling_ink telling
  have opening : c ≠ '(' := by
    rintro rfl
    exact absurd telling (by decide +kernel)
  have closing : c ≠ ')' := by
    rintro rfl
    exact absurd telling (by decide +kernel)
  refine isMeaningful_iff.2 ⟨c, mem_moved ink ?_, telling⟩
  simpa [mem_trimEnd ink, mem_trim ink, mem_trimStart ink, opening, closing, or_assoc] using member

theorem meaningful_piecewise : Piecewise fun s t => isMeaningful s → isMeaningful t := by
  refine ⟨fun _ => id, ?_⟩
  intro s t s' t' first second
  rw [isMeaningful_append, isMeaningful_append]
  exact Or.imp first second

theorem repairAsides_meaningful (held : isMeaningful t) : isMeaningful (repairAsides t) :=
  repairAsides_lift (R := fun s t => isMeaningful s → isMeaningful t) meaningful_piecewise
    (fun first second => second ∘ first)
    (meaningful_piecewise.labels (repairBody_lift meaningful_piecewise moveAside_meaningful)) t held

/-- When a token is dropped, the bracket in front of it stays. -/
theorem dropTrailingTokens_meaningful (held : isMeaningful t) : isMeaningful (dropTrailingTokens t) := by
  fun_induction dropTrailingTokens t with
  | case1 => exact held
  | case2 c r rest found ih => exact isMeaningful_iff.2 ⟨']', List.mem_cons_self, by decide +kernel⟩
  | case3 c r _ ih => exact meaningful_piecewise.cons c ih held

theorem dropNoiseLines_meaningful (held : isMeaningful t) : isMeaningful (dropNoiseLines t) := by
  obtain ⟨c, member, telling⟩ := isMeaningful_iff.1 held
  have ink := isTelling_ink telling
  have single : '\n' ∉ [c] := by
    rw [List.mem_singleton]
    rintro rfl
    exact ink (by decide)
  -- The character stands in a line, and that line is kept.
  obtain ⟨row, inside, part⟩ := (infix_rows single t).1 ((List.singleton_infix_iff c t).2 member)
  obtain ⟨line, there, found⟩ : ∃ line ∈ t.lines, c ∈ line := by
    have here := (List.singleton_infix_iff c row).1 part
    rcases mem_linesOfRows inside with rfl | whole | short
    · cases here
    · exact ⟨row, whole, here⟩
    · refine ⟨_, short, ?_⟩
      rwa [← mem_trim ink, trim_dropReturn, mem_trim ink]
  have stays : c ∈ line.trimEnd := (mem_trimEnd ink).2 found
  have kept : line.trimEnd ∈ (t.lines.map trimEnd).filter isMeaningful :=
    List.mem_filter.2 ⟨List.mem_map_of_mem there, isMeaningful_iff.2 ⟨c, stays, telling⟩⟩
  have joined := (infix_joinRows single (List.ne_nil_of_mem kept)).2 ⟨_, kept, (List.singleton_infix_iff c _).2 stays⟩
  exact isMeaningful_iff.2 ⟨c, (List.singleton_infix_iff c _).1 joined, telling⟩

theorem isTelling_ne {d : Char} (silent : isTelling d = false) (telling : isTelling c) : c ≠ d := by
  rintro rfl
  rw [silent] at telling
  cases telling

theorem collapsed_meaningful (held : isMeaningful t) :
    isMeaningful (collapseBlanks (dropTrailingTokens (dropFences (repairAsides t)))) := by
  have fences : isMeaningful (dropFences (repairAsides t)) :=
    isMeaningful_of_mem (fun _ member telling => (mem_dropFences (isTelling_ne (by decide +kernel) telling)).2 member)
      (repairAsides_meaningful held)
  exact isMeaningful_of_mem (fun _ member telling => (mem_collapse_iff (isTelling_not_blank telling)).2 member)
    (dropTrailingTokens_meaningful fences)

theorem pass_meaningful (held : isMeaningful t) : isMeaningful (pass t) :=
  isMeaningful_of_mem (fun _ member telling => (mem_trim (isTelling_ink telling)).2 member)
    (dropNoiseLines_meaningful (collapsed_meaningful held))

/-! ### Texts that hold nothing -/

/-- Without a telling character there are no labels to repair, and no line is kept. -/
theorem pass_of_not_meaningful (nothing : ¬ isMeaningful t) : pass t = [] := by
  have asides : repairAsides t = t := by
    refine repairAsides_eq_self.2 fun row inside => ?_
    have outer : Outer row := by
      intro c bracket member
      have marks : ['[', ']', '|'].all isTelling := by decide +kernel
      have telling := List.all_eq_true.1 marks c bracket
      exact nothing (isMeaningful_iff.2 ⟨c, (mem_of_mem_rows inside member).1, telling⟩)
    exact (settled_behind (t := []) outer).2 ((settled_of_no_label rfl).2 (repairLabels_of_no_bracket List.not_mem_nil))
  have silent : ∀ c ∈ collapseBlanks (dropTrailingTokens (dropFences t)), ¬ isTelling c := by
    intro c member telling
    have deleted := (mem_collapse_iff (isTelling_not_blank telling)).1 member
    have there := ((dropTrailingTokens_sublist _).trans (dropFences_sublist t)).subset deleted
    exact nothing (isMeaningful_iff.2 ⟨c, there, telling⟩)
  have none : ∀ line ∈ (collapseBlanks (dropTrailingTokens (dropFences t))).lines.map trimEnd, ¬ isMeaningful line := by
    intro line member held
    obtain ⟨whole, inside, rfl⟩ := List.mem_map.1 member
    obtain ⟨c, found, telling⟩ := isMeaningful_iff.1 held
    exact silent c (mem_of_mem_lines inside ((trimEnd_isPrefix whole).subset found)) telling
  rw [pass, asides, dropNoiseLines, List.filter_eq_nil_iff.2 none]
  rfl

theorem repair_meaningful (held : isMeaningful t) : isMeaningful (repair t) := by
  have start : isMeaningful (dropReturns t) :=
    isMeaningful_of_mem
      (fun _ member telling => (mem_dropReturns (isTelling_ne (by decide +kernel) telling)).2 member) held
  exact settle_keeps (P := fun u => isMeaningful u) (fun _ => pass_meaningful) _ _ start

theorem repair_of_not_meaningful (nothing : ¬ isMeaningful t) : repair t = [] := by
  have start : ¬ isMeaningful (dropReturns t) := fun held =>
    nothing (isMeaningful_of_mem (fun _ member telling =>
      (mem_dropReturns (isTelling_ne (by decide +kernel) telling)).1 member) held)
  have left : ¬ isMeaningful (repair t) := by
    refine settle_keeps (P := fun u => ¬ isMeaningful u) (fun u none => ?_) _ _ start
    rw [pass_of_not_meaningful none]
    decide
  exact (pass_repair t).symm.trans (pass_of_not_meaningful left)

/-- Nothing is left of a text just when none of its characters is telling. -/
theorem repair_eq_nil : repair t = [] ↔ ¬ isMeaningful t :=
  ⟨fun empty held => ne_nil_of_meaningful (repair_meaningful held) empty, repair_of_not_meaningful⟩

end Repair

open Flowchart.Repair Flowchart.Graph

theorem not_isMeaningful_of_isWhiteOnly {t : Text} (white : t.isWhiteOnly) : ¬ isMeaningful t := by
  intro held
  obtain ⟨c, member, telling⟩ := isMeaningful_iff.1 held
  exact isTelling_ink telling (List.all_eq_true.1 white c member)

theorem error_eq_iff {α : Type} {cause : ParseError} {raw : Text} {e : LoadError} :
    (Except.error ⟨cause, raw⟩ : Except LoadError (Diagram α)) = .error e ↔ e.raw = raw ∧ e.cause = cause := by
  cases e
  simp [and_comm, eq_comm]

/-- Loading fails in two ways, and the error keeps the raw text. The text is called blank just when no character of
    it is part of an id, a bracket or an arrow, as in white text; of any other text something is left by repair, and
    it has no nodes just when no line of what is left states anything. -/
theorem load_eq_error {α : Type} [Scalar α] (c : Config α) (raw : Text) :
    (raw.isWhiteOnly → ¬ isMeaningful raw) ∧ ∀ e, load c raw = .error e ↔
      e.raw = raw ∧ (e.cause = .blank ∧ ¬ isMeaningful raw ∨
        e.cause = .noNodes ∧ isMeaningful raw ∧ ∀ s ∈ statements (repair raw), ¬ s.isStated) := by
  refine ⟨not_isMeaningful_of_isWhiteOnly, fun e => ?_⟩
  by_cases held : isMeaningful raw
  · have ink : ¬ raw.isWhiteOnly := fun white => not_isMeaningful_of_isWhiteOnly white held
    have left : ¬ (repair raw).isWhiteOnly := fun white =>
      not_isMeaningful_of_isWhiteOnly white (repair_meaningful held)
    rw [load, if_neg ink, parse_of_filled left, ← ofStatements_nodes_eq_nil]
    by_cases none : (ofStatements (statements (repair raw))).nodes = []
    · rw [checked_eq_error.2 none, error_eq_iff]
      simp [held, none]
    · simp [checked, held, none]
  · have blank : load c raw = .error ⟨.blank, raw⟩ := by
      rw [load]
      split
      · rfl
      · rw [repair_of_not_meaningful held]
        rfl
    rw [blank, error_eq_iff]
    simp [held]

/-- A fence and nothing else is not white, and no line of it states anything, but no
    character of it is telling either. -/
theorem fence_blank :
    ¬ fence.isWhiteOnly ∧ (∀ s ∈ statements (repair fence), ¬ s.isStated) ∧
      load (Config.standard : Config Float) fence = .error ⟨.blank, fence⟩ ∧
      ¬ ∀ raw, load (Config.standard : Config Float) raw = .error ⟨.blank, raw⟩ ↔ raw.isWhiteOnly := by
  have empty : repair fence = [] := by decide +kernel
  have filled : ¬ fence.isWhiteOnly := by decide +kernel
  have blank : load (Config.standard : Config Float) fence = .error ⟨.blank, fence⟩ := by
    rw [load, if_neg filled, empty]
    rfl
  refine ⟨filled, ?_, blank, fun claimed => filled ((claimed fence).1 blank)⟩
  rw [empty]
  decide

end Flowchart
