import Mathlib.Tactic.Common
import Flowchart.Line.Statement

/-!
The ids that a line names. Every id that a scanner takes is a longest run of id characters, so
every declaration and both ends of a link have ids that a graph may use (`parse_named`). A link and
a statement are taken apart here once (`takeLink_eq_some`, `parse_eq_content`).
-/
namespace Flowchart

theorem isId_cons {id : Text} (valid : isId id) : ∃ c r, id = c :: r ∧ isIdChar c ∧ ∀ d ∈ r, isIdChar d := by
  cases id with
  | nil => simp [isId] at valid
  | cons c r =>
    simp only [isId, List.isEmpty_cons, Bool.not_false, List.all_cons, Bool.true_and, Bool.and_eq_true,
      List.all_eq_true] at valid
    exact ⟨c, r, rfl, valid.1, valid.2⟩

theorem isId_run {id : Text} (valid : isId id) : ∀ c ∈ id, isIdChar c := by
  simp only [isId, Bool.and_eq_true, List.all_eq_true] at valid
  exact valid.2

theorem tick_not_mem_id {id : Text} (valid : isId id) : '\x60' ∉ id := by
  intro member
  have tick : isIdChar '\x60' = false := by decide +kernel
  rw [isId_run valid _ member] at tick
  cases tick

namespace Line

/-- All ids that a statement names are node ids. -/
def Statement.Named : Statement → Prop
  | .content declarations link =>
    (∀ n ∈ declarations, isId n.id) ∧ ∀ l ∈ link, isId l.source ∧ isId l.target
  | _ => True

theorem takeId_eq_some {t id : Text} (taken : (takeId t).1 = some id) :
    isId id ∧ id = t.takeWhile isIdChar ∧ (takeId t).2 = t.dropWhile isIdChar := by
  unfold takeId at taken ⊢
  split at taken
  · cases taken
  · next filled =>
    obtain rfl := Option.some.inj taken
    rw [if_neg filled]
    exact ⟨by simpa [isId] using filled, rfl, rfl⟩

theorem takeEndpoint_isId {t id : Text} (taken : (takeEndpoint t).1 = some id) : isId id := by
  unfold takeEndpoint at taken
  split at taken
  · next found =>
    obtain rfl := Option.some.inj taken
    exact (takeId_eq_some (t := passBlanks t) (by rw [found])).1
  · cases taken

/-- A link is two ends with a connector between them. -/
theorem takeLink_eq_some {t rest : Text} {l : Link} (taken : takeLink t = (some l, rest)) :
    ∃ behindSource behindConnector, takeEndpoint t = (some l.source, behindSource) ∧
      takeConnector behindSource = (some (l.arrow, l.label), behindConnector) ∧
      takeEndpoint behindConnector = (some l.target, rest) := by
  unfold takeLink at taken
  split at taken
  · next source =>
    split at taken
    · next connector =>
      split at taken
      · next target =>
        obtain ⟨rfl, rfl⟩ : _ = l ∧ _ = rest := by simpa using taken
        exact ⟨_, _, source, connector, target⟩
      · cases taken
    · cases taken
  · cases taken

theorem takeLink_isId {t : Text} {l : Link} (taken : (takeLink t).1 = some l) :
    isId l.source ∧ isId l.target := by
  obtain ⟨_, _, source, -, target⟩ := takeLink_eq_some (Prod.ext taken rfl)
  exact ⟨takeEndpoint_isId (by rw [source]), takeEndpoint_isId (by rw [target])⟩

theorem declarations_isId (t : Text) : ∀ n ∈ declarations t, isId n.id := by
  fun_induction declarations t with
  | case1 => simp
  | case2 _ _ _ ih => exact ih
  | case3 _ _ _ _ _ _ ih => exact ih
  | case4 c r _ _ idChar found declared ih =>
    intro n member
    rcases List.mem_append.1 member with here | later
    · have : isId (c :: r.takeWhile isIdChar) := by simp [isId, idChar, List.all_takeWhile]
      simp only [declared, Option.mem_toList, Option.map_eq_some_iff] at here
      obtain ⟨_, _, rfl⟩ := here
      exact this
    · exact ih n later
  | case5 _ _ _ _ _ ih => exact ih

/-- What a line states are its declarations and its link, and it has some. -/
theorem parse_eq_content {line : Text} {found : List Node} {link : Option Link}
    (stated : parse line = .content found link) :
    found = declarations line.trim ∧ link = link? line.trim ∧ (found ≠ [] ∨ link.isSome) := by
  unfold parse statementOf at stated
  split at stated
  · cases stated
  · split at stated
    · cases stated
    · next filled =>
      obtain ⟨rfl, rfl⟩ := Statement.content.inj stated
      exact ⟨rfl, rfl, by simpa [Option.isSome_iff_ne_none, imp_iff_not_or] using filled⟩

theorem startsDirective_of_content {line : Text} {found : List Node} {link : Option Link}
    (stated : parse line = .content found link) : startsDirective line.trim = false := by
  unfold parse statementOf at stated
  split at stated
  · cases stated
  · next skipped =>
    simp only [Bool.or_eq_true, not_or] at skipped
    exact Bool.eq_false_iff.2 skipped.2

/-- A line names nothing but node ids. -/
theorem parse_named (line : Text) : (parse line).Named := by
  cases stated : parse line with
  | skip => trivial
  | unparseable => trivial
  | content found link =>
    obtain ⟨rfl, rfl, -⟩ := parse_eq_content stated
    exact ⟨declarations_isId _, fun l member => takeLink_isId member⟩

end Line
end Flowchart
