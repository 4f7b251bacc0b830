import Mathlib.Data.List.DropRight
import Mathlib.Tactic.Common
import Flowchart.Text.Basic

/-!
Trimming. A trimmed text has no white space at its ends, which is what it takes to be left alone
by another trim (`trim_eq_self`); what trimming takes away is white space.
-/
namespace Flowchart.Text

/-! ### The end of a text -/

theorem trimEnd_eq_rdropWhile (t : Text) : t.trimEnd = t.rdropWhile isWhite := rfl

theorem trimEnd_isPrefix (t : Text) : t.trimEnd <+: t := List.rdropWhile_prefix isWhite t

theorem trimStart_suffix (t : Text) : t.trimStart <:+ t := List.dropWhile_suffix _

theorem trim_isInfix (t : Text) : t.trim <:+: t :=
  (trimEnd_isPrefix _).isInfix.trans (trimStart_suffix t).isInfix

/-- The last character is not white. -/
def EndsInk (t : Text) : Prop := ∀ c ∈ t.getLast?, ¬ isWhite c

/-- The first character is not white. -/
def StartsInk (t : Text) : Prop := ∀ c ∈ t.head?, ¬ isWhite c

theorem trimEnd_endsInk (t : Text) : EndsInk t.trimEnd := by
  intro c last
  rw [trimEnd_eq_rdropWhile] at last
  have filled : t.rdropWhile isWhite ≠ [] := by
    intro empty
    simp [empty] at last
  rw [List.getLast?_eq_getLast_of_ne_nil filled, Option.mem_def, Option.some.injEq] at last
  rw [← last]
  exact List.rdropWhile_last_not _ _ filled

theorem trimEnd_eq_self {t : Text} (ends : EndsInk t) : t.trimEnd = t := by
  rw [trimEnd_eq_rdropWhile, List.rdropWhile_eq_self_iff]
  intro filled
  exact ends _ (List.getLast?_eq_getLast_of_ne_nil filled)

/-! ### Both ends -/

theorem trimStart_startsInk (t : Text) : StartsInk t.trimStart := by
  intro c first
  have := List.head?_dropWhile_not isWhite t
  unfold trimStart at first
  rw [Option.mem_def.1 first] at this
  simpa using this

theorem trimStart_eq_self {t : Text} (starts : StartsInk t) : t.trimStart = t := by
  cases t with
  | nil => rfl
  | cons c r =>
    have : isWhite c = false := by simpa using starts c rfl
    simp [trimStart, this]

theorem startsInk_cons {c : Char} (ink : ¬ isWhite c) (t : Text) : StartsInk (c :: t) := by
  intro d first
  obtain rfl : c = d := by simpa using first
  exact ink

theorem startsInk_of_prefix {s t : Text} (initial : s <+: t) (starts : StartsInk t) : StartsInk s := by
  intro c first
  obtain ⟨rest, rfl⟩ := initial
  cases s with
  | nil => cases first
  | cons d r => exact starts c first

theorem startsInk_append {s t : Text} (filled : s ≠ []) (starts : StartsInk s) : StartsInk (s ++ t) := by
  intro c first
  rw [List.head?_append_of_ne_nil s filled] at first
  exact starts c first

theorem endsInk_append {s t : Text} (filled : t ≠ []) (ends : EndsInk t) : EndsInk (s ++ t) := by
  intro c last
  rw [List.getLast?_append_of_ne_nil s filled] at last
  exact ends c last

theorem endsInk_of_closing {t : Text} (closing : ∃ m ∈ t.getLast?, m ∈ [')', ']', '\x7d']) : EndsInk t := by
  obtain ⟨m, last, member⟩ := closing
  intro c here
  obtain rfl := Option.some.inj (last.symm.trans here)
  simp only [List.mem_cons, List.not_mem_nil, or_false] at member
  rcases member with rfl | rfl | rfl <;> decide

theorem trim_startsInk (t : Text) : StartsInk t.trim :=
  startsInk_of_prefix (trimEnd_isPrefix _) (trimStart_startsInk t)

theorem trim_endsInk (t : Text) : EndsInk t.trim := trimEnd_endsInk _

/-- Without white space at its ends a text is left alone. -/
theorem trim_eq_self {t : Text} (starts : StartsInk t) (ends : EndsInk t) : t.trim = t := by
  rw [trim, trimStart_eq_self starts, trimEnd_eq_self ends]

/-! ### White texts -/

/-- All characters are white. -/
def White (t : Text) : Prop := ∀ c ∈ t, isWhite c

theorem trimStart_append_white {w t : Text} (white : White w) : trimStart (w ++ t) = trimStart t :=
  List.dropWhile_append_of_pos white

theorem trimEnd_append_white {w t : Text} (white : White w) : trimEnd (t ++ w) = trimEnd t := by
  simp only [trimEnd, dropEndWhile, List.reverse_append]
  rw [List.dropWhile_append_of_pos]
  simpa [White] using white

theorem trimEnd_append (t : Text) : ∃ w, White w ∧ t = t.trimEnd ++ w :=
  ⟨t.rtakeWhile isWhite, fun _ => List.mem_rtakeWhile_imp, List.rdropWhile_append_rtakeWhile.symm⟩

/-- Behind ink only what follows is trimmed. -/
theorem trimEnd_append_of_ink {s : Text} (ends : EndsInk s) (t : Text) : trimEnd (s ++ t) = s ++ trimEnd t := by
  obtain ⟨w, white, split⟩ := trimEnd_append t
  have ends' : EndsInk (s ++ trimEnd t) := by
    by_cases empty : trimEnd t = []
    · rwa [empty, List.append_nil]
    · exact endsInk_append empty (trimEnd_endsInk t)
  conv => lhs; rw [split]
  rw [← List.append_assoc, trimEnd_append_white white, trimEnd_eq_self ends']

theorem append_trimStart (t : Text) : ∃ w, White w ∧ t = w ++ t.trimStart :=
  ⟨t.takeWhile isWhite, fun _ => List.mem_takeWhile_imp, List.takeWhile_append_dropWhile.symm⟩

theorem white_of_trim_eq_nil {t : Text} (empty : t.trim = []) : White t := by
  have start : White t.trimStart := List.rdropWhile_eq_nil_iff.1 empty
  intro c member
  rw [← List.takeWhile_append_dropWhile (p := isWhite) (l := t)] at member
  rcases List.mem_append.1 member with front | rest
  · exact List.mem_takeWhile_imp front
  · exact start c rest

theorem trim_white_append {w t : Text} (white : White w) : trim (w ++ t) = trim t := by
  rw [trim, trimStart_append_white white, trim]

theorem trim_append_white {w t : Text} (white : White w) : trim (t ++ w) = trim t := by
  by_cases empty : trimStart t = []
  · have front : White t := List.dropWhile_eq_nil_iff.1 empty
    have both : trimStart (t ++ w) = [] := by rw [trimStart_append_white front]; exact List.dropWhile_eq_nil_iff.2 white
    rw [trim, both, trim, empty]
  · have stays : trimStart (t ++ w) = trimStart t ++ w := by
      unfold trimStart
      rw [List.dropWhile_append, if_neg (by simpa [trimStart] using empty)]
    rw [trim, stays, trimEnd_append_white white, trim]

theorem count_white {c : Char} {w : Text} (ink : ¬ isWhite c) (white : White w) : w.count c = 0 :=
  List.count_eq_zero.2 fun member => ink (white c member)

theorem count_trimEnd {c : Char} (ink : ¬ isWhite c) (t : Text) : t.trimEnd.count c = t.count c := by
  obtain ⟨w, white, split⟩ := trimEnd_append t
  conv => rhs; rw [split]
  rw [List.count_append, count_white ink white, Nat.add_zero]

theorem count_trimStart {c : Char} (ink : ¬ isWhite c) (t : Text) : t.trimStart.count c = t.count c := by
  obtain ⟨w, white, split⟩ := append_trimStart t
  conv => rhs; rw [split]
  rw [List.count_append, count_white ink white, Nat.zero_add]

theorem count_trim {c : Char} (ink : ¬ isWhite c) (t : Text) : t.trim.count c = t.count c := by
  rw [trim, count_trimEnd ink, count_trimStart ink]

end Flowchart.Text
