import Mathlib.Data.Bool.AllAny
import Mathlib.Data.List.TakeWhile
import Mathlib.Tactic.Common
import Flowchart.Text.Basic

/-!
Punctuation: the characters with a meaning between ids. Neither they nor white characters belong to
an id (`isIdChar_punctuation`, `isIdChar_white`), so an id ends where one follows it (`takeWhile_id`),
and a text is cut behind a front in which the mark cannot start (`cut_append`).
-/
namespace Flowchart

/-- The characters that delimit labels, draw connectors, start comments and stand between them. -/
def punctuation : Text :=
  ['[', ']', '(', ')', '\x7b', '\x7d', '|', '"', '/', '\\', '-', '.', '=', '>', '%', ' ', '\n']

theorem isIdChar_punctuation {c : Char} (member : c ∈ punctuation) : isIdChar c = false := by
  have all : punctuation.all (!isIdChar ·) := by decide +kernel
  simpa using List.all_eq_true.1 all c member

/-- The code points of the white characters. -/
def whitePoints : List Nat :=
  List.range' 9 5 ++ [0x20, 0x85, 0xA0, 0x1680] ++ List.range' 0x2000 11 ++ [0x2028, 0x2029, 0x202F, 0x205F, 0x3000]

theorem mem_whitePoints {c : Char} (white : isWhite c) : c.toNat ∈ whitePoints := by
  simp only [isWhite, Bool.or_eq_true, Bool.and_eq_true, decide_eq_true_eq] at white
  simp only [whitePoints, List.mem_append, List.mem_range'_1, List.mem_cons, List.not_mem_nil, or_false]
  rcases white with (((((((((rfl | _) | _) | _) | _) | _) | _) | _) | _) | _) | _
  · exact .inl (.inl (.inr (.inl rfl)))
  all_goals omega

theorem isIdChar_white {c : Char} (white : isWhite c) : isIdChar c = false := by
  have all : whitePoints.all fun n => !isIdChar (Char.ofNat n) := by decide +kernel
  rw [← Char.ofNat_toNat c]
  simpa using List.all_eq_true.1 all _ (mem_whitePoints white)

theorem isWordChar_white {c : Char} (white : isWhite c) : isWordChar c = false := by
  have all : whitePoints.all fun n => !isWordChar (Char.ofNat n) := by decide +kernel
  rw [← Char.ofNat_toNat c]
  simpa using List.all_eq_true.1 all _ (mem_whitePoints white)

theorem idChar_ne {c d : Char} (idChar : isIdChar c) (member : d ∈ punctuation) : c ≠ d := by
  rintro rfl
  rw [isIdChar_punctuation member] at idChar
  cases idChar

theorem idChar_ink {c : Char} (idChar : isIdChar c) : ¬ isWhite c := by
  intro white
  rw [isIdChar_white white] at idChar
  cases idChar

theorem isBlank_of_ink {c : Char} (ink : ¬ isWhite c) : isBlank c = false :=
  Bool.eq_false_iff.2 fun blank => ink (isWhite_of_isBlank blank)

theorem idChar_not_blank {c : Char} (idChar : isIdChar c) : isBlank c = false := isBlank_of_ink (idChar_ink idChar)

namespace Text

/-- No id goes on into the text. -/
def Stops (t : Text) : Prop := ∀ c ∈ t.head?, isIdChar c = false

theorem stops_cons {c : Char} {t : Text} (member : c ∈ punctuation) : Stops (c :: t) := by
  intro d first
  obtain rfl : c = d := by simpa using first
  exact isIdChar_punctuation member

theorem takeWhile_id {id t : Text} (run : ∀ c ∈ id, isIdChar c) (stops : Stops t) :
    (id ++ t).takeWhile isIdChar = id := by
  rw [List.takeWhile_append_of_pos run]
  cases t with
  | nil => simp
  | cons c r => simp [stops c rfl]

theorem dropWhile_id {id t : Text} (run : ∀ c ∈ id, isIdChar c) (stops : Stops t) :
    (id ++ t).dropWhile isIdChar = t := by
  rw [List.dropWhile_append_of_pos run]
  cases t with
  | nil => rfl
  | cons c r => simp [stops c rfl]

/-! ### Searching -/

theorem after?_append (mark t : Text) : after? mark (mark ++ t) = some t := after?_eq_some.2 rfl

theorem after?_eq_none {m c : Char} {mark t : Text} (other : m ≠ c) : after? (m :: mark) (c :: t) = none := by
  simp [after?, other]

/-- A text is cut behind a front that the mark cannot start in. -/
theorem cut_append {m : Char} {mark front t : Text} (apart : m ∉ front) :
    cut (m :: mark) (front ++ m :: mark ++ t) = some (front, t) := by
  induction front with
  | nil =>
    have found := after?_append (m :: mark) t
    simp only [List.cons_append, List.nil_append] at found ⊢
    rw [cut, found]
  | cons c r ih =>
    have other : m ≠ c := fun same => apart (same ▸ List.mem_cons_self)
    have later := ih fun member => apart (List.mem_cons_of_mem _ member)
    simp only [List.cons_append, List.append_assoc] at later ⊢
    rw [cut, after?_eq_none other, later]
    rfl

theorem cut_char {m : Char} {front t : Text} (apart : m ∉ front) : cut [m] (front ++ m :: t) = some (front, t) := by
  have found : cut [m] (front ++ [m] ++ t) = some (front, t) := cut_append apart
  rwa [List.append_assoc] at found

/-- A mark is found as before in front of a text that holds none of its characters. -/
theorem after?_append_apart {mark s : Text} (apart : ∀ m ∈ mark, m ∉ s) (t : Text) :
    after? mark (t ++ s) = (after? mark t).map (· ++ s) := by
  fun_induction after? mark t with
  | case1 t => rfl
  | case2 mark c t ih =>
    rw [List.cons_append, after?, if_pos rfl]
    exact ih fun m member => apart m (List.mem_cons_of_mem _ member)
  | case3 m mark c t other => exact after?_eq_none other
  | case4 m mark =>
    cases s with
    | nil => rfl
    | cons d r => exact after?_eq_none fun same => apart m List.mem_cons_self (same ▸ List.mem_cons_self)

theorem cut_append_apart {mark s : Text} (filled : mark ≠ []) (apart : ∀ m ∈ mark, m ∉ s) (t : Text) :
    cut mark (t ++ s) = (cut mark t).map (Prod.map id (· ++ s)) := by
  obtain ⟨m, mark, rfl⟩ := List.exists_cons_of_ne_nil filled
  induction t with
  | nil =>
    rw [cut, if_neg filled, Option.map_none, Option.eq_none_iff_forall_not_mem]
    rintro ⟨before, after⟩ found
    apply apart m List.mem_cons_self
    rw [← List.nil_append s, cut_eq_some found]
    simp
  | cons c r ih =>
    have here := after?_append_apart apart (c :: r)
    rw [List.cons_append] at here ⊢
    rw [cut, cut, here, ih]
    cases after? (m :: mark) (c :: r) with
    | some after => rfl
    | none => cases cut (m :: mark) r <;> rfl

theorem after?_isSome_iff {mark t : Text} : (after? mark t).isSome ↔ mark <+: t := by
  rw [Option.isSome_iff_exists]
  exact exists_congr fun rest => after?_eq_some.trans eq_comm

/-- A text is cut where the mark is found in it. -/
theorem cut_isSome_iff {mark t : Text} : (cut mark t).isSome ↔ mark <:+: t := by
  induction t with
  | nil =>
    rw [cut, List.infix_nil]
    split <;> simp_all
  | cons c r ih =>
    rw [List.infix_cons_iff, ← after?_isSome_iff, ← ih, cut]
    cases after? mark (c :: r) <;> simp

theorem cut_eq_none {mark t : Text} (absent : ¬ mark <:+: t) : cut mark t = none := by
  rwa [← cut_isSome_iff, Option.not_isSome_iff_eq_none] at absent

/-- A text is cut at the first of the marks in it. -/
theorem cut_of_first {mark front : Text} (first : ¬ mark <:+: front ++ mark.dropLast) (t : Text) :
    cut mark (front ++ mark ++ t) = some (front, t) := by
  have filled : mark ≠ [] := by
    rintro rfl
    exact first List.nil_infix
  induction front with
  | nil =>
    obtain ⟨m, r, rfl⟩ := List.exists_cons_of_ne_nil filled
    have here := after?_append (m :: r) t
    rw [List.cons_append] at here
    rw [List.nil_append, List.cons_append, cut, here]
  | cons c front ih =>
    -- A mark at the start would end before the one that is put behind the front does.
    have other : after? mark (c :: front ++ mark ++ t) = none := by
      rw [← Option.not_isSome_iff_eq_none, after?_isSome_iff]
      intro initial
      have whole : c :: front ++ mark.dropLast <+: c :: front ++ mark ++ t := by
        rw [List.append_assoc]
        exact (List.prefix_append_right_inj _).2 (mark.dropLast_prefix.trans (List.prefix_append mark t))
      apply first
      refine (List.prefix_of_prefix_length_le initial whole ?_).isInfix
      simp only [List.length_append, List.length_cons, List.length_dropLast]
      omega
    have later := ih fun found => first (found.trans (List.suffix_cons c _).isInfix)
    rw [List.cons_append, List.cons_append] at other ⊢
    rw [cut, other, later]
    rfl

theorem cutLast_eq_none {mark t : Text} (absent : ¬ mark <:+: t) : cutLast mark t = none := by
  rw [Option.eq_none_iff_forall_not_mem]
  rintro ⟨before, after⟩ found
  exact absent ⟨before, after, (cutLast_eq_some found).symm⟩

/-- A text is cut at the last of the marks in it. -/
theorem cutLast_of_last {mark t : Text} (last : ¬ mark <:+: mark.tail ++ t) (front : Text) :
    cutLast mark (front ++ mark ++ t) = some (front, t) := by
  induction front with
  | nil =>
    cases mark with
    | nil => exact absurd List.nil_infix last
    | cons m r =>
      have here := after?_append (m :: r) t
      have none : cutLast (m :: r) (r ++ t) = none := cutLast_eq_none last
      rw [List.cons_append] at here
      rw [List.nil_append, List.cons_append, cutLast, none, here]
      rfl
  | cons c front ih => rw [List.cons_append, List.cons_append, cutLast, ih]

/-- A text without the character between two others lies in one of them. -/
theorem infix_append_cons {mark s t : Text} {c : Char} (apart : c ∉ mark) :
    mark <:+: s ++ c :: t ↔ mark <:+: s ∨ mark <:+: t := by
  have start : ∀ part ⊆ mark, part <+: c :: t → part = [] := by
    intro part inside initial
    cases part with
    | nil => rfl
    | cons d r => exact absurd (inside List.mem_cons_self) ((List.cons_prefix_cons.1 initial).1 ▸ apart)
  constructor
  · intro found
    rcases List.infix_append_iff.1 found with front | behind | ⟨first, second, rfl, final, initial⟩
    · exact .inl front
    · rcases List.infix_cons_iff.1 behind with initial | later
      · rw [start mark (List.Subset.refl _) initial]
        exact .inl List.nil_infix
      · exact .inr later
    · rw [start second (List.subset_append_right _ _) initial, List.append_nil]
      exact .inl final.isInfix
  · rintro (front | behind)
    · exact front.trans (List.prefix_append s _).isInfix
    · exact behind.trans ((List.suffix_cons c t).trans (List.suffix_append s _)).isInfix

section
variable {mark w : Text} (filled : mark ≠ []) (apart : ∀ c ∈ w, c ∉ mark)
include filled apart

theorem infix_behind (t : Text) : mark <:+: w ++ t ↔ mark <:+: t := by
  induction w with
  | nil => rfl
  | cons c w ih =>
    have split := infix_append_cons (s := []) (t := w ++ t) (apart c List.mem_cons_self)
    rw [List.nil_append, List.infix_nil, or_iff_right filled] at split
    rw [List.cons_append, split, ih fun d member => apart d (List.mem_cons_of_mem _ member)]

theorem infix_front (t : Text) : mark <:+: t ++ w ↔ mark <:+: t := by
  obtain ⟨m, r, rfl⟩ := List.exists_cons_of_ne_nil filled
  cases w with
  | nil => rw [List.append_nil]
  | cons c w =>
    have outside : ¬ m :: r <:+: w := fun found =>
      apart m (List.mem_cons_of_mem _ (found.subset List.mem_cons_self)) List.mem_cons_self
    rw [infix_append_cons (apart c List.mem_cons_self), or_iff_left outside]

end

theorem cutLast_char_eq_none {m : Char} {t : Text} : cutLast [m] t = none ↔ m ∉ t := by
  induction t with
  | nil => simp [cutLast]
  | cons c r ih =>
    rw [cutLast]
    cases found : cutLast [m] r with
    | some parts =>
      rw [found] at ih
      have inside : m ∈ r := by simpa using ih
      simp [inside]
    | none =>
      have outside : m ∉ r := ih.1 found
      by_cases same : m = c
      · simp [after?, same]
      · simp [after?, same, outside]

/-- A text is cut in front of an end that the mark is not in. -/
theorem cutLast_char {m : Char} {t : Text} (apart : m ∉ t) (front : Text) :
    cutLast [m] (front ++ m :: t) = some (front, t) := by
  have last : ¬ [m] <:+: [m].tail ++ t := fun found => apart (found.subset List.mem_cons_self)
  have found := cutLast_of_last last front
  rwa [List.append_assoc] at found

theorem between?_eq_some {opening closing t inner : Text} :
    between? opening closing t = some inner ↔ t = opening ++ inner ++ closing := by
  rw [between?, Option.bind_eq_some_iff]
  simp only [after?_eq_some, before?_eq_some, exists_eq_right, List.append_assoc]

theorem between?_append (opening closing inner : Text) :
    between? opening closing (opening ++ inner ++ closing) = some inner := between?_eq_some.2 rfl

end Text
end Flowchart
