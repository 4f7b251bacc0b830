import Mathlib.Algebra.Order.Group.Multiset
import Mathlib.Tactic.Abel
import Flowchart.Proofs.Repair.Asides

/-!
What moving asides keeps. The ink of a text is its characters that are not white, however often each stands there.
Moving an aside takes one pair of parentheses out of the ink and brings a dash at most (`moveAside_inkMoved`). Only
bodies of labels are rewritten, and all else stays where it is (`Rewritten`); since a body holds no square bracket,
what one round rewrites are the same bodies that the next one does, and so rounds add up (`Rewritten.trans`) and
nothing is lost in any number of them (`repairAsides_keeps_ink`).
-/
namespace Flowchart.Repair
open Text Multiset

/-! ### Ink -/

/-- The characters that are not white. -/
def inkOf (t : Text) : Multiset Char := (t.filter (!isWhite ·) : List Char)

@[simp] theorem inkOf_nil : inkOf [] = 0 := rfl

@[simp] theorem inkOf_append (s t : Text) : inkOf (s ++ t) = inkOf s + inkOf t := by
  rw [inkOf, List.filter_append, ← coe_add]
  rfl

theorem inkOf_cons {c : Char} (dark : ¬ isWhite c) (t : Text) : inkOf (c :: t) = {c} + inkOf t := by
  simp [inkOf, dark]

theorem inkOf_white {w : Text} (white : White w) : inkOf w = 0 := by
  rw [inkOf, List.filter_eq_nil_iff.2 fun c member => by simp [white c member], coe_nil]

@[simp] theorem inkOf_trimEnd (t : Text) : inkOf t.trimEnd = inkOf t := by
  obtain ⟨w, white, split⟩ := trimEnd_append t
  conv => rhs; rw [split, inkOf_append, inkOf_white white, add_zero]

@[simp] theorem inkOf_trimStart (t : Text) : inkOf t.trimStart = inkOf t := by
  obtain ⟨w, white, split⟩ := append_trimStart t
  conv => rhs; rw [split, inkOf_append, inkOf_white white, zero_add]

@[simp] theorem inkOf_trim (t : Text) : inkOf t.trim = inkOf t := by rw [trim, inkOf_trimEnd, inkOf_trimStart]

theorem count_inkOf {c : Char} (dark : ¬ isWhite c) (t : Text) : (inkOf t).count c = t.count c := by
  rw [inkOf, coe_count, List.count_filter (by simp [dark])]

/-! ### One aside -/

/-- So many pairs of parentheses are taken out of the ink of a text, and at most as many dashes are new in it. -/
def InkMoved (asides : Nat) (s t : Text) : Prop :=
  ∃ dashes ≤ asides, inkOf t + replicate asides '(' + replicate asides ')' = inkOf s + replicate dashes '-'

theorem inkMoved_refl (t : Text) : InkMoved 0 t t := ⟨0, Nat.le_refl 0, by simp⟩

theorem inkMoved_append {m n : Nat} {s s' t t' : Text} (first : InkMoved m s t) (second : InkMoved n s' t') :
    InkMoved (m + n) (s ++ s') (t ++ t') := by
  obtain ⟨i, few, front⟩ := first
  obtain ⟨j, few', back⟩ := second
  refine ⟨i + j, by omega, ?_⟩
  simp only [inkOf_append, replicate_add]
  calc inkOf t + inkOf t' + (replicate m '(' + replicate n '(') + (replicate m ')' + replicate n ')')
    _ = (inkOf t + replicate m '(' + replicate m ')') + (inkOf t' + replicate n '(' + replicate n ')') := by abel
    _ = (inkOf s + replicate i '-') + (inkOf s' + replicate j '-') := by rw [front, back]
    _ = inkOf s + inkOf s' + (replicate i '-' + replicate j '-') := by abel

theorem inkMoved_trans {m n : Nat} {s t u : Text} (first : InkMoved m s t) (second : InkMoved n t u) :
    InkMoved (m + n) s u := by
  obtain ⟨i, few, here⟩ := first
  obtain ⟨j, few', later⟩ := second
  refine ⟨i + j, by omega, ?_⟩
  simp only [replicate_add]
  calc inkOf u + (replicate m '(' + replicate n '(') + (replicate m ')' + replicate n ')')
    _ = (inkOf u + replicate n '(' + replicate n ')') + (replicate m '(' + replicate m ')') := by abel
    _ = (inkOf t + replicate m '(' + replicate m ')') + replicate j '-' := by rw [later]; abel
    _ = inkOf s + (replicate i '-' + replicate j '-') := by rw [here]; abel

theorem inkMoved_count {n : Nat} {s t : Text} (moved : InkMoved n s t) {c : Char} (dark : ¬ isWhite c)
    (dash : c ≠ '-') : t.count c + (if c = '(' ∨ c = ')' then n else 0) = s.count c := by
  obtain ⟨dashes, -, same⟩ := moved
  have counted := congrArg (Multiset.count c) same
  simp only [count_add, count_inkOf dark, count_replicate, if_neg dash.symm] at counted
  by_cases opening : c = '('
  · subst opening
    simpa using counted
  · by_cases closing : c = ')'
    · subst closing
      simpa using counted
    · simpa [opening, closing, Ne.symm opening, Ne.symm closing] using counted

theorem inkOf_joinWords (s t : Text) : inkOf (joinWords s t) = inkOf s + inkOf t := by
  unfold joinWords
  split
  · exact inkOf_append s t
  · rw [inkOf_append, ← List.singleton_append, inkOf_append,
      inkOf_white (w := [' ']) (by simp [White, isWhite]), zero_add]

theorem moved_inkOf (a : Aside) :
    ∃ dashes ≤ 1, inkOf a.moved = inkOf a.before + inkOf a.inside + inkOf a.after + replicate dashes '-' := by
  have head : inkOf (joinWords a.before a.after) = inkOf a.before + inkOf a.after := inkOf_joinWords ..
  unfold Aside.moved
  simp only
  split
  · next empty =>
    have blank : inkOf (joinWords a.before a.after) = 0 := inkOf_white (white_of_trim_eq_nil (List.isEmpty_iff.1 empty))
    rw [head] at blank
    refine ⟨0, by omega, ?_⟩
    calc inkOf a.inside
      _ = (inkOf a.before + inkOf a.after) + inkOf a.inside := by rw [blank, zero_add]
      _ = inkOf a.before + inkOf a.inside + inkOf a.after + replicate 0 '-' := by rw [replicate_zero, add_zero]; abel
  · split
    · next empty => exact ⟨0, by omega, by simp [head, List.isEmpty_iff.1 empty]⟩
    · have dash : inkOf " - ".toList = {'-'} := rfl
      refine ⟨1, by omega, ?_⟩
      rw [inkOf_append, inkOf_append, head, dash, replicate_one]
      abel

theorem moveAside_inkMoved {label moved : Text} (done : moveAside label = some moved) : InkMoved 1 label moved := by
  obtain ⟨before, inside, after, rfl, rfl⟩ := moveAside_eq_some done
  obtain ⟨dashes, few, same⟩ := moved_inkOf ⟨trimEnd before, trim inside, trimStart after⟩
  simp only [inkOf_trimEnd, inkOf_trim, inkOf_trimStart] at same
  refine ⟨dashes, few, ?_⟩
  rw [same, inkOf_append, inkOf_append, inkOf_cons (by decide), inkOf_cons (by decide), replicate_one, replicate_one]
  abel

/-- A body stays as it is, or one aside is moved in it. -/
theorem repairBody_inkMoved (body : Text) : repairBody body = body ∨ InkMoved 1 body (repairBody body) := by
  unfold repairBody
  split
  · next slash inner slashes =>
    cases done : moveAside inner with
    | none => exact .inl rfl
    | some moved =>
      right
      rw [slashed?_eq_some slashes]
      exact inkMoved_append (inkMoved_append (inkMoved_refl [slash]) (moveAside_inkMoved done)) (inkMoved_refl [slash])
  · cases done : moveAside body with
    | none => exact .inl rfl
    | some moved => exact .inr (moveAside_inkMoved done)

theorem repairBody_inBody {body : Text} (kept : ∀ c ∈ body, inBody c) : ∀ c ∈ repairBody body, inBody c := by
  intro c member
  by_cases fresh : c = ' ' ∨ c = '-'
  · rcases fresh with rfl | rfl <;> decide
  · obtain ⟨space, dash⟩ := not_or.1 fresh
    have pieces : Piecewise fun s t => c ∈ t → c ∈ s := by
      refine ⟨fun _ => id, ?_⟩
      intro s t s' t' first second
      rw [List.mem_append, List.mem_append]
      exact Or.imp first second
    exact kept c (repairBody_lift pieces (of_mem_moveAside space dash) body member)

/-- A body ends at the first closing bracket. -/
theorem body_inj {b b' s t : Text} (closed : ∀ d ∈ b, inBody d) (closed' : ∀ d ∈ b', inBody d)
    (same : b ++ ']' :: s = b' ++ ']' :: t) : b = b' ∧ s = t := by
  have stops : ∀ {b : Text}, (∀ d ∈ b, inBody d) → ∀ r : Text, (b ++ ']' :: r).takeWhile inBody = b := by
    intro b closed r
    rw [List.takeWhile_append_of_pos closed, List.takeWhile_cons_of_neg (by decide), List.append_nil]
  have bodies : b = b' := by rw [← stops closed s, same, stops closed' t]
  subst bodies
  exact ⟨rfl, (List.cons.inj (List.append_cancel_left same)).2⟩

/-! ### Bodies of labels -/

/-- A text with bodies of labels rewritten, and with all other characters where they were. So many asides are moved
    out of their places, one or more in every body that is rewritten. -/
inductive Rewritten : (asides : Nat) → Text → Text → Prop
  | done : Rewritten 0 [] []
  | kept (c : Char) {n : Nat} {s t : Text} : Rewritten n s t → Rewritten n (c :: s) (c :: t)
  | label {c : Char} {m n : Nat} {b b' s t : Text} :
      opensLabel c → (∀ d ∈ b, inBody d) → (∀ d ∈ b', inBody d) → 0 < m → InkMoved m b b' →
      Rewritten n s t → Rewritten (m + n) (c :: '[' :: b ++ ']' :: s) (c :: '[' :: b' ++ ']' :: t)

namespace Rewritten

theorem refl (t : Text) : Rewritten 0 t t := by
  induction t with
  | nil => exact .done
  | cons c t ih => exact .kept c ih

theorem append {m n : Nat} {s s' t t' : Text} (first : Rewritten m s t) (second : Rewritten n s' t') :
    Rewritten (m + n) (s ++ s') (t ++ t') := by
  induction first with
  | done => simpa using second
  | kept c _ ih => exact .kept c ih
  | label opens kept kept' some moved _ ih =>
    have joined := Rewritten.label opens kept kept' some moved ih
    simpa [Nat.add_assoc] using joined

theorem inkMoved {n : Nat} {s t : Text} (rewritten : Rewritten n s t) : InkMoved n s t := by
  induction rewritten with
  | done => exact inkMoved_refl []
  | @kept c n s t _ ih => simpa using inkMoved_append (inkMoved_refl [c]) ih
  | @label c m n b b' s t _ _ _ _ moved _ ih =>
    have front := inkMoved_append (inkMoved_refl [c, '[']) moved
    have back := inkMoved_append (inkMoved_refl [']']) ih
    simpa using inkMoved_append front back

theorem eq_of_zero {s t : Text} (rewritten : Rewritten 0 s t) : t = s := by
  generalize none : 0 = n at rewritten
  induction rewritten with
  | done => rfl
  | kept c _ ih => rw [ih none]
  | label _ _ _ some _ _ _ => omega

/-- No line is broken, and none is joined to another. -/
theorem count_newline {n : Nat} {s t : Text} (rewritten : Rewritten n s t) : t.count '\n' = s.count '\n' := by
  have single : ∀ {b : Text}, (∀ d ∈ b, inBody d) → b.count '\n' = 0 := fun kept =>
    List.count_eq_zero.2 fun member => absurd (kept _ member) (by decide)
  induction rewritten with
  | done => rfl
  | kept c _ ih => rw [List.count_cons, List.count_cons, ih]
  | label _ kept kept' _ _ _ ih =>
    simp only [List.count_append, List.count_cons, single kept, single kept', ih]

/-! Where no label opens, a character is kept, and so is a body with its brackets when no label is rewritten there. -/

theorem cons_before {n : Nat} {c : Char} {s t : Text} (none : ¬ opensLabel c ∨ t.head? ≠ some '[')
    (rewritten : Rewritten n s (c :: t)) : ∃ s', s = c :: s' ∧ Rewritten n s' t := by
  generalize shape : c :: t = u at rewritten
  cases rewritten with
  | done => cases shape
  | kept _ rest =>
    obtain ⟨rfl, rfl⟩ := List.cons.inj shape
    exact ⟨_, rfl, rest⟩
  | label opens =>
    obtain ⟨rfl, rfl⟩ := List.cons.inj shape
    exact absurd none (by simp [opens])

theorem cons_after {n : Nat} {c : Char} {s t : Text} (none : ¬ opensLabel c ∨ s.head? ≠ some '[')
    (rewritten : Rewritten n (c :: s) t) : ∃ t', t = c :: t' ∧ Rewritten n s t' := by
  generalize shape : c :: s = u at rewritten
  cases rewritten with
  | done => cases shape
  | kept _ rest =>
    obtain ⟨rfl, rfl⟩ := List.cons.inj shape
    exact ⟨_, rfl, rest⟩
  | label opens =>
    obtain ⟨rfl, rfl⟩ := List.cons.inj shape
    exact absurd none (by simp [opens])

theorem no_bracket_next {b : Text} (closed : ∀ d ∈ b, inBody d) (t : Text) : (b ++ ']' :: t).head? ≠ some '[' := by
  cases b with
  | nil => simp
  | cons d b =>
    intro first
    obtain rfl : d = '[' := by simpa using first
    exact absurd (closed _ List.mem_cons_self) (by decide)

theorem body_before {n : Nat} {b s t : Text} (closed : ∀ d ∈ b, inBody d) (rewritten : Rewritten n s (b ++ ']' :: t)) :
    ∃ s', s = b ++ ']' :: s' ∧ Rewritten n s' t := by
  induction b generalizing s with
  | nil => exact cons_before (.inl (by decide)) rewritten
  | cons d b ih =>
    have later : ∀ e ∈ b, inBody e := fun e member => closed e (List.mem_cons_of_mem _ member)
    obtain ⟨r, rfl, rest⟩ := cons_before (.inr (no_bracket_next later t)) rewritten
    obtain ⟨s', rfl, behind⟩ := ih later rest
    exact ⟨s', rfl, behind⟩

theorem body_after {n : Nat} {b s t : Text} (closed : ∀ d ∈ b, inBody d) (rewritten : Rewritten n (b ++ ']' :: s) t) :
    ∃ t', t = b ++ ']' :: t' ∧ Rewritten n s t' := by
  induction b generalizing t with
  | nil => exact cons_after (.inl (by decide)) rewritten
  | cons d b ih =>
    have later : ∀ e ∈ b, inBody e := fun e member => closed e (List.mem_cons_of_mem _ member)
    obtain ⟨r, rfl, rest⟩ := cons_after (.inr (no_bracket_next later s)) rewritten
    obtain ⟨t', rfl, behind⟩ := ih later rest
    exact ⟨t', rfl, behind⟩

/-- Two rewritings, one after the other, are one: a label that both rewrite is the
    same one, since bodies hold no brackets. -/
theorem trans {m n : Nat} {s t u : Text} (first : Rewritten m s t) (second : Rewritten n t u) :
    Rewritten (m + n) s u := by
  induction length : t.length using Nat.strongRecOn generalizing m n s t u with
  | ind k ih =>
    subst length
    cases first with
    | done => simpa using second
    | @kept c _ s t rest =>
      generalize shape : c :: t = t' at second
      cases second with
      | done => cases shape
      | kept _ later =>
        obtain ⟨rfl, rfl⟩ := List.cons.inj shape
        exact .kept c (ih _ (by simp) rest later rfl)
      | @label c' i j b b' t' u opens closed closed' some moved later =>
        obtain ⟨rfl, rfl⟩ : c = c' ∧ t = '[' :: (b ++ ']' :: t') := by simpa using shape
        obtain ⟨_, rfl, opened⟩ := cons_before (.inl (by decide)) rest
        obtain ⟨s', rfl, behind⟩ := body_before closed opened
        have joined := Rewritten.label opens closed closed' some moved (ih _ (by simp; omega) behind later rfl)
        simpa [Nat.add_left_comm, Nat.add_comm] using joined
    | @label c i j b b' s t opens closed closed' some moved rest =>
      generalize shape : c :: '[' :: b' ++ ']' :: t = t' at second
      cases second with
      | done => cases shape
      | @kept c' _ t' u later =>
        obtain ⟨rfl, rfl⟩ : c = c' ∧ '[' :: (b' ++ ']' :: t) = t' := by simpa using shape
        obtain ⟨_, rfl, opened⟩ := cons_after (.inl (by decide)) later
        obtain ⟨u', rfl, behind⟩ := body_after closed' opened
        have joined := Rewritten.label opens closed closed' some moved (ih _ (by simp; omega) rest behind rfl)
        simpa [Nat.add_assoc] using joined
      | @label c' i' j' d d' t' u _ closed₂ closed₂' _ moved' later =>
        obtain ⟨rfl, same⟩ : c = c' ∧ b' ++ ']' :: t = d ++ ']' :: t' := by simpa using shape
        obtain ⟨rfl, rfl⟩ := body_inj closed' closed₂ same
        have joined := Rewritten.label opens closed closed₂' (by omega : 0 < i + i') (inkMoved_trans moved moved')
          (ih _ (by simp; omega) rest later rfl)
        simpa [Nat.add_assoc, Nat.add_left_comm] using joined

end Rewritten

/-! ### Rounds -/

theorem rewritten_piecewise : Piecewise fun s t => ∃ n, Rewritten n s t := by
  refine ⟨fun t => ⟨0, .refl t⟩, ?_⟩
  rintro s t s' t' ⟨m, first⟩ ⟨n, second⟩
  exact ⟨m + n, first.append second⟩

theorem rewritten_labels : OfLabels fun s t => ∃ n, Rewritten n s t := by
  intro c b opens closed
  rcases repairBody_inkMoved b with same | moved
  · exact ⟨0, by rw [same]; exact .refl _⟩
  · exact ⟨1, .label opens closed (repairBody_inBody closed) Nat.one_pos moved .done⟩

theorem asideRound_rewritten (t : Text) : ∃ n, Rewritten n t (asideRound t) :=
  asideRound_lift rewritten_piecewise rewritten_labels t

theorem repairAsides_rewritten (t : Text) : ∃ n, Rewritten n t (repairAsides t) := by
  refine repairAsides_lift (R := fun s t => ∃ n, Rewritten n s t) rewritten_piecewise ?_ rewritten_labels t
  rintro s t u ⟨m, first⟩ ⟨n, second⟩
  exact ⟨m + n, first.trans second⟩

/-- Moving asides, in however many rounds, rewrites bodies of labels and nothing
    else: of the ink it takes away a pair of parentheses for every aside and brings a
    dash for it at most, so that all other ink is kept, and all lines are. -/
theorem repairAsides_keeps_ink (t : Text) :
    ∃ n, Rewritten n t (repairAsides t) ∧
      (∃ dashes ≤ n, inkOf (repairAsides t) + replicate n '(' + replicate n ')' = inkOf t + replicate dashes '-') ∧
      ∀ c ∈ ['[', ']', '|', '"', '\n', '/', '\\'], (repairAsides t).count c = t.count c := by
  obtain ⟨n, rewritten⟩ := repairAsides_rewritten t
  refine ⟨n, rewritten, rewritten.inkMoved, ?_⟩
  intro c member
  by_cases newline : c = '\n'
  · rw [newline, rewritten.count_newline]
  · have other : ¬ isWhite c ∧ c ≠ '-' ∧ ¬ (c = '(' ∨ c = ')') := by
      simp only [List.mem_cons, List.not_mem_nil, or_false, newline, false_or] at member
      rcases member with rfl | rfl | rfl | rfl | rfl | rfl <;> decide
    simpa [other.2.2] using inkMoved_count rewritten.inkMoved other.1 other.2.1

end Flowchart.Repair
