import Mathlib.Algebra.Ring.Parity
import Flowchart.Proofs.Line.Marks
import Flowchart.Proofs.Repair.Settled

/-!
Where labels are looked for. A label is a body between square brackets behind a character at which labels open
(`Holds`), in a part of a row that is not between pipes (`plainParts`). A text is left alone when all its bodies are
(`repairLabels_eq_self`), and a row when all bodies in these parts are (`settled_iff`).
-/
namespace Flowchart.Repair
open Text Line

/-! ### Bodies between slashes -/

theorem between?_of_head {c : Char} {t : Text} (other : t.head? ≠ some c) : between? [c] [c] t = none := by
  have none : after? [c] t = Option.none := by
    rw [← Option.not_isSome_iff_eq_none, after?_isSome]
    exact other
  rw [between?, none]
  rfl

theorem slashed?_of_head {t : Text} (slash : t.head? ≠ some '/') (backslash : t.head? ≠ some '\\') :
    slashed? t = none := by
  rw [slashed?, between?_of_head slash, between?_of_head backslash]
  rfl

theorem slashed?_slash {body inner : Text} {slash : Char} (slashes : slashed? body = some (slash, inner)) :
    slash ∈ ['/', '\\'] := by
  unfold slashed? at slashes
  split at slashes
  · simp [(Prod.mk.inj (Option.some.inj slashes)).1.symm]
  · obtain ⟨_, -, pair⟩ := Option.map_eq_some_iff.1 slashes
    simp [(Prod.mk.inj pair).1.symm]

theorem slashed?_slashes {slash : Char} (member : slash ∈ ['/', '\\']) (inner : Text) :
    slashed? (slash :: inner ++ [slash]) = some (slash, inner) := by
  simp only [List.mem_cons, List.not_mem_nil, or_false] at member
  rcases member with rfl | rfl
  all_goals simp [slashed?, between?, after?, before?]

/-! ### Labels between brackets -/

theorem repairLabels_nil : repairLabels [] = [] := by rw [repairLabels]

theorem label?_of_head {t : Text} (other : t.head? ≠ some '[') (c : Char) : label? c t = none := by
  rw [Option.eq_none_iff_forall_not_mem]
  intro parts found
  rw [(label?_eq_some found).1] at other
  exact other rfl

/-- No label opens within a text that has no bracket behind its first character. -/
theorem repairLabels_plain {c : Char} {s t : Text} (none : '[' ∉ s) (other : t.head? ≠ some '[') :
    repairLabels (c :: s ++ t) = c :: s ++ repairLabels t := by
  induction s generalizing c with
  | nil => exact repairLabels_cons (label?_of_head other c)
  | cons d s ih =>
    have head : (d :: s ++ t).head? ≠ some '[' := by
      intro same
      obtain rfl : d = '[' := by simpa using same
      exact none List.mem_cons_self
    have later := ih (c := d) fun member => none (List.mem_cons_of_mem _ member)
    have here := repairLabels_cons (label?_of_head head c)
    rw [later] at here
    exact here

/-- Text without an opening bracket, in front of text that does not start with one. -/
theorem repairLabels_apart {s t : Text} (none : '[' ∉ s) (other : t.head? ≠ some '[') :
    repairLabels (s ++ t) = s ++ repairLabels t := by
  cases s with
  | nil => rfl
  | cons c s => exact repairLabels_plain (fun member => none (List.mem_cons_of_mem _ member)) other

/-- A body that needs no repair stays, whether or not a label opens behind the character in front of it. -/
theorem repairLabels_bracket {b t : Text} (kept : ∀ c ∈ b, inBody c) (stays : repairBody b = b)
    (other : t.head? ≠ some '[') (d : Char) :
    repairLabels (d :: '[' :: b ++ ']' :: t) = d :: '[' :: b ++ ']' :: repairLabels t := by
  have clean : '[' ∉ b := by
    intro member
    cases kept _ member
  by_cases opens : opensLabel d
  · have labelled := repairLabels_label (label?_bracket opens kept t)
    rwa [stays] at labelled
  · have none : label? d ('[' :: b ++ ']' :: t) = Option.none := by rw [label?, if_neg opens]
    have behind := repairLabels_plain (c := '[') (s := b ++ [']']) (t := t) (by simp [clean]) other
    have here := repairLabels_cons none
    have split : '[' :: b ++ ']' :: t = '[' :: (b ++ [']']) ++ t := by simp
    rw [split, behind] at here
    simpa using here

/-- A label with the body opens in the text. -/
def Holds (t body : Text) : Prop := (∀ d ∈ body, inBody d) ∧ ∃ c, opensLabel c ∧ c :: '[' :: body ++ [']'] <:+: t

variable {t body : Text}

/-- No label opens at the first character. -/
theorem holds_cons {c : Char} (none : label? c t = none) : Holds (c :: t) body ↔ Holds t body := by
  constructor
  · rintro ⟨kept, d, opens, inside⟩
    refine ⟨kept, d, opens, (List.infix_cons_iff.1 inside).resolve_left ?_⟩
    rintro ⟨rest, front⟩
    obtain ⟨rfl, rfl⟩ : d = c ∧ '[' :: body ++ ']' :: rest = t := by simpa using front
    rw [label?_bracket opens kept] at none
    cases none
  · rintro ⟨kept, d, opens, inside⟩
    exact ⟨kept, d, opens, inside.trans (List.suffix_cons c t).isInfix⟩

theorem holds_apart {s : Text} (none : '[' ∉ s) (other : t.head? ≠ some '[') : Holds (s ++ t) body ↔ Holds t body := by
  induction s with
  | nil => rfl
  | cons c s ih =>
    have head : (s ++ t).head? ≠ some '[' := by
      cases s with
      | nil => exact other
      | cons d s =>
        intro same
        obtain rfl : d = '[' := by simpa using same
        simp at none
    rw [List.cons_append, holds_cons (label?_of_head head c), ih fun member => none (List.mem_cons_of_mem _ member)]

/-- A label that opens at the first character, or one behind it. -/
theorem holds_label {c : Char} {first rest : Text} (found : label? c t = some (first, rest)) :
    Holds (c :: t) body ↔ body = first ∨ Holds rest body := by
  obtain ⟨rfl, kept⟩ := label?_eq_some found
  have opens : opensLabel c := by
    by_contra closed
    rw [label?, if_neg closed] at found
    cases found
  have clean : '[' ∉ first := by
    intro member
    cases kept _ member
  have closed : ∀ {d : Char} {u : Text}, opensLabel d = false → label? d u = none := by
    intro d u closed
    rw [label?, closed]
    rfl
  have behind : Holds ('[' :: first ++ ']' :: rest) body ↔ Holds rest body := by
    rw [List.cons_append, holds_cons (closed (by decide)), holds_apart clean (by simp), holds_cons (closed (by decide))]
  rw [← behind]
  constructor
  · rintro ⟨kept', d, opens', inside⟩
    rcases List.infix_cons_iff.1 inside with ⟨u, front⟩ | later
    · obtain ⟨rfl, same⟩ : d = c ∧ '[' :: body ++ ']' :: u = '[' :: first ++ ']' :: rest := by simpa using front
      rw [← same, label?_bracket opens kept'] at found
      exact .inl (Prod.mk.inj (Option.some.inj found)).1
    · exact .inr ⟨kept', d, opens', later⟩
  · rintro (rfl | ⟨kept', d, opens', inside⟩)
    · exact ⟨kept, c, opens, [], rest, by simp⟩
    · exact ⟨kept', d, opens', inside.trans (List.suffix_cons c _).isInfix⟩

/-- Of one body between square brackets no other label is made. -/
theorem holds_only {s x y : Text} (front : '[' ∉ s) (kept : ∀ c ∈ x, inBody c) (behind : '[' ∉ y)
    (holds : Holds (s ++ '[' :: (x ++ ']' :: y)) body) : body = x := by
  have flat : ∀ {z : Text}, (∀ c ∈ z, inBody c) → '[' ∉ z ∧ ']' ∉ z := by
    intro z kept
    constructor
    all_goals
      intro member
      cases kept _ member
  obtain ⟨kept', c, -, p, q, split⟩ := holds
  have apart : '[' ∉ x ++ ']' :: y := by simp [(flat kept).1, behind]
  have same : s ++ '[' :: (x ++ ']' :: y) = p ++ [c] ++ '[' :: (body ++ ']' :: q) := by simp [← split]
  obtain ⟨-, -, bodies⟩ := (List.append_cons_inj_of_notMem front apart).1 same
  have cutBody : cut [']'] (body ++ ']' :: q) = some (body, q) := cut_char (flat kept').2
  rw [← bodies, cut_char (flat kept).2] at cutBody
  exact (Prod.mk.inj (Option.some.inj cutBody)).1.symm

/-- A text stays when the bodies of its labels do. -/
theorem repairLabels_eq_self : repairLabels t = t ↔ ∀ body, Holds t body → repairBody body = body := by
  induction hn : t.length using Nat.strongRecOn generalizing t with
  | ind n ih =>
    subst hn
    cases t with
    | nil =>
      rw [repairLabels_nil, eq_self_iff_true, true_iff]
      rintro body ⟨-, c, -, inside⟩
      cases List.eq_nil_of_infix_nil inside
    | cons c r =>
      cases found : label? c r with
      | none =>
        rw [repairLabels_cons_eq found, ih _ (Nat.lt_succ_self _) rfl]
        simp only [holds_cons found]
      | some parts =>
        obtain ⟨first, rest⟩ := parts
        have shorter : rest.length < (c :: r).length := by
          rw [(label?_eq_some found).1]
          simp only [List.length_append, List.length_cons]
          omega
        rw [repairLabels_label_eq found, ih _ shorter rfl]
        simp only [holds_label found, or_imp, forall_and, forall_eq]

/-! ### Labels between pipes -/

/-- No label between pipes opens in the text, nor is it left inside quotes. -/
def Passed (s : Text) : Prop := ∀ t, edgeLabel? false (s ++ t) = (edgeLabel? false t).map (Prod.map (s ++ ·) id)

theorem Passed.append {s t : Text} (first : Passed s) (second : Passed t) : Passed (s ++ t) := by
  intro u
  rw [List.append_assoc, first, second, Option.map_map]
  congr 1
  funext parts
  simp [Prod.map]

theorem passed_plain {s : Text} (pipe : '|' ∉ s) (quote : '"' ∉ s) : Passed s := edgeLabel?_front pipe quote false

theorem passed_quoted {label : Text} (clean : '"' ∉ label) : Passed ('"' :: label ++ ['"']) := by
  intro t
  have inQuotes : ∀ s : Text, '"' ∉ s →
      edgeLabel? true (s ++ '"' :: t) = (edgeLabel? false t).map (Prod.map (s ++ ['"'] ++ ·) id) := by
    intro s clean
    induction s with
    | nil => exact edgeLabel?_cons (piped?_of_ne (by decide) _ _)
    | cons c s ih =>
      have other : c ≠ '"' := fun same => clean (same ▸ List.mem_cons_self)
      have none : piped? true c (s ++ '"' :: t) = Option.none := by simp [piped?]
      have same : (true ^^ decide (c = '"')) = true := by simp [other]
      rw [List.cons_append, edgeLabel?_cons none, same, ih fun member => clean (List.mem_cons_of_mem _ member),
        Option.map_map]
      rfl
  have opened : edgeLabel? false ('"' :: (label ++ '"' :: t)) = _ := edgeLabel?_cons (piped?_of_ne (by decide) _ _)
  have state : (false ^^ decide ('"' = '"')) = true := rfl
  rw [state, inQuotes label clean, Option.map_map] at opened
  rw [show '"' :: label ++ ['"'] ++ t = '"' :: (label ++ '"' :: t) by simp, opened]
  congr 1

/-- Without pipes it is enough that the quotes are in pairs. -/
theorem passed_paired {s : Text} (pipe : '|' ∉ s) (quotes : Even (s.count '"')) : Passed s := by
  have state : ∀ quoted t, edgeLabel? quoted (s ++ t) =
      (edgeLabel? (quoted ^^ decide (Odd (s.count '"'))) t).map (Prod.map (s ++ ·) id) := by
    clear quotes
    induction s with
    | nil =>
      intro quoted t
      have state : (quoted ^^ decide (Odd (List.count '"' []))) = quoted := by simp
      rw [List.nil_append, state]
      cases edgeLabel? quoted t <;> rfl
    | cons c s ih =>
      intro quoted t
      have other : c ≠ '|' := fun same => pipe (same ▸ List.mem_cons_self)
      have parity : (quoted ^^ decide (c = '"') ^^ decide (Odd (s.count '"'))) =
          (quoted ^^ decide (Odd ((c :: s).count '"'))) := by
        by_cases quote : c = '"'
        · rw [quote, List.count_cons_self, Bool.xor_assoc, decide_eq_decide.2 Nat.odd_add_one, decide_not]
          simp
        · simp [quote]
      rw [List.cons_append, edgeLabel?_cons (piped?_of_ne other _ _),
        ih fun member => pipe (List.mem_cons_of_mem _ member), parity, Option.map_map]
      rfl
  intro t
  have even : decide (Odd (s.count '"')) = false := by simpa using quotes
  rw [state, even, Bool.xor_false]

theorem Passed.none {s : Text} (passed : Passed s) : edgeLabel? false s = none := by
  have whole := passed []
  rwa [List.append_nil] at whole

/-- The parts of a row that are not between pipes. -/
def plainParts (row : Text) : List Text :=
  match _h : edgeLabel? false row with
  | some (front, _, rest) => front :: plainParts rest
  | none => [row]
termination_by row.length
decreasing_by exact edgeLabel?_length _h

/-- A row is settled when its labels are left alone, those between pipes apart. -/
theorem settled_iff {row : Text} :
    Settled row ↔ ∀ part ∈ plainParts row, ∀ body, Holds part body → repairBody body = body := by
  simp only [← repairLabels_eq_self]
  fun_induction plainParts row with
  | case1 row front label rest found ih => rw [settled_of_label found, List.forall_mem_cons, ih]
  | case2 row none => rw [settled_of_no_label none, List.forall_mem_singleton]

end Flowchart.Repair
