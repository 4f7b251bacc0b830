import Mathlib.Logic.Function.Iterate
import Flowchart.Repair.Aside
import Flowchart.Proofs.Text.Lines

/-!
What a round of moving asides does to a text. A round rewrites bodies between brackets and leaves
everything else where it is, so what holds of each repaired label and carries over to texts put
together holds of the whole round (`asideRound_lift`). Moving one aside takes one pair of
parentheses away and adds two characters at most (`moveAside_moves`); a round that changes the text
moves one aside or more (`asideRound_moves`), and so the rounds come to an end (`asideRound_repairAsides`).
-/
namespace Flowchart.Repair
open Text

/-! ### One aside -/

theorem aside?_eq_some {label : Text} {a : Aside} (found : aside? label = some a) :
    ∃ before inside after : Text, label = before ++ '(' :: inside ++ ')' :: after ∧
      a = ⟨before.trimEnd, inside.trim, after.trimStart⟩ := by
  unfold aside? at found
  simp only [Option.bind_eq_bind, Option.bind_eq_some_iff] at found
  obtain ⟨⟨upTo, after⟩, closing, ⟨before, inside⟩, opening, result⟩ := found
  have outer : label = upTo ++ [')'] ++ after := cut_eq_some closing
  have inner : upTo = before ++ ['('] ++ inside := cutLast_eq_some opening
  refine ⟨before, inside, after, ?_, (Option.some.inj result).symm⟩
  rw [outer, inner]
  simp

theorem joinWords_count {c : Char} (ink : ¬ isWhite c) (s t : Text) :
    (joinWords s t).count c = s.count c + t.count c := by
  have notSpace : ' ' ≠ c := by
    rintro rfl
    exact ink (by decide)
  unfold joinWords
  split
  · rw [List.count_append]
  · rw [List.count_append, List.count_cons_of_ne notSpace]

theorem joinWords_length (s t : Text) : (joinWords s t).length ≤ s.length + t.length + 1 := by
  unfold joinWords
  split
  · simp
  · simp only [List.length_append, List.length_cons]
    omega

theorem dash_eq : " - ".toList = [' ', '-', ' '] := rfl

/-- Moving an aside keeps every character that is neither white nor the dash in front of it. -/
theorem moved_count {c : Char} (ink : ¬ isWhite c) (dash : c ≠ '-') (a : Aside) :
    a.moved.count c = a.before.count c + a.inside.count c + a.after.count c := by
  have head := joinWords_count ink a.before a.after
  unfold Aside.moved
  simp only
  split
  · next empty =>
    have none := count_white ink (white_of_trim_eq_nil (List.isEmpty_iff.1 empty))
    omega
  · split
    · next empty =>
      rw [List.isEmpty_iff.1 empty, List.count_nil, head]
      omega
    · have notSpace : c ≠ ' ' := by
        rintro rfl
        exact ink (by decide)
      have none : (" - ".toList).count c = 0 := by simp [dash_eq, List.count_eq_zero, notSpace, dash]
      rw [List.count_append, List.count_append, none, head]
      omega

theorem mem_joinWords {c : Char} (space : c ≠ ' ') {s t : Text} (member : c ∈ joinWords s t) : c ∈ s ∨ c ∈ t := by
  unfold joinWords at member
  split at member
  · exact List.mem_append.1 member
  · simpa [space] using member

/-- A moved aside brings nothing with it but a space or a dash. -/
theorem of_mem_moved {c : Char} (space : c ≠ ' ') (dash : c ≠ '-') {a : Aside} (member : c ∈ a.moved) :
    c ∈ a.before ∨ c ∈ a.inside ∨ c ∈ a.after := by
  have head : c ∈ joinWords a.before a.after → c ∈ a.before ∨ c ∈ a.inside ∨ c ∈ a.after := fun inside =>
    (mem_joinWords space inside).imp_right .inr
  unfold Aside.moved at member
  simp only at member
  split at member
  · exact .inr (.inl member)
  · split at member
    · exact head member
    · rcases List.mem_append.1 member with front | inside
      · refine head ((List.mem_append.1 front).resolve_right ?_)
        simp [dash_eq, space, dash]
      · exact .inr (.inl inside)

theorem moved_length (a : Aside) : a.moved.length ≤ a.before.length + a.inside.length + a.after.length + 4 := by
  have head := joinWords_length a.before a.after
  unfold Aside.moved
  simp only
  split
  · omega
  · split
    · omega
    · simp only [List.length_append, dash_eq, List.length_cons, List.length_nil]
      omega

/-- Moving asides: so many pairs of parentheses are taken away, and at most two characters are
    added for each. -/
def Moves (count : Nat) (s t : Text) : Prop :=
  t.count '(' + count = s.count '(' ∧ t.length ≤ s.length + 2 * count ∧ (count = 0 → t = s)

theorem moves_refl (t : Text) : Moves 0 t t := ⟨rfl, by omega, fun _ => rfl⟩

theorem moves_append {m n : Nat} {s s' t t' : Text} (first : Moves m s t) (second : Moves n s' t') :
    Moves (m + n) (s ++ s') (t ++ t') := by
  refine ⟨?_, ?_, ?_⟩
  · have := first.1
    have := second.1
    simp only [List.count_append]
    omega
  · have := first.2.1
    have := second.2.1
    simp only [List.length_append]
    omega
  · intro none
    rw [first.2.2 (by omega), second.2.2 (by omega)]

theorem moves_trans {m n : Nat} {s t u : Text} (first : Moves m s t) (second : Moves n t u) : Moves (m + n) s u := by
  refine ⟨?_, ?_, ?_⟩
  · have := first.1
    have := second.1
    omega
  · have := first.2.1
    have := second.2.1
    omega
  · intro none
    rw [second.2.2 (by omega), first.2.2 (by omega)]

theorem moveAside_eq_some {label moved : Text} (done : moveAside label = some moved) :
    ∃ before inside after : Text, label = before ++ '(' :: inside ++ ')' :: after ∧
      moved = Aside.moved ⟨before.trimEnd, inside.trim, after.trimStart⟩ := by
  unfold moveAside at done
  split at done
  · cases done
  · obtain ⟨a, found, rfl⟩ := Option.map_eq_some_iff.1 done
    obtain ⟨before, inside, after, rfl, rfl⟩ := aside?_eq_some found
    exact ⟨before, inside, after, rfl, rfl⟩

theorem of_mem_moveAside {c : Char} (space : c ≠ ' ') (dash : c ≠ '-') {label moved : Text}
    (done : moveAside label = some moved) (member : c ∈ moved) : c ∈ label := by
  obtain ⟨before, inside, after, rfl, rfl⟩ := moveAside_eq_some done
  rcases of_mem_moved space dash member with front | middle | back
  · simp [(trimEnd_isPrefix before).subset front]
  · simp [(trim_isInfix inside).subset middle]
  · simp [(trimStart_suffix after).subset back]

theorem moveAside_moves {label moved : Text} (done : moveAside label = some moved) : Moves 1 label moved := by
  obtain ⟨before, inside, after, rfl, rfl⟩ := moveAside_eq_some done
  have ink : ¬ isWhite '(' := by decide
  refine ⟨?_, ?_, fun impossible => absurd impossible (by decide)⟩
  · rw [moved_count ink (by decide)]
    simp only [count_trimEnd ink, count_trim ink, count_trimStart ink, List.count_append, List.count_cons]
    simp only [beq_iff_eq, Char.reduceEq, if_true, if_false]
    omega
  · have bound := moved_length ⟨trimEnd before, trim inside, trimStart after⟩
    have front := (trimEnd_isPrefix before).length_le
    have middle := (trim_isInfix inside).length_le
    have back := (trimStart_suffix after).length_le
    simp only [List.length_append, List.length_cons] at bound ⊢
    omega

theorem slashed?_eq_some {body inner : Text} {slash : Char} (slashes : slashed? body = some (slash, inner)) :
    body = slash :: inner ++ [slash] := by
  unfold slashed? between? at slashes
  split at slashes
  · next inner' found =>
    obtain ⟨rfl, rfl⟩ := Prod.mk.inj (Option.some.inj slashes)
    obtain ⟨rest, opened, closed⟩ := Option.bind_eq_some_iff.1 found
    rw [after?_eq_some.1 opened, before?_eq_some.1 closed]
    simp
  · obtain ⟨inner', found, pair⟩ := Option.map_eq_some_iff.1 slashes
    obtain ⟨rfl, rfl⟩ := Prod.mk.inj pair
    obtain ⟨rest, opened, closed⟩ := Option.bind_eq_some_iff.1 found
    rw [after?_eq_some.1 opened, before?_eq_some.1 closed]
    simp

/-! ### Pieces -/

/-- A relation between texts that holds of a text and itself, and of texts put together. -/
structure Piecewise (R : Text → Text → Prop) : Prop where
  refl : ∀ t, R t t
  append : ∀ {s t s' t'}, R s t → R s' t' → R (s ++ s') (t ++ t')

theorem Piecewise.cons {R : Text → Text → Prop} (pieces : Piecewise R) (c : Char) {s t : Text} (tail : R s t) :
    R (c :: s) (c :: t) := pieces.append (pieces.refl [c]) tail

theorem moves_piecewise : Piecewise fun s t => ∃ n, Moves n s t := by
  refine ⟨fun t => ⟨0, moves_refl t⟩, ?_⟩
  rintro s t s' t' ⟨m, first⟩ ⟨n, second⟩
  exact ⟨m + n, moves_append first second⟩

/-- The body of a label is rewritten between its slashes. -/
theorem repairBody_lift {R : Text → Text → Prop} (pieces : Piecewise R)
    (aside : ∀ {label moved}, moveAside label = some moved → R label moved) (body : Text) :
    R body (repairBody body) := by
  unfold repairBody
  split
  · next slash inner slashes =>
    cases done : moveAside inner with
    | none => exact pieces.refl body
    | some moved =>
      rw [slashed?_eq_some slashes]
      exact pieces.append (pieces.cons slash (aside done)) (pieces.refl [slash])
  · cases done : moveAside body with
    | none => exact pieces.refl body
    | some moved => exact aside done

theorem repairBody_moves (body : Text) : ∃ n, Moves n body (repairBody body) :=
  repairBody_lift moves_piecewise (fun done => ⟨1, moveAside_moves done⟩) body

/-! ### One round -/

theorem bracketBody?_eq_some {t body rest : Text} (found : bracketBody? t = some (body, rest)) :
    t = '[' :: body ++ ']' :: rest ∧ ∀ c ∈ body, inBody c := by
  unfold bracketBody? at found
  split at found
  · next r =>
    split at found
    · next rest' closing =>
      obtain ⟨rfl, rfl⟩ := Prod.mk.inj (Option.some.inj found)
      refine ⟨?_, fun c => List.mem_takeWhile_imp⟩
      rw [List.cons_append, ← closing, List.takeWhile_append_dropWhile]
    · cases found
  · cases found

/-- What holds of every repaired label, with the character that it opens behind and its brackets. -/
def OfLabels (R : Text → Text → Prop) : Prop :=
  ∀ c b, opensLabel c → (∀ d ∈ b, inBody d) → R (c :: '[' :: b ++ [']']) (c :: '[' :: repairBody b ++ [']'])

/-- What holds of every repaired body holds of every repaired label. -/
theorem Piecewise.labels {R : Text → Text → Prop} (pieces : Piecewise R) (body : ∀ b, R b (repairBody b)) :
    OfLabels R :=
  fun c b _ _ => pieces.append (pieces.cons c (pieces.cons '[' (body b))) (pieces.refl [']'])

theorem moves_labels : OfLabels fun s t => ∃ n, Moves n s t := moves_piecewise.labels repairBody_moves

section
variable {R : Text → Text → Prop} (pieces : Piecewise R) (labels : OfLabels R)
include pieces labels

theorem repairLabels_lift (t : Text) : R t (repairLabels t) := by
  fun_induction repairLabels t with
  | case1 => exact pieces.refl []
  | case2 c r b rest found ih =>
    obtain ⟨opens, rfl, kept⟩ : opensLabel c ∧ r = '[' :: b ++ ']' :: rest ∧ ∀ d ∈ b, inBody d := by
      split at found
      · next opens => exact ⟨opens, bracketBody?_eq_some found⟩
      · cases found
    simpa using pieces.append (labels c b opens kept) ih
  | case3 c r _ ih => exact pieces.cons c ih

theorem outsideEdgeLabels_lift (plain : Text) (quoted : Bool) (t : Text) :
    R (plain.reverse ++ t) (outsideEdgeLabels repairLabels plain quoted t) := by
  fun_induction outsideEdgeLabels repairLabels plain quoted t with
  | case1 plain => simpa using repairLabels_lift pieces labels plain.reverse
  | case2 plain quoted c r label rest found ih =>
    have shape : c = '|' ∧ r = label ++ '|' :: rest := by
      split at found
      · next pipe =>
        simp only [Bool.and_eq_true, decide_eq_true_eq] at pipe
        exact ⟨pipe.1, by simpa using cut_eq_some found⟩
      · cases found
    obtain ⟨rfl, rfl⟩ := shape
    have after : R rest (outsideEdgeLabels repairLabels [] false rest) := by simpa using ih
    have edge := pieces.cons '|' (pieces.append (pieces.refl label) (pieces.cons '|' after))
    simpa using pieces.append (repairLabels_lift pieces labels plain.reverse) edge
  | case3 plain quoted c r _ ih => simpa using ih

theorem joinRows_lift (rs : List Text) :
    R (joinRows rs) (joinRows (rs.map (outsideEdgeLabels repairLabels [] false))) := by
  induction rs with
  | nil => exact pieces.refl []
  | cons row others ih =>
    have here : R row _ := outsideEdgeLabels_lift pieces labels [] false row
    cases others with
    | nil => simpa [joinRows] using here
    | cons next others =>
      rw [List.map_cons, List.map_cons, joinRows_cons_cons, joinRows_cons_cons, ← List.map_cons]
      exact pieces.append here (pieces.cons '\n' ih)

/-- What holds of every label that is repaired holds of a whole round. -/
theorem asideRound_lift (t : Text) : R t (asideRound t) := by
  have := joinRows_lift pieces labels (rows t)
  rwa [joinRows_rows] at this

end

theorem asideRound_moves (t : Text) : ∃ n, Moves n t (asideRound t) :=
  asideRound_lift moves_piecewise moves_labels t

/-! ### All rounds -/

/-- A step that makes a measure smaller whenever it changes something is repeated until it changes
    nothing, if there is enough fuel. -/
theorem settle_fixed {α : Type} [DecidableEq α] {step : α → α} {measure : α → Nat}
    (shrinks : ∀ a, step a = a ∨ measure (step a) < measure a) (fuel : Nat) (a : α) (enough : measure a < fuel) :
    step (settle step fuel a).1 = (settle step fuel a).1 := by
  induction fuel generalizing a with
  | zero => omega
  | succ fuel ih =>
    simp only [settle]
    split
    · next same => exact same
    · next changed =>
      rcases shrinks a with same | smaller
      · exact absurd same changed
      · exact ih (step a) (by omega)

/-- Stopping early makes no difference: the result is that of all steps. -/
theorem settle_eq_iterate {α : Type} [DecidableEq α] (step : α → α) (fuel : Nat) (a : α) :
    (settle step fuel a).1 = step^[fuel] a := by
  induction fuel generalizing a with
  | zero => rfl
  | succ fuel ih =>
    simp only [settle]
    split
    · next same => exact (Function.iterate_fixed same _).symm
    · exact ih (step a)

/-- Wherever some steps lead that no further step changes, all steps lead. -/
theorem settle_eq {α : Type} [DecidableEq α] {step : α → α} {measure : α → Nat}
    (shrinks : ∀ a, step a = a ∨ measure (step a) < measure a) {fuel : Nat} {a : α}
    (enough : measure a < fuel) {n : Nat}
    {b : α} (reached : step^[n] a = b) (fixed : step b = b) : (settle step fuel a).1 = b := by
  have stays := settle_fixed shrinks fuel a enough
  rw [settle_eq_iterate] at stays ⊢
  calc step^[fuel] a
    _ = step^[n] (step^[fuel] a) := (Function.iterate_fixed stays n).symm
    _ = step^[fuel] (step^[n] a) := (Function.Commute.refl step).iterate_iterate n fuel a
    _ = b := by rw [reached, Function.iterate_fixed fixed]

/-- With enough fuel it makes no difference how many times a step is repeated. -/
theorem settle_of_enough {α : Type} [DecidableEq α] {step : α → α} {measure : α → Nat}
    (shrinks : ∀ a, step a = a ∨ measure (step a) < measure a) {fuel n : Nat} {a : α} (enough : measure a < fuel)
    (enough' : measure a < n) : (settle step fuel a).1 = step^[n] a := by
  have fixed := settle_fixed shrinks n a enough'
  rw [settle_eq_iterate] at fixed
  exact settle_eq shrinks enough rfl fixed

/-- What each step keeps, all of them keep. -/
theorem settle_keeps {α : Type} [DecidableEq α] {step : α → α} {P : α → Prop} (keeps : ∀ a, P a → P (step a))
    (fuel : Nat) (a : α) (start : P a) : P (settle step fuel a).1 := by
  induction fuel generalizing a with
  | zero => exact start
  | succ fuel ih =>
    simp only [settle]
    split
    · exact start
    · exact ih (step a) (keeps a start)

theorem asideRound_shrinks (t : Text) : asideRound t = t ∨ (asideRound t).count '(' < t.count '(' := by
  obtain ⟨n, fewer, -, none⟩ := asideRound_moves t
  by_cases zero : n = 0
  · exact .inl (none zero)
  · exact .inr (by omega)

/-- What holds of every label that is repaired, and of one text and a third by way of a second, holds of all rounds. -/
theorem repairAsides_lift {R : Text → Text → Prop} (pieces : Piecewise R) (trans : ∀ {s t u}, R s t → R t u → R s u)
    (labels : OfLabels R) (t : Text) : R t (repairAsides t) :=
  settle_keeps (P := R t) (fun u before => trans before (asideRound_lift pieces labels u)) _ t (pieces.refl t)

theorem repairAsides_moves (t : Text) : ∃ n, Moves n t (repairAsides t) := by
  refine repairAsides_lift (R := fun s t => ∃ n, Moves n s t) moves_piecewise ?_ moves_labels t
  rintro s t u ⟨m, first⟩ ⟨n, second⟩
  exact ⟨m + n, moves_trans first second⟩

theorem repairAsides_of_rounds {t u : Text} {n : Nat} (reached : asideRound^[n] t = u) (fixed : asideRound u = u) :
    repairAsides t = u :=
  settle_eq asideRound_shrinks (Nat.lt_succ_self _) reached fixed

/-- After all rounds another one changes nothing. -/
theorem asideRound_repairAsides (t : Text) : asideRound (repairAsides t) = repairAsides t :=
  settle_fixed asideRound_shrinks _ t (Nat.lt_succ_self _)

end Flowchart.Repair
