import Mathlib.Data.List.Infix
import Flowchart.Proofs.Graph.Labels
import Flowchart.Proofs.Graph.Records
import Flowchart.Proofs.Line.Alone
import Flowchart.Proofs.Repair.Bodies
import Flowchart.Proofs.Writer.Repaired

/-!
Quoted labels under repair. Of a node in any delimiters with its label in double quotes the reader takes the label
as it is. Repair does not look for the quotes, but at the front of each body between square brackets, and a quoted
label may hold such bodies of its own. It is read as before just when all of these are left alone, which they are if
the label has no square brackets (`parse_repair_quoted`). For where one is not, a pair of parentheses is gone
(`count_repair_lt`), and what is left does not suffice for the label with its delimiters (`count_of_declared`).
-/
namespace Flowchart.Repair
open Text Line

/-- A node with its label in double quotes. -/
def quotedForm (b : Bracket) (id label : Text) : Text := id ++ (b.opening ++ '"' :: label ++ '"' :: b.closing)

/-! ### Parentheses -/

theorem count_pass (t : Text) : (pass t).count '(' ≤ (repairAsides t).count '(' := by
  let u := dropTrailingTokens (dropFences (repairAsides t))
  calc (pass t).count '('
    _ ≤ (dropNoiseLines (collapseBlanks u)).count '(' := (trim_isInfix _).sublist.count_le _
    _ ≤ (collapseBlanks u).count '(' := (dropNoiseLines_sublist _).count_le _
    _ = u.count '(' := count_collapse (by decide) u
    _ ≤ (dropFences (repairAsides t)).count '(' := (dropTrailingTokens_sublist _).count_le _
    _ ≤ (repairAsides t).count '(' := (dropFences_sublist _).count_le _

theorem count_passes (n : Nat) (t : Text) : (pass^[n] t).count '(' ≤ t.count '(' := by
  induction n generalizing t with
  | zero => exact Nat.le_refl _
  | succ n ih =>
    obtain ⟨m, moves⟩ := repairAsides_moves t
    have := ih (pass t)
    have := count_pass t
    have := moves.1
    rw [Function.iterate_succ_apply]
    omega

/-- Where an aside is moved, its parentheses are not put back. -/
theorem count_repair_lt {t : Text} (changed : repairAsides (dropReturns t) ≠ dropReturns t) :
    (repair t).count '(' < (dropReturns t).count '(' := by
  obtain ⟨n, moves⟩ := repairAsides_moves (dropReturns t)
  have some : n ≠ 0 := fun zero => changed (moves.2.2 zero)
  have run : repair t = pass^[weight (dropReturns t)] (pass (dropReturns t)) := settle_eq_iterate pass _ _
  have := count_passes (weight (dropReturns t)) (pass (dropReturns t))
  have := count_pass (dropReturns t)
  have := moves.1
  rw [run]
  omega

/-- A node that a text declares has its label there with delimiters of its shape in front. -/
theorem count_of_declared {t : Text} {n : Node} (declared : ∃ line ∈ t.lines, n ∈ declarations line.trim) :
    ∃ b ∈ Bracket.all, b.shape = n.shape ∧ b.opening.count '(' + n.label.count '(' ≤ t.count '(' := by
  obtain ⟨line, inside, member⟩ := declared
  rw [declarations_eq_sites] at member
  obtain ⟨s, site, rfl⟩ := List.mem_map.1 member
  have stands := sites_stand _ s site
  obtain ⟨b, body, reads⟩ := stands.reads
  have label : s.node.label <:+: body := by
    rw [reads.node]
    exact unquote_isInfix body
  have place : s.declaration <:+: line.trim :=
    (show s.declaration <:+: s.id ++ s.declaration ++ s.enclosed.rest from ⟨s.id, _, rfl⟩).trans stands.place.isInfix
  obtain ⟨row, rowInside, initial⟩ := linesOfRows_subset inside
  have row' : row.count '(' ≤ t.count '(' := by
    have whole : row <:+: t := (infix_rows (newline_not_mem_rows rowInside) t).2 ⟨row, rowInside, List.infix_rfl⟩
    exact whole.sublist.count_le _
  refine ⟨b, reads.known, by rw [reads.node], ?_⟩
  calc b.opening.count '(' + s.node.label.count '('
    _ ≤ b.opening.count '(' + body.count '(' := Nat.add_le_add_left (label.sublist.count_le _) _
    _ ≤ s.declaration.count '(' := by simp only [reads.text, List.count_append]; omega
    _ ≤ line.count '(' := (place.trans (trim_isInfix line)).sublist.count_le _
    _ ≤ t.count '(' := (initial.sublist.count_le _).trans row'

/-! ### Bodies of quoted labels -/

/-- A label that can be quoted and that repair has no other reason to change. -/
structure Quotable (label : Text) : Prop where
  trimmed : label.trim = label
  unquoted : '"' ∉ label
  single : '\n' ∉ label
  fenceless : ¬ fence <:+: label
  spaced : collapseBlanks label = label

instance (label : Text) : Decidable (Quotable label) :=
  decidable_of_iff
    (label.trim = label ∧ '"' ∉ label ∧ '\n' ∉ label ∧ ¬ fence <:+: label ∧ collapseBlanks label = label)
    ⟨fun all => ⟨all.1, all.2.1, all.2.2.1, all.2.2.2.1, all.2.2.2.2⟩,
      fun plain => ⟨plain.trimmed, plain.unquoted, plain.single, plain.fenceless, plain.spaced⟩⟩

/-- What square brackets may hold of a quoted label and its delimiters. -/
def quotedBodies (label : Text) : List Text :=
  let quoted := '"' :: label ++ ['"']
  [quoted, '(' :: quoted ++ [')'], '/' :: quoted ++ ['/'], '\\' :: quoted ++ ['\\']]

/-- In slashes or in parentheses, a quoted body stays. -/
theorem repairBody_quoted (label : Text) : ∀ body ∈ quotedBodies label, repairBody body = body := by
  have quoted : moveAside ('"' :: label ++ ['"']) = none := by
    rw [moveAside_eq_none]
    left
    simp [isQuoted, trimStart, isWhite]
  have slashes : ∀ slash ∈ ['/', '\\'], repairBody (slash :: ('"' :: label ++ ['"']) ++ [slash]) =
      slash :: ('"' :: label ++ ['"']) ++ [slash] := by
    intro slash member
    rw [repairBody_eq_self, slashed?_slashes member]
    exact quoted
  simp only [quotedBodies, List.forall_mem_cons, List.not_mem_nil, false_imp_iff, implies_true, and_true]
  refine ⟨?_, ?_, slashes '/' (by decide), slashes '\\' (by decide)⟩
  · rw [repairBody_eq_self, slashed?_of_head (by simp) (by simp)]
    exact quoted
  · rw [repairBody_eq_self, slashed?_of_head (by simp) (by simp), moveAside_eq_none]
    right
    left
    simp [isParenthesized, List.getLast?_cons]

theorem quotedBodies_inBody {label : Text} (flat : ∀ m ∈ ['[', ']', '\n'], m ∉ label) :
    ∀ body ∈ quotedBodies label, ∀ c ∈ body, inBody c := by
  have marks : ∀ c ∈ ['"', '(', ')', '/', '\\'], inBody c := List.all_iff_forall_prop.1 (by decide)
  have inner : ∀ c ∈ label, inBody c := by
    intro c member
    have other : ∀ m ∈ ['[', ']', '\n'], c ≠ m := fun m mark same => flat m mark (same ▸ member)
    simp [inBody, other '[' (by decide), other ']' (by decide), other '\n' (by decide)]
  intro body member c inside
  have either : c ∈ ['"', '(', ')', '/', '\\'] ∨ c ∈ label := by
    simp only [quotedBodies, List.mem_cons, List.not_mem_nil, or_false] at member
    rcases member with rfl | rfl | rfl | rfl
    all_goals
      simp only [List.mem_append, List.mem_cons, List.not_mem_nil, or_false] at inside ⊢
      grind only
  exact either.elim (marks c) (inner c)

/-! ### The whole line -/

theorem quotedForm_single {b : Bracket} (known : b ∈ Bracket.all) {label : Text} (single : '\n' ∉ label) :
    '\n' ∉ b.opening ++ '"' :: label ++ '"' :: b.closing := by
  have delimiters : ∀ b ∈ Bracket.all, '\n' ∉ b.opening ∧ '\n' ∉ b.closing := by decide
  simp [delimiters b known, single]

section
variable {id : Text} (valid : isId id) {b : Bracket} (known : b ∈ Bracket.all) {label : Text}
include valid known

/-- The delimiters make one body, or none. -/
theorem quotedForm_body (opening : '[' ∉ label) :
    '[' ∉ quotedForm b id label ∨ ∃ s, ∃ x ∈ quotedBodies label, ∃ y,
      quotedForm b id label = s ++ '[' :: (x ++ ']' :: y) ∧ '[' ∉ s ∧ '[' ∉ y := by
  have noId : '[' ∉ id := fun member => idChar_ne (isId_run valid _ member) (d := '[') (by decide) rfl
  simp only [Bracket.all, List.mem_cons, List.not_mem_nil, or_false] at known
  rcases known with rfl | rfl | rfl | rfl | rfl | rfl | rfl | rfl | rfl
  case inr.inr.inr.inl =>
    exact .inr ⟨id, '(' :: ('"' :: label ++ ['"']) ++ [')'], by simp [quotedBodies], [], by simp [quotedForm],
      noId, by simp⟩
  case inr.inr.inr.inr.inl =>
    exact .inr ⟨id ++ ['('], '"' :: label ++ ['"'], by simp [quotedBodies], [')'], by simp [quotedForm],
      by simp [noId], by simp⟩
  case inr.inr.inr.inr.inr.inr.inl =>
    exact .inr ⟨id, '/' :: ('"' :: label ++ ['"']) ++ ['/'], by simp [quotedBodies], [], by simp [quotedForm],
      noId, by simp⟩
  case inr.inr.inr.inr.inr.inr.inr.inl =>
    exact .inr ⟨id, '\\' :: ('"' :: label ++ ['"']) ++ ['\\'], by simp [quotedBodies], [], by simp [quotedForm],
      noId, by simp⟩
  case inr.inr.inr.inr.inr.inr.inr.inr =>
    exact .inr ⟨id, '"' :: label ++ ['"'], by simp [quotedBodies], [], by simp [quotedForm], noId, by simp⟩
  all_goals exact .inl (by simp [quotedForm, noId, opening])

/-- Without square brackets in the label all bodies of the line stay. -/
theorem repairBody_of_flat (flat : ∀ m ∈ ['[', ']', '\n'], m ∉ label) {body : Text}
    (holds : Holds (quotedForm b id label) body) : repairBody body = body := by
  rcases quotedForm_body valid known (flat '[' (by decide)) with none | ⟨s, x, member, y, split, front, behind⟩
  · obtain ⟨-, c, -, inside⟩ := holds
    exact absurd (inside.subset (by simp)) none
  · rw [split] at holds
    rw [holds_only front (quotedBodies_inBody flat x member) behind holds]
    exact repairBody_quoted label x member

theorem count_quotedForm : (quotedForm b id label).count '(' = b.opening.count '(' + label.count '(' := by
  have noId : id.count '(' = 0 :=
    List.count_eq_zero.2 fun member => idChar_ne (isId_run valid _ member) (d := '(') (by decide) rfl
  have closing : ∀ b ∈ Bracket.all, b.closing.count '(' = 0 := by decide
  simp [quotedForm, noId, closing b known]

/-- A text that is read as the node of the label has as many parentheses as its delimiters and the label. -/
theorem count_of_read {t : Text} (read : Flowchart.parse t = .ok ⟨[⟨id, label, b.shape⟩], []⟩) :
    (quotedForm b id label).count '(' ≤ t.count '(' := by
  rw [count_quotedForm valid known]
  rcases Graph.bare_or_declared read List.mem_cons_self with bare | declared
  · obtain ⟨same, shape⟩ : label = id ∧ b.shape = .rectangle := by simpa [Node.bare] using bare
    have opening : ∀ b ∈ Bracket.all, b.shape = .rectangle → b.opening.count '(' = 0 := by decide
    have noId : '(' ∉ id := fun member => idChar_ne (isId_run valid _ member) (d := '(') (by decide) rfl
    rw [opening b known shape, same, List.count_eq_zero.2 noId]
    exact Nat.zero_le _
  · obtain ⟨b', known', shape, bound⟩ := count_of_declared declared
    have same : ∀ b ∈ Bracket.all, ∀ b' ∈ Bracket.all, b'.shape = b.shape →
        b'.opening.count '(' = b.opening.count '(' := by
      decide
    rwa [same b known b' known' shape] at bound

variable (plain : Quotable label)
include plain

theorem parse_quotedForm : Flowchart.parse (quotedForm b id label) = .ok ⟨[⟨id, label, b.shape⟩], []⟩ := by
  have taken := takeShape_quoted known plain.trimmed plain.unquoted []
  rw [List.append_nil] at taken
  exact parse_alone valid taken (quotedForm_single known plain.single)

theorem fenceless_quotedForm : ¬ fence <:+: quotedForm b id label := by
  have delimiters : ∀ b ∈ Bracket.all, '\x60' ∉ b.opening ∧ '\x60' ∉ b.closing := by decide
  have split : quotedForm b id label = (id ++ b.opening ++ ['"']) ++ label ++ ('"' :: b.closing) := by simp [quotedForm]
  rw [split, fence_front (by simp [delimiters b known]),
    fence_behind (by simp [delimiters b known, tick_not_mem_id valid])]
  exact plain.fenceless

/-- No pipe outside the quotes opens an edge label. -/
theorem settled_quotedForm :
    Settled (quotedForm b id label) ↔ ∀ body, Holds (quotedForm b id label) body → repairBody body = body := by
  have apart : ∀ m ∈ punctuation, m ∉ id := fun m gone member => idChar_ne (isId_run valid m member) gone rfl
  have delimiters : ∀ b ∈ Bracket.all,
      ('|' ∉ b.opening ∧ '"' ∉ b.opening) ∧ '|' ∉ b.closing ∧ '"' ∉ b.closing := by decide
  obtain ⟨opening, closing⟩ := delimiters b known
  have split : quotedForm b id label = id ++ (b.opening ++ ('"' :: label ++ ['"'] ++ b.closing)) := by simp [quotedForm]
  have passed : Passed (quotedForm b id label) := by
    rw [split]
    exact (passed_plain (apart '|' (by decide)) (apart '"' (by decide))).append
      ((passed_plain opening.1 opening.2).append
        ((passed_quoted plain.unquoted).append (passed_plain closing.1 closing.2)))
  rw [settled_of_no_label passed.none, repairLabels_eq_self]

end

/-- A node with a quoted label is read with that label. Repaired, it is read as
    before just when repair leaves the bodies between square brackets alone that it
    finds on the line; and it does so if the label has no square brackets. -/
theorem parse_repair_quoted {id : Text} (valid : isId id) {b : Bracket} (known : b ∈ Bracket.all) {label : Text}
    (plain : Quotable label) :
    Flowchart.parse (quotedForm b id label) = .ok ⟨[⟨id, label, b.shape⟩], []⟩ ∧
      (Flowchart.parse (repair (quotedForm b id label)) = Flowchart.parse (quotedForm b id label) ↔
        ∀ body, Holds (quotedForm b id label) body → repairBody body = body) ∧
      ('[' ∉ label → ']' ∉ label →
        Flowchart.parse (repair (quotedForm b id label)) = Flowchart.parse (quotedForm b id label)) := by
  have read := parse_quotedForm valid known plain
  have single : '\n' ∉ quotedForm b id label := by
    have noId : '\n' ∉ id := fun member => idChar_ne (isId_run valid _ member) (d := '\n') (by decide) rfl
    exact fun member => (List.mem_append.1 member).elim noId (quotedForm_single known plain.single)
  have returns : dropReturns (quotedForm b id label) = quotedForm b id label :=
    dropReturns_eq_self fun found => single (found.subset (by decide))
  have settles : repairAsides (quotedForm b id label) = quotedForm b id label ↔
      ∀ body, Holds (quotedForm b id label) body → repairBody body = body := by
    rw [repairAsides_eq_self, rows_of_no_newline single, List.forall_mem_singleton,
      settled_quotedForm valid known plain]
  have stays : (∀ body, Holds (quotedForm b id label) body → repairBody body = body) →
      Flowchart.parse (repair (quotedForm b id label)) = Flowchart.parse (quotedForm b id label) := by
    intro bodies
    have settled : repairAsides (dropReturns (quotedForm b id label)) = dropReturns (quotedForm b id label) := by
      rw [returns, settles]
      exact bodies
    rw [parse_repair (fenceless_quotedForm valid known plain) settled read, read]
    simp [Graph.collapsed, Node.collapsed, plain.spaced]
  refine ⟨read, ⟨fun same => ?_, stays⟩, fun opening closing => stays fun body => ?_⟩
  · rw [read] at same
    have enough := count_of_read valid known same
    rw [← settles]
    by_contra changed
    have fewer := count_repair_lt (t := quotedForm b id label) (by rwa [returns])
    rw [returns] at fewer
    exact Nat.not_lt.2 enough fewer
  · have flat : ∀ m ∈ ['[', ']', '\n'], m ∉ label := by simp [opening, closing, plain.single]
    exact repairBody_of_flat valid known flat

/-- A label with asides, a pipe and slashes. -/
def inscription : Text := "a (b) | /c/ -- (d)".toList

/-- The delimiters of a cylinder. -/
def cylindrical : Bracket := ⟨['[', '('], [')', ']'], .cylinder⟩

theorem inscription_stays :
    isId ['½'] ∧ cylindrical ∈ Bracket.all ∧ Quotable inscription ∧ '[' ∉ inscription ∧ ']' ∉ inscription ∧
      quotedForm cylindrical ['½'] inscription = "½[(\"a (b) | /c/ -- (d)\")]".toList ∧
      Flowchart.parse (repair (quotedForm cylindrical ['½'] inscription)) =
        .ok ⟨[⟨['½'], inscription, .cylinder⟩], []⟩ := by
  have valid : isId ['½'] := by decide +kernel
  have known : cylindrical ∈ Bracket.all := by decide
  have plain : Quotable inscription := by decide +kernel
  have flat : '[' ∉ inscription ∧ ']' ∉ inscription := by decide +kernel
  obtain ⟨read, -, same⟩ := parse_repair_quoted valid known plain
  exact ⟨valid, known, plain, flat.1, flat.2, by decide +kernel, (same flat.1 flat.2).trans read⟩

/-- A quoted label may hold a body of its own, with an aside. -/
theorem nested_body_moved :
    isId ['A'] ∧ Quotable "f[x (y)]".toList ∧
      quotedForm (.ofShape .rectangle) ['A'] "f[x (y)]".toList = "A[\"f[x (y)]\"]".toList ∧
      Flowchart.parse "A[\"f[x (y)]\"]".toList = .ok ⟨[⟨['A'], "f[x (y)]".toList, .rectangle⟩], []⟩ ∧
      Flowchart.parse (repair "A[\"f[x (y)]\"]".toList) = .ok ⟨[⟨['A'], "f[x - y]".toList, .rectangle⟩], []⟩ ∧
      Flowchart.parse (repair "A[\"f[x (y)]\"]".toList) ≠ Flowchart.parse "A[\"f[x (y)]\"]".toList := by
  decide +kernel

end Flowchart.Repair
