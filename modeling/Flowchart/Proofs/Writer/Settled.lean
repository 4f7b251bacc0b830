import Flowchart.Proofs.Repair.Bodies
import Flowchart.Proofs.Writer.Line

/-!
Written lines have no aside to move, whatever the labels say (`settled_edge`, `settled_node`). A node label with a
parenthesis in it stands in quotes, and the delimiters around it show which kind of body it is (`repairBody_body`);
a label between pipes is passed over, and a pipe in a node label opens none because it stands in quotes as well.
-/
namespace Flowchart.Writer
open Text Line Repair

/-! ### Bodies -/

/-- A character that stands in a label without quotes. -/
theorem plain_apart {label : Text} (plain : label.any needsQuotes = false) {c : Char} (special : needsQuotes c) :
    c ∉ label := by
  intro member
  rw [List.any_eq_true.2 ⟨c, member, special⟩] at plain
  cases plain

theorem moveAside_inside (label : Text) : moveAside (inside label) = none := by
  rw [moveAside_eq_none]
  cases quoted : label.any needsQuotes with
  | true =>
    left
    simp [inside, quoted, isQuoted, trimStart, isWhite]
  | false =>
    right
    right
    intro upTo after found open'
    have same : inside label = label := by simp [inside, quoted]
    rw [same] at found
    apply plain_apart quoted (c := '(') (by decide)
    rw [cut_eq_some found]
    simp [open']

/-- What stands between the square brackets of a shape that has them. -/
def body (s : Shape) (label : Text) : Text :=
  match s with
  | .parallelogram => '/' :: inside label ++ ['/']
  | .cylinder => '(' :: inside label ++ [')']
  | _ => inside label

theorem inside_head {c : Char} (special : needsQuotes c) (label : Text) : (inside label).head? ≠ some c := by
  cases quoted : label.any needsQuotes with
  | true =>
    have same : inside label = '"' :: label ++ ['"'] := by simp [inside, quoted]
    rw [same]
    intro first
    obtain rfl : '"' = c := by simpa using first
    cases special
  | false =>
    have same : inside label = label := by simp [inside, quoted]
    rw [same]
    intro first
    exact plain_apart quoted special (List.mem_of_mem_head? first)

theorem repairBody_body (s : Shape) (label : Text) : repairBody (body s label) = body s label := by
  rw [repairBody_eq_self]
  have plain : moveAside (((slashed? (inside label)).map Prod.snd).getD (inside label)) = none := by
    rw [slashed?_of_head (inside_head (by decide) label) (inside_head (by decide) label)]
    exact moveAside_inside label
  cases s with
  | parallelogram =>
    have slashes : slashed? ('/' :: inside label ++ ['/']) = some ('/', inside label) := by
      have found : between? ['/'] ['/'] ('/' :: inside label ++ ['/']) = some (inside label) :=
        between?_append ['/'] ['/'] (inside label)
      rw [slashed?, found]
    rw [body, slashes]
    exact moveAside_inside label
  | cylinder =>
    have none : slashed? ('(' :: inside label ++ [')']) = Option.none := slashed?_of_head (by simp) (by simp)
    rw [body, none, moveAside_eq_none]
    right
    left
    simp [isParenthesized, List.getLast?_cons]
  | rectangle => exact plain
  | diamond => exact plain
  | rounded => exact plain
  | hexagon => exact plain
  | circle => exact plain

/-! ### Labels of nodes -/

theorem inside_inBody (label : Text) : ∀ c ∈ inside (labelText label), inBody c := by
  intro c member
  have either : c = '"' ∨ c ∈ labelText label := by
    unfold inside at member
    split at member
    · simpa [or_comm] using member
    · exact .inr member
  rcases either with rfl | there
  · decide
  · have other : ∀ mark ∈ labelMarks, c ≠ mark := by
      rintro mark gone rfl
      exact labelText_apart gone label there
    simp only [inBody, Bool.and_eq_true, decide_eq_true_eq]
    exact ⟨⟨other _ (by decide), other _ (by decide)⟩, other _ (by decide)⟩

theorem body_inBody (s : Shape) (label : Text) : ∀ c ∈ body s (labelText label), inBody c := by
  have inner := inside_inBody label
  have wrapped : ∀ {a b : Char}, inBody a → inBody b → ∀ c ∈ a :: inside (labelText label) ++ [b], inBody c := by
    intro a b first last c member
    rcases List.mem_append.1 member with front | back
    · rcases List.mem_cons.1 front with rfl | there
      · exact first
      · exact inner c there
    · rwa [List.mem_singleton.1 back]
  cases s with
  | parallelogram => exact wrapped (by decide) (by decide)
  | cylinder => exact wrapped (by decide) (by decide)
  | rectangle => exact inner
  | diamond => exact inner
  | rounded => exact inner
  | hexagon => exact inner
  | circle => exact inner

/-- The delimiters of a shape are square brackets around a body, or hold no square bracket that opens. -/
theorem bracketed_body (n : Node) :
    bracketed n = '[' :: body n.shape (labelText n.label) ++ [']'] ∨ '[' ∉ bracketed n := by
  have clean : '[' ∉ inside (labelText n.label) := by
    intro member
    have := inside_inBody n.label _ member
    cases this
  rw [bracketed_eq]
  cases n.shape with
  | rectangle => exact .inl rfl
  | parallelogram => left; simp [Bracket.ofShape, body]
  | cylinder => left; simp [Bracket.ofShape, body]
  | diamond => right; simp [Bracket.ofShape, clean]
  | rounded => right; simp [Bracket.ofShape, clean]
  | hexagon => right; simp [Bracket.ofShape, clean]
  | circle => right; simp [Bracket.ofShape, clean]

theorem Apart.head {t : Text} (apart : Apart t) : t.head? ≠ some '[' := by
  intro first
  cases apart _ first

theorem repairLabels_form {n : Node} (valid : isId n.id) (full : Bool) {t : Text} (apart : Apart t) :
    repairLabels (form full n ++ t) = form full n ++ repairLabels t := by
  obtain ⟨c, r, shape, -, run⟩ := isId_cons valid
  have cleanId : ∀ d ∈ n.id, d ≠ '[' := fun d member => idChar_ne (isId_run valid d member) (by decide)
  have clean : '[' ∉ r := fun member => idChar_ne (run _ member) (d := '[') (by decide) rfl
  cases full with
  | false =>
    have id : form false n = c :: r := shape
    rw [id, repairLabels_plain clean apart.head]
  | true =>
    have whole : form true n = n.id ++ bracketed n := rfl
    rcases bracketed_body n with square | none
    · obtain ⟨front, d, split⟩ : ∃ front d, n.id = front ++ [d] :=
        ⟨_, _, (List.dropLast_append_getLast (by rw [shape]; exact List.cons_ne_nil c r)).symm⟩
      have body := repairLabels_bracket (body_inBody n.shape n.label) (repairBody_body _ _) apart.head d
      have last : d ≠ '[' := cleanId d (by rw [split]; simp)
      have cleanFront : '[' ∉ front := fun member => cleanId '[' (by rw [split]; simp [member]) rfl
      have passed := repairLabels_apart cleanFront
        (t := d :: '[' :: Writer.body n.shape (labelText n.label) ++ ']' :: t) (by simpa using last)
      rw [body] at passed
      rw [whole, square, split]
      simpa using passed
    · rw [whole, shape, List.cons_append, repairLabels_plain (by simp [clean, none]) apart.head]

/-! ### Labels of edges -/

theorem passed_inside (label : Text) : Passed (inside (labelText label)) := by
  have noQuote : '"' ∉ labelText label := labelText_apart (by decide) label
  cases quoted : (labelText label).any needsQuotes with
  | true =>
    have same : inside (labelText label) = '"' :: labelText label ++ ['"'] := by simp [inside, quoted]
    rw [same]
    exact passed_quoted noQuote
  | false =>
    have same : inside (labelText label) = labelText label := by simp [inside, quoted]
    have noPipe : '|' ∉ labelText label := plain_apart quoted (by decide)
    rw [same]
    exact passed_plain noPipe noQuote

theorem passed_form {n : Node} (valid : isId n.id) (full : Bool) : Passed (form full n) := by
  have apart : ∀ mark ∈ punctuation, mark ∉ n.id :=
    fun mark gone member => idChar_ne (isId_run valid mark member) gone rfl
  have id : Passed n.id := passed_plain (apart '|' (by decide)) (apart '"' (by decide))
  have delimiters : Passed (Bracket.ofShape n.shape).opening ∧ Passed (Bracket.ofShape n.shape).closing := by
    cases n.shape <;> exact ⟨passed_plain (by decide) (by decide), passed_plain (by decide) (by decide)⟩
  cases full with
  | false => exact id
  | true =>
    have whole : form true n = n.id ++ bracketed n := rfl
    rw [whole, bracketed_eq]
    exact id.append ((delimiters.1.append (passed_inside n.label)).append delimiters.2)

/-- A node that ends a line, in full or by its id. -/
theorem settled_form {n : Node} (valid : isId n.id) (full : Bool) : Settled (form full n) := by
  have labels := repairLabels_form valid full apart_nil
  rw [List.append_nil, repairLabels_nil, List.append_nil] at labels
  exact (settled_of_no_label (passed_form valid full).none).2 labels

theorem settled_node {n : Node} (valid : isId n.id) : Settled (indent ++ fullForm n) :=
  (settled_front (by simp [White, indent, isWhite])).2 (settled_form valid true)

/-- The line of an edge. -/
theorem settled_edge {source target : Node} (sourceValid : isId source.id) (targetValid : isId target.id) (e : Edge)
    (sourceFull targetFull : Bool) : Settled (indent ++ edgeBody sourceFull targetFull source target e) := by
  have white : White [' '] := by simp [White, isWhite]
  have front : Passed (form sourceFull source ++ ' ' :: token e.animated) := by
    refine (passed_form sourceValid sourceFull).append (passed_plain ?_ ?_)
    all_goals cases e.animated <;> decide
  have labels : ∀ {t : Text}, t.head? ≠ some '[' →
      repairLabels (form sourceFull source ++ ' ' :: token e.animated ++ t) =
        form sourceFull source ++ ' ' :: token e.animated ++ repairLabels t := by
    intro t other
    have clean : '[' ∉ token e.animated := by cases e.animated <;> decide
    rw [List.append_assoc, List.cons_append, repairLabels_form sourceValid sourceFull (apart_space _),
      ← List.cons_append, repairLabels_plain clean other, List.append_assoc]
  have target' : Settled (' ' :: form targetFull target) :=
    (settled_front white).2 (settled_form targetValid targetFull)
  refine (settled_front (by simp [White, indent, isWhite])).2 ?_
  cases label : writtenLabel e with
  | none =>
    have line : edgeBody sourceFull targetFull source target e =
        form sourceFull source ++ ' ' :: token e.animated ++ ' ' :: form targetFull target := by
      simp [edgeBody, connector_eq, label, piped]
    have passed : Passed (' ' :: form targetFull target) :=
      (passed_plain (s := [' ']) (by decide) (by decide)).append (passed_form targetValid targetFull)
    rw [line, settled_of_no_label (front.append passed).none, labels (by simp)]
    rw [settled_of_no_label passed.none] at target'
    rw [target']
  | some label' =>
    obtain ⟨-, -, clean⟩ := writtenLabel_eq_some label
    have line : edgeBody sourceFull targetFull source target e =
        form sourceFull source ++ ' ' :: token e.animated ++ '|' ::
          (label' ++ '|' :: ' ' :: form targetFull target) := by
      simp [edgeBody, connector_eq, label, piped]
    have found := front ('|' :: (label' ++ '|' :: ' ' :: form targetFull target))
    rw [edgeLabel?, piped?, if_pos (by decide), cut_char (clean '|' (by decide))] at found
    have alone := labels (t := []) (by simp)
    rw [repairLabels_nil, List.append_nil] at alone
    rw [line, settled_of_label found]
    exact ⟨by simpa using alone, target'⟩

end Flowchart.Writer
