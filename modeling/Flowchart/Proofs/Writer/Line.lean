import Flowchart.Parse
import Flowchart.Proofs.Text.Lines
import Flowchart.Proofs.Writer.Pieces

/-!
Written lines. A written line starts with an id and with no directive, so it is not passed over:
a node whose id is a directive stands there in full, and the first word of a declaration holds a
delimiter (`startsDirective_form`). The line of an edge states its link and the ends that it
shows in full (`statements_edgeLine`); the line of a node alone states that node (`statements_nodeLine`).
-/
namespace Flowchart.Writer
open Text Line

/-! ### Lines that are not passed over -/

theorem startsInk_id {id : Text} (valid : isId id) (t : Text) : StartsInk (id ++ t) := by
  obtain ⟨c, r, rfl, idChar, -⟩ := isId_cons valid
  exact startsInk_cons (idChar_ink idChar) _

theorem firstWord_id {id t : Text} (valid : isId id) (apart : Apart t) : firstWord (id ++ t) = id := by
  have run : ∀ c ∈ id, (!isWhite c) = true := fun c member => by simpa using idChar_ink (isId_run valid c member)
  rw [firstWord, trimStart_eq_self (startsInk_id valid t), List.takeWhile_append_of_pos run]
  cases t with
  | nil => simp
  | cons c r =>
    obtain rfl : c = ' ' := apart c rfl
    simp [isWhite]

theorem opening_cons (s : Shape) :
    ∃ m rest, (Bracket.ofShape s).opening = m :: rest ∧ ¬ isWhite m ∧ ∀ word ∈ directives, m ∉ word := by
  cases s <;> exact ⟨_, _, rfl, by decide, by decide +kernel⟩

/-- The first word goes on behind an id when ink follows. -/
theorem firstWord_mark {id : Text} (valid : isId id) {m : Char} (ink : ¬ isWhite m) (t : Text) :
    firstWord (id ++ m :: t) = id ++ m :: t.takeWhile (!isWhite ·) := by
  have run : ∀ c ∈ id ++ [m], (!isWhite c) = true := by
    intro c member
    rcases List.mem_append.1 member with idChar | last
    · simpa using idChar_ink (isId_run valid c idChar)
    · simpa [List.mem_singleton.1 last] using ink
  rw [firstWord, trimStart_eq_self (startsInk_id valid _), List.append_cons, List.takeWhile_append_of_pos run,
    List.append_assoc, List.singleton_append]

/-- No directive holds a delimiter. -/
theorem startsDirective_mark {id : Text} (valid : isId id) {m : Char} (ink : ¬ isWhite m)
    (foreign : ∀ word ∈ directives, m ∉ word) (t : Text) : startsDirective (id ++ m :: t) = false := by
  rw [startsDirective, firstWord_mark valid ink]
  by_contra directive
  have member : id ++ m :: t.takeWhile (!isWhite ·) ∈ directives := by simpa using directive
  exact foreign _ member (by simp)

/-- A node that is written in full where its id is a directive starts no directive. -/
theorem startsDirective_form {n : Node} (valid : isId n.id) {full : Bool} (safe : startsDirective n.id → full)
    {t : Text} (apart : Apart t) : startsDirective (form full n ++ t) = false := by
  cases full with
  | true =>
    obtain ⟨m, rest, opening, ink, foreign⟩ := opening_cons n.shape
    have split : form true n ++ t =
        n.id ++ m :: (rest ++ inside (labelText n.label) ++ (Bracket.ofShape n.shape).closing ++ t) := by
      simp [form, fullForm, bracketed_eq, opening]
    rw [split]
    exact startsDirective_mark valid ink foreign _
  | false =>
    have alone : firstWord n.id = n.id := by simpa using firstWord_id valid apart_nil
    have split : form false n ++ t = n.id ++ t := rfl
    by_contra directive
    rw [startsDirective, split, firstWord_id valid apart, Bool.not_eq_false] at directive
    have := safe (by rw [startsDirective, alone]; exact directive)
    cases this

/-- A line that starts with an id states what it declares and links. -/
theorem statementOf_id {t : Text} {c : Char} {r : Text} (shape : t = c :: r) (idChar : isIdChar c)
    (plain : startsDirective t = false) (stated : declarations t ≠ [] ∨ (link? t).isSome) :
    statementOf t = .content (declarations t) (link? t) := by
  have filled : t.isEmpty = false := by simp [shape]
  have noComment : isComment t = false := by
    rw [shape]
    unfold isComment
    split
    · next same => exact absurd (List.cons.inj same).1 (idChar_ne idChar (by decide))
    · rfl
  have readable : ((declarations t).isEmpty && (link? t).isNone) = false := by
    rcases stated with declares | links
    · simp [declares]
    · simp [Option.isNone_eq_false_iff.2 links]
  unfold statementOf
  rw [filled, noComment, plain, readable]
  simp

/-! ### Reading the lines -/

theorem endsInk_id {id : Text} (valid : isId id) : EndsInk id :=
  fun c last => idChar_ink (isId_run valid c (List.mem_of_getLast? last))

theorem form_endsInk {n : Node} (valid : isId n.id) (full : Bool) : form full n ≠ [] ∧ EndsInk (form full n) := by
  obtain ⟨c, r, shape, -⟩ := form_cons valid full
  refine ⟨by rw [shape]; exact List.cons_ne_nil _ _, ?_⟩
  cases full with
  | true => exact endsInk_append (bracketed_ne_nil n) (bracketed_endsInk n)
  | false => exact endsInk_id valid

theorem form_no_newline {n : Node} (valid : isId n.id) (full : Bool) : '\n' ∉ form full n := by
  have noId : '\n' ∉ n.id := fun member => idChar_ne (isId_run valid _ member) (d := '\n') (by decide) rfl
  have noLabel : '\n' ∉ inside (labelText n.label) := by
    have clean : '\n' ∉ labelText n.label := labelText_apart (by decide) n.label
    unfold inside
    split
    · simp [clean]
    · exact clean
  cases full with
  | true =>
    have noBracket : '\n' ∉ bracketed n := by
      rw [bracketed_eq]
      cases n.shape <;> simp [Bracket.ofShape, noLabel]
    simp [form, fullForm, noId, noBracket]
  | false => exact noId

theorem connector_no_newline (e : Edge) : '\n' ∉ connector e := by
  have noToken : '\n' ∉ token e.animated := by cases e.animated <;> decide
  rw [connector_eq]
  cases found : writtenLabel e with
  | none => simp [piped, noToken]
  | some label =>
    obtain ⟨-, -, clean⟩ := writtenLabel_eq_some found
    simp [piped, noToken, clean '\n' (by decide)]

/-- A line with an indent is read without it, and the lines behind it on their own. -/
theorem statements_line {body : Text} (single : '\n' ∉ body) {c : Char} {r : Text} (shape : body = c :: r)
    (idChar : isIdChar c) (ends : EndsInk body) (t : Text) :
    statements (indent ++ body ++ '\n' :: t) = statementOf body :: statements t := by
  have filled : body ≠ [] := by rw [shape]; exact List.cons_ne_nil _ _
  have starts : StartsInk body := shape ▸ startsInk_cons (idChar_ink idChar) r
  have oneLine : '\n' ∉ indent ++ body := by simp [indent, single]
  have white : White indent := by simp [White, indent, isWhite]
  rw [statements, lines_cons_line oneLine, dropReturn_of_endsInk (endsInk_append filled ends), List.map_cons,
    Line.parse, trim_white_append white, trim_eq_self starts ends]
  rfl

theorem firstOrId_eq (names : List Text) (n : Node) : firstOrId names n = form (!names.contains n.id) n := by
  unfold firstOrId form
  cases names.contains n.id <;> rfl

theorem lineStart_eq (names : List Text) (n : Node) :
    lineStart names n = form (startsDirective n.id || !names.contains n.id) n := by
  unfold lineStart
  cases directive : startsDirective n.id with
  | true => rfl
  | false => exact firstOrId_eq names n

/-- Behind the indent, the line of an edge holds its body. -/
theorem edgeLine_eq (names : List Text) (source target : Node) (e : Edge) :
    edgeLine names source target e =
      indent ++ edgeBody (startsDirective source.id || !names.contains source.id)
        (!(source.id :: names).contains target.id) source target e ++ ['\n'] := by
  simp [edgeLine, edgeBody, lineStart_eq, firstOrId_eq]

theorem nodeLines_cons (n : Node) (rest : List Node) :
    ((n :: rest).flatMap fun n => indent ++ fullForm n ++ ['\n']) =
      indent ++ fullForm n ++ '\n' :: rest.flatMap fun n => indent ++ fullForm n ++ ['\n'] := by simp

theorem edgeBody_cons {source : Node} (valid : isId source.id) (target : Node) (e : Edge)
    (sourceFull targetFull : Bool) : ∃ c r, edgeBody sourceFull targetFull source target e = c :: r ∧ isIdChar c := by
  obtain ⟨c, r, shape, idChar⟩ := form_cons valid sourceFull
  exact ⟨c, r ++ ' ' :: connector e ++ ' ' :: form targetFull target, by simp [edgeBody, shape], idChar⟩

theorem edgeBody_endsInk {target : Node} (valid : isId target.id) (source : Node) (e : Edge)
    (sourceFull targetFull : Bool) : EndsInk (edgeBody sourceFull targetFull source target e) := by
  obtain ⟨filled, ink⟩ := form_endsInk valid targetFull
  have last : edgeBody sourceFull targetFull source target e =
      (form sourceFull source ++ ' ' :: connector e ++ [' ']) ++ form targetFull target := by simp [edgeBody]
  rw [last]
  exact endsInk_append filled ink

section
variable {source target : Node} (sourceValid : isId source.id) (targetValid : isId target.id) (e : Edge)
include sourceValid targetValid

theorem edgeBody_no_newline (sourceFull targetFull : Bool) : '\n' ∉ edgeBody sourceFull targetFull source target e := by
  simp [edgeBody, form_no_newline sourceValid, form_no_newline targetValid, connector_no_newline]

/-- An edge states its link and the ends that stand there in full. -/
theorem statementOf_edge (fromSource : source.id = e.source) (toTarget : target.id = e.target) {sourceFull : Bool}
    (safe : startsDirective source.id → sourceFull) (targetFull : Bool) :
    statementOf (edgeBody sourceFull targetFull source target e) =
      .content (declared sourceFull source ++ declared targetFull target) (some (writtenLink e)) := by
  obtain ⟨c, r, first, idChar⟩ := edgeBody_cons sourceValid target e sourceFull targetFull
  have plain : startsDirective (edgeBody sourceFull targetFull source target e) = false := by
    rw [edgeBody_append]
    exact startsDirective_form sourceValid safe (apart_space _)
  have linked := takeLink_edge sourceValid targetValid fromSource toTarget sourceFull targetFull
  have read := declarations_edge sourceValid targetValid e sourceFull targetFull
  rw [statementOf_id first idChar plain (.inr (by simp [linked])), linked, read]

/-- The line of an edge names each end by an id from above or shows it in full. -/
theorem statements_edgeLine (fromSource : source.id = e.source) (toTarget : target.id = e.target) (names : List Text)
    (t : Text) :
    ∃ sourceFull targetFull : Bool, (sourceFull ∨ source.id ∈ names) ∧
      (targetFull ∨ target.id ∈ source.id :: names) ∧
      statements (edgeLine names source target e ++ t) =
        .content (declared sourceFull source ++ declared targetFull target) (some (writtenLink e)) :: statements t := by
  -- The source stands in full where its id would read as a directive, even if it is declared above.
  let sourceFull := startsDirective source.id || !names.contains source.id
  let targetFull := !(source.id :: names).contains target.id
  obtain ⟨c, r, first, idChar⟩ := edgeBody_cons sourceValid target e sourceFull targetFull
  have line : edgeLine names source target e ++ t =
      indent ++ edgeBody sourceFull targetFull source target e ++ '\n' :: t := by
    rw [edgeLine_eq, List.append_assoc _ ['\n'] t]
    rfl
  have single := edgeBody_no_newline sourceValid targetValid e sourceFull targetFull
  have ends := edgeBody_endsInk targetValid source e sourceFull targetFull
  have safe : startsDirective source.id → sourceFull := fun directive => by simp [sourceFull, directive]
  refine ⟨sourceFull, targetFull, ?_, ?_, ?_⟩
  · by_cases named : source.id ∈ names
    · exact .inr named
    · exact .inl (by simp [sourceFull, named])
  · by_cases named : target.id ∈ source.id :: names
    · exact .inr named
    · exact .inl (by simpa [targetFull] using named)
  · rw [line, statements_line single first idChar ends,
      statementOf_edge sourceValid targetValid e fromSource toTarget safe]

end

theorem statements_nodeLine {n : Node} (valid : isId n.id) (t : Text) :
    statements (indent ++ fullForm n ++ '\n' :: t) = .content [written n] none :: statements t := by
  obtain ⟨c, r, shape, idChar⟩ : ∃ c r, fullForm n = c :: r ∧ isIdChar c := form_cons valid true
  have plain : startsDirective (fullForm n) = false := by
    have read : startsDirective (form true n ++ []) = false := startsDirective_form valid (fun _ => rfl) apart_nil
    rwa [List.append_nil] at read
  have unlinked : link? (fullForm n) = none := by
    have read := takeEndpoint_form valid true detached_nil
    rw [List.append_nil] at read
    unfold link? takeLink
    rw [show fullForm n = form true n from rfl, read]
    rfl
  have read : declarations (fullForm n) = [written n] := declarations_alone valid true
  have line : statements (indent ++ fullForm n ++ '\n' :: t) = statementOf (fullForm n) :: statements t :=
    statements_line (form_no_newline valid true) shape idChar (form_endsInk valid true).2 t
  rw [line, statementOf_id shape idChar plain (.inl (by simp [read])), unlinked, read]

end Flowchart.Writer
