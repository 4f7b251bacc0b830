import Flowchart.Proofs.Line.Connectors
import Flowchart.Proofs.Line.Links
import Flowchart.Proofs.Writer.Declaration

/-!
The pieces of a written line. A node stands on a line in full or by its id (`form`), and either way it
is read as an end of a link (`takeEndpoint_form`); only in full it is read as a declaration
(`declarations_form`). A connector gives its label back and declares nothing, so that an edge is read
as the link that it is (`takeLink_edge`) and declares what stands at its ends in full (`declarations_edge`).
-/
namespace Flowchart.Writer
open Text Line

/-- The node that is read where a node is written. -/
def written (n : Node) : Node := { n with label := labelText n.label }

/-- The label that is read where an edge is written. -/
def writtenLabel (e : Edge) : Option Text := (e.label.map linkText).filter (!·.isEmpty)

/-- The link that is read where an edge is written. -/
def writtenLink (e : Edge) : Link :=
  ⟨e.source, e.target, writtenLabel e, if e.animated then .dotted else .solid⟩

/-- A node in full, or by its id. -/
def form (full : Bool) (n : Node) : Text := if full then fullForm n else n.id

/-- The declarations that are read where a node is written. -/
def declared (full : Bool) (n : Node) : List Node := if full then [written n] else []

theorem writtenLink_animated (e : Edge) : (writtenLink e).animated = e.animated := by
  cases shape : e.animated <;> simp [writtenLink, Link.animated, shape]

/-! ### Ids -/

theorem takeId_append {id t : Text} (valid : isId id) (stops : Stops t) : takeId (id ++ t) = (some id, t) := by
  have run := isId_run valid
  obtain ⟨c, r, rfl, -, -⟩ := isId_cons valid
  rw [takeId, takeWhile_id run stops, dropWhile_id run stops]
  rfl

theorem passBlanks_id {id t : Text} (valid : isId id) : passBlanks (id ++ t) = id ++ t := by
  obtain ⟨c, r, rfl, idChar, -⟩ := isId_cons valid
  simp [passBlanks, idChar_not_blank idChar]

theorem passBlanks_space (t : Text) : passBlanks (' ' :: t) = passBlanks t :=
  passBlanks_append_blanks (w := [' ']) (by simp [isBlank]) t

/-! ### The ends of a link -/

/-- Nothing of the text belongs to an id or a bracket pair in front of it. -/
structure Detached (t : Text) : Prop where
  stops : Stops t
  bare : takeShape t = (none, t)

/-- The text is over or goes on behind a space. -/
def Apart (t : Text) : Prop := ∀ c ∈ t.head?, c = ' '

theorem apart_nil : Apart [] := by simp [Apart]

theorem apart_space (t : Text) : Apart (' ' :: t) := by simp [Apart]

theorem detached_nil : Detached [] := ⟨by simp [Stops], rfl⟩

theorem detached_space (t : Text) : Detached (' ' :: t) := ⟨stops_cons (by decide), rfl⟩

theorem bracketed_stops (n : Node) (t : Text) : Stops (bracketed n ++ t) := by
  rw [bracketed_eq]
  cases n.shape <;> exact stops_cons (by decide)

/-- In full or not, a node is read as an end of a link. -/
theorem takeEndpoint_form {n : Node} (valid : isId n.id) (full : Bool) {t : Text} (detached : Detached t) :
    takeEndpoint (form full n ++ t) = (some n.id, t) := by
  unfold takeEndpoint
  cases full with
  | true =>
    have split : form true n ++ t = n.id ++ (bracketed n ++ t) := List.append_assoc _ _ _
    rw [split, passBlanks_id valid, takeId_append valid (bracketed_stops n t)]
    simp only [takeShape_bracketed]
  | false =>
    have split : form false n ++ t = n.id ++ t := rfl
    rw [split, passBlanks_id valid, takeId_append valid detached.stops]
    simp only [detached.bare]

theorem takeEndpoint_space (t : Text) : takeEndpoint (' ' :: t) = takeEndpoint t :=
  takeEndpoint_blanks (w := [' ']) (by simp [isBlank]) t

/-! ### The connector -/

def token (animated : Bool) : Text := if animated then ['-', '.', '-', '>'] else ['-', '-', '>']

def piped : Option Text → Text
  | some label => '|' :: label ++ ['|']
  | none => []

theorem connector_eq (e : Edge) : connector e = token e.animated ++ piped (writtenLabel e) := by
  unfold connector writtenLabel token
  cases e.label.map linkText with
  | none => simp [piped]
  | some label =>
    cases label with
    | nil => simp [Option.filter, piped]
    | cons c r => simp [Option.filter, piped]

theorem writtenLabel_eq_some {e : Edge} {label : Text} (found : writtenLabel e = some label) :
    label ≠ [] ∧ label.trim = label ∧ ∀ mark ∈ linkMarks, mark ∉ label := by
  obtain ⟨mapped, filled⟩ := Option.filter_eq_some_iff.1 found
  obtain ⟨raw, -, rfl⟩ := Option.map_eq_some_iff.1 mapped
  exact ⟨by simpa using filled, linkText_trim raw, fun mark gone => linkText_apart gone raw⟩

/-- The label of an edge is read back in front of a space and the next end. -/
theorem takeLabel_piped (e : Edge) {c : Char} (idChar : isIdChar c) (t : Text) :
    takeLabel (piped (writtenLabel e) ++ ' ' :: c :: t) = (writtenLabel e, ' ' :: c :: t) := by
  cases found : writtenLabel e with
  | none =>
    refine takeLabel_none ?_
    rw [piped, List.nil_append, passBlanks_space, passBlanks_ink (idChar_not_blank idChar)]
    simpa using idChar_ne idChar (d := '|') (by decide)
  | some label =>
    obtain ⟨filled, trimmed, clean⟩ := writtenLabel_eq_some found
    have read : linkLabel label = some label := by
      simp [linkLabel, unquote_of_no_quote trimmed (clean '"' (by decide)), filled]
    have taken := takeLabel_pipes (List.forall_mem_nil _) (clean '|' (by decide)) (' ' :: c :: t)
    rw [read] at taken
    simpa [piped] using taken

theorem token_mem (animated : Bool) : (token animated, if animated then .dotted else .solid) ∈ Arrow.tokens := by
  cases animated <;> decide

theorem takeConnector_connector (e : Edge) {c : Char} (idChar : isIdChar c) (t : Text) :
    takeConnector (' ' :: connector e ++ ' ' :: c :: t) =
      (some (if e.animated then .dotted else .solid, writtenLabel e), ' ' :: c :: t) := by
  have taken := takeConnector_token (w := [' ']) (by simp [isBlank]) (token_mem e.animated)
    (piped (writtenLabel e) ++ ' ' :: c :: t)
  rw [takeLabel_piped e idChar] at taken
  rw [connector_eq]
  simpa using taken

/-! ### The line of an edge -/

/-- What an edge line holds behind the indent, given how its ends are written. -/
def edgeBody (sourceFull targetFull : Bool) (source target : Node) (e : Edge) : Text :=
  form sourceFull source ++ ' ' :: connector e ++ ' ' :: form targetFull target

theorem edgeBody_append (sourceFull targetFull : Bool) (source target : Node) (e : Edge) :
    edgeBody sourceFull targetFull source target e =
      form sourceFull source ++ ' ' :: (connector e ++ ' ' :: form targetFull target) := by simp [edgeBody]

theorem form_cons {n : Node} (valid : isId n.id) (full : Bool) : ∃ c r, form full n = c :: r ∧ isIdChar c := by
  obtain ⟨c, r, shape, idChar, -⟩ := isId_cons valid
  cases full with
  | true => exact ⟨c, r ++ bracketed n, by simp [form, fullForm, shape], idChar⟩
  | false => exact ⟨c, r, shape, idChar⟩

theorem takeLink_edge {source target : Node} {e : Edge} (sourceValid : isId source.id) (targetValid : isId target.id)
    (fromSource : source.id = e.source) (toTarget : target.id = e.target) (sourceFull targetFull : Bool) :
    link? (edgeBody sourceFull targetFull source target e) = some (writtenLink e) := by
  obtain ⟨c, r, shape, idChar⟩ := form_cons targetValid targetFull
  have sourceRead := takeEndpoint_form sourceValid sourceFull
    (detached_space (connector e ++ ' ' :: form targetFull target))
  have connected := takeConnector_connector e idChar r
  have targetRead := takeEndpoint_form targetValid targetFull detached_nil
  rw [← shape] at connected
  rw [List.append_nil] at targetRead
  unfold link? takeLink
  rw [edgeBody_append, sourceRead]
  simp only [List.cons_append] at connected
  simp only [connected, takeEndpoint_space, targetRead, writtenLink, fromSource, toTarget]

theorem declarations_piped (e : Edge) (t : Text) : declarations (piped (writtenLabel e) ++ t) = declarations t := by
  cases found : writtenLabel e with
  | none => rfl
  | some label =>
    obtain ⟨-, -, clean⟩ := writtenLabel_eq_some found
    have closed : cut ['|'] (label ++ '|' :: t) = some (label, t) := cut_char (clean '|' (by decide))
    show declarations ('|' :: (label ++ ['|'] ++ t)) = declarations t
    rw [declarations, if_pos (by decide)]
    simp [passDelimited, closed]

/-- A connector declares nothing, whatever its label says. -/
theorem declarations_connector (e : Edge) (t : Text) :
    declarations (' ' :: connector e ++ ' ' :: t) = declarations t := by
  rw [List.cons_append, declarations_walk.skip _ (by decide), connector_eq, List.append_assoc,
    declarations_walk.arrow (token_mem _), declarations_piped, declarations_walk.skip _ (by decide)]

/-- In full a node is read as a declaration, and by its id as none. -/
theorem declarations_form {n : Node} (valid : isId n.id) (full : Bool) {t : Text} (detached : Detached t) :
    declarations (form full n ++ t) = declared full n ++ declarations t := by
  cases full with
  | true =>
    have split : form true n ++ t = n.id ++ (bracketed n ++ t) := List.append_assoc _ _ _
    rw [split, declarations_id valid (bracketed_stops n t), takeShape_bracketed]
    rfl
  | false =>
    have split : form false n ++ t = n.id ++ t := rfl
    rw [split, declarations_id valid detached.stops, detached.bare]
    rfl

theorem declarations_alone {n : Node} (valid : isId n.id) (full : Bool) :
    declarations (form full n) = declared full n := by
  have read := declarations_form valid full detached_nil
  rwa [List.append_nil, declarations, List.append_nil] at read

theorem declarations_edge {source target : Node} (sourceValid : isId source.id) (targetValid : isId target.id)
    (e : Edge) (sourceFull targetFull : Bool) :
    declarations (edgeBody sourceFull targetFull source target e) =
      declared sourceFull source ++ declared targetFull target := by
  have connected := declarations_connector e (form targetFull target)
  rw [List.cons_append] at connected
  rw [edgeBody_append, declarations_form sourceValid sourceFull (detached_space _), connected,
    declarations_alone targetValid]

end Flowchart.Writer
