import Flowchart.Line.Operations
import Flowchart.Proofs.Line.Rounds

/-!
Cursors are safe. Wherever operations have taken a cursor, it stands on a boundary of the line's
UTF-8 form, so that no slice fails that an operation asks for by byte offsets, and the offsets
add up to where the cursor goes (`safe`). No operation goes back, and those that look for one
thing stay where they are without it. By induction this holds after any operations
(`stands_after`), and with the rounds of the search for declarations it makes `operations_safe`.
-/
namespace Flowchart
open Text

namespace Cursor

/-! ### Moving on -/

theorem moveTo_rest (c : Cursor) : c.moveTo c.rest = c := by
  rw [moveTo, Nat.sub_self, Nat.add_zero]

theorem moveTo_moveTo {c : Cursor} {s t : Text} (first : s <:+ c.rest) (second : t <:+ s) :
    (c.moveTo s).moveTo t = c.moveTo t := by
  obtain ⟨position, rest⟩ := c
  obtain ⟨front, rfl⟩ := second
  obtain ⟨before, rfl⟩ := first
  simp only [moveTo, size_append, mk.injEq, and_true]
  omega

theorem tryLink_eq (c : Cursor) :
    c.tryLink = ((Offsets.linkPieces c.rest).1, c.moveTo (Offsets.linkPieces c.rest).2) := by
  have source := Line.takeEndpoint_suffix c.rest
  simp only [tryLink, Offsets.linkPieces, takeEndpoint, takeConnector, scan]
  cases first : Line.takeEndpoint c.rest with
  | mk source? behind =>
    rw [first] at source
    cases source? with
    | none => rfl
    | some name =>
      have connector := Line.takeConnector_suffix behind
      have once : (c.moveTo behind).rest = behind := rfl
      simp only [once, moveTo_moveTo source connector]
      cases second : Line.takeConnector behind with
      | mk arrow? rest =>
        rw [second] at connector
        cases arrow? with
        | none => rfl
        | some found =>
          have twice : (c.moveTo rest).rest = rest := rfl
          simp only [twice, moveTo_moveTo (connector.trans source) (Line.takeEndpoint_suffix rest)]
          cases Line.takeEndpoint rest with
          | mk target? rest => cases target? <;> rfl

/-! ### Operations as scanners -/

namespace Operation

/-- What the operation answers at a text, and what it leaves of the text. -/
def scan : Operation → Text → Answer × Text
  | .atEnd, t => (.flag t.isEmpty, t)
  | .rest, t => (.text (some t), t)
  | .head, t => (.char t.head?, t)
  | .startsWith token, t => (.flag (after? token t).isSome, t)
  | .next, t => (.done, t.drop 1)
  | .take token, t => (Offsets.tokenFirst token t).map .flag id
  | .passBlanks, t => (.done, Line.passBlanks t)
  | .passDelimited mark, t => (.done, Line.passDelimited mark t)
  | .passInlineLabel, t => (Offsets.inlineLabel t).map .flag id
  | .takeId, t => (Line.takeId t).map .text id
  | .takeShape, t => (Line.takeShape t).map .shape id
  | .takeEndpoint, t => (Line.takeEndpoint t).map .text id
  | .takeLabel, t => (Line.takeLabel t).map .text id
  | .takeConnector, t => (Line.takeConnector t).map .connector id
  | .tryLink, t => (Offsets.linkPieces t).map .link id
  | .takeLink, t => (Line.takeLink t).map .link id

theorem scan_suffix (operation : Operation) (t : Text) : (operation.scan t).2 <:+ t := by
  cases operation with
  | atEnd => exact List.suffix_refl t
  | rest => exact List.suffix_refl t
  | head => exact List.suffix_refl t
  | startsWith token => exact List.suffix_refl t
  | next => exact List.drop_suffix 1 t
  | take token => exact Offsets.tokenFirst_suffix token t
  | passBlanks => exact Line.passBlanks_suffix t
  | passDelimited mark => exact (Line.passDelimited_suffix mark t).trans (List.drop_suffix 1 t)
  | passInlineLabel => exact Offsets.inlineLabel_suffix t
  | takeId => exact Line.takeId_suffix t
  | takeShape => exact Line.takeShape_suffix t
  | takeEndpoint => exact Line.takeEndpoint_suffix t
  | takeLabel => exact Line.takeLabel_suffix t
  | takeConnector => exact Line.takeConnector_suffix t
  | tryLink => exact Offsets.linkPieces_suffix t
  | takeLink => exact Line.takeLink_suffix t

theorem read_reads (operation : Operation) : Offsets.Reads operation.read operation.scan := by
  cases operation with
  | atEnd => exact Offsets.atEnd_reads.map _
  | rest => exact Offsets.rest_reads.map _
  | head => exact Offsets.head?_reads.map _
  | startsWith token => exact Offsets.Reads.map (Offsets.startsWith_reads token) _
  | next => exact Offsets.next_reads.map _
  | take token => exact Offsets.Reads.map (Offsets.take_reads token) _
  | passBlanks => exact Offsets.passBlanks_reads.map _
  | passDelimited mark => exact Offsets.Reads.map (Offsets.passDelimited_reads mark) _
  | passInlineLabel => exact Offsets.passInlineLabel_reads.map _
  | takeId => exact Offsets.takeId_reads.map _
  | takeShape => exact Offsets.takeShape_reads.map _
  | takeEndpoint => exact Offsets.takeEndpoint_reads.map _
  | takeLabel => exact Offsets.takeLabel_reads.map _
  | takeConnector => exact Offsets.takeConnector_reads.map _
  | tryLink => exact Offsets.tryLink_reads.map _
  | takeLink => exact Offsets.takeLink_reads.map _

/-- An operation moves the cursor to what the scanner leaves. -/
theorem run_eq (operation : Operation) (c : Cursor) :
    operation.run c = ((operation.scan c.rest).1, c.moveTo (operation.scan c.rest).2) := by
  cases operation with
  | take token =>
    simp only [run, scan, Cursor.take, Offsets.tokenFirst]
    cases after? token c.rest with
    | none => exact congrArg _ (moveTo_rest c).symm
    | some behind => rfl
  | passInlineLabel =>
    simp only [run, scan, Cursor.passInlineLabel, Offsets.inlineLabel]
    cases Line.inlineLabel? c.rest with
    | none => exact congrArg _ (moveTo_rest c).symm
    | some found => rfl
  | tryLink => rw [run, tryLink_eq]; rfl
  | next => rfl
  | passBlanks => rfl
  | passDelimited mark => rfl
  | takeId => rfl
  | takeShape => rfl
  | takeEndpoint => rfl
  | takeLabel => rfl
  | takeConnector => rfl
  | takeLink => rfl
  | atEnd => exact congrArg _ (moveTo_rest c).symm
  | rest => exact congrArg _ (moveTo_rest c).symm
  | head => exact congrArg _ (moveTo_rest c).symm
  | startsWith token => exact congrArg _ (moveTo_rest c).symm

/-- An operation that finds nothing leaves the whole text, if it is one of those that stay put. -/
theorem scan_stays {operation : Operation} (stays : operation.staysPut) {t : Text}
    (missed : (operation.scan t).1.isMatch = false) : (operation.scan t).2 = t := by
  cases operation with
  | take token =>
    simp only [scan, Offsets.tokenFirst] at missed ⊢
    cases found : after? token t with
    | none => rfl
    | some behind =>
      rw [found] at missed
      cases missed
  | passInlineLabel =>
    simp only [scan, Offsets.inlineLabel] at missed ⊢
    cases found : Line.inlineLabel? t with
    | none => rfl
    | some behind =>
      rw [found] at missed
      cases missed
  | takeId =>
    simp only [scan, Line.takeId] at missed ⊢
    by_cases none : (t.takeWhile isIdChar).isEmpty
    · rw [if_pos none]
      rfl
    · rw [if_neg none] at missed
      cases missed
  | takeShape =>
    simp only [scan, Line.takeShape] at missed ⊢
    cases found : enclosed? t with
    | none => rfl
    | some e =>
      rw [found] at missed
      cases missed
  | takeLink =>
    simp only [scan, Offsets.takeLink_eq] at missed ⊢
    cases found : Offsets.linkPieces t with
    | mk link? behind =>
      rw [found] at missed
      cases link? with
      | none => rfl
      | some link => cases missed
  | _ => cases stays

end Operation

/-! ### Runs of operations -/

/-- The cursor stands in the line: on a boundary, where the text from its position on is what is left. -/
structure Stands (line : Text) (c : Cursor) : Prop where
  inside : c.position ≤ line.size
  boundary : OnBoundary line c.position
  slice : line.sliceFrom? c.position = some c.rest

theorem stands_iff {line : Text} {c : Cursor} : Stands line c ↔ c.rest <:+ line ∧ c.position = startOf line c.rest := by
  constructor
  · rintro ⟨-, -, slice⟩
    obtain ⟨front, rfl, here⟩ := sliceFrom?_eq_some.1 slice
    exact ⟨List.suffix_append front c.rest, here.trans (startOf_append front c.rest).symm⟩
  · rintro ⟨final, here⟩
    have slice := slice_startOf final
    rw [← here] at slice
    exact ⟨here ▸ Nat.sub_le _ _, sliceFrom?_isSome_iff.1 (Option.isSome_of_eq_some slice), slice⟩

/-- An operation at a cursor is safe: by byte offsets it finds every slice, answers the
    same and goes to the same position. The cursor stands in the line afterwards and has
    not gone back; and without a match it is where it was, if that is promised. -/
structure Safe (line : Text) (c : Cursor) (operation : Operation) : Prop where
  reads : operation.read line c.position = some ((operation.run c).1, (operation.run c).2.position)
  stands : Stands line (operation.run c).2
  forward : c.position ≤ (operation.run c).2.position
  stays : operation.staysPut → (operation.run c).1.isMatch = false → (operation.run c).2 = c

section
variable {line : Text} {c : Cursor} (stands : Stands line c)
include stands

theorem moveTo_position {t : Text} (part : t <:+ c.rest) : (c.moveTo t).position = startOf line t := by
  obtain ⟨final, here⟩ := stands_iff.1 stands
  rw [startOf_suffix final part, ← here]
  rfl

theorem safe (operation : Operation) : Safe line c operation := by
  obtain ⟨final, here⟩ := stands_iff.1 stands
  have part := operation.scan_suffix c.rest
  have moved := moveTo_position stands part
  refine ⟨?_, ?_, ?_, ?_⟩
  · rw [operation.run_eq, here, operation.read_reads final, moved]
  · rw [operation.run_eq]
    exact stands_iff.2 ⟨part.trans final, moved⟩
  · rw [operation.run_eq, moved, here]
    exact startOf_le final part
  · intro promised missed
    rw [operation.run_eq] at missed ⊢
    simp only [Operation.scan_stays promised missed, moveTo_rest]

/-- Operations one after the other find all their slices, and leave the cursor standing in the line. -/
theorem stands_after (operations : List Operation) :
    positionAfter? line c.position operations = some (c.after operations).position ∧
      Stands line (c.after operations) := by
  induction operations generalizing c with
  | nil => exact ⟨rfl, stands⟩
  | cons operation later ih =>
    have first := safe stands operation
    obtain ⟨read, standing⟩ := ih first.stands
    refine ⟨?_, standing⟩
    rw [positionAfter?, List.foldlM_cons, first.reads]
    exact read

end

theorem stands_start (line : Text) : Stands line (start line) :=
  stands_iff.2 ⟨List.suffix_refl line, (startOf_self line).symm⟩

/-- From the start of any line, operations with any arguments keep the cursor in the line and find all their slices,
    and so does the next operation, whichever it is. The search for declarations gets on in every round and ends. -/
theorem operations_safe (line : Text) (operations : List Operation) :
    positionAfter? line 0 operations = some ((start line).after operations).position ∧
      Stands line ((start line).after operations) ∧
      (∀ operation, Safe line ((start line).after operations) operation) ∧
      Offsets.Searches line := by
  obtain ⟨read, standing⟩ := stands_after (stands_start line) operations
  exact ⟨read, standing, safe standing, Offsets.searches line⟩

example :
    positionAfter? "é[Ü] -- ß --> B".toList 0 [.next, .takeShape, .takeConnector, .take ['C'], .takeEndpoint] =
      some 18 := by
  decide +kernel

end Cursor

end Flowchart
