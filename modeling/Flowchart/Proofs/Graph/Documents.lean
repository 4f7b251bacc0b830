import Flowchart.Proofs.Graph.Parts
import Flowchart.Proofs.Json.Written

/-!
Graphs as documents. The fields of a written record are taken one by one into the record that was written
(`Schema.takeNamed_cons`), so that nodes and edges come back as they are; and the parts of a well-formed graph are put
together again as that graph (`ofParts_self`). So every graph is read back from its document, in either style
(`ofJsonText_toJson`).
-/
namespace Flowchart

namespace Json

/-! ### Values -/

theorem asText_ofText (t : Text) : (ofText t).asText = .ok t := value_ofText t

theorem asOptionalText_ofText (t : Text) : (ofText t).asOptionalText = .ok (some t) := by
  have taken : (ofText t).asOptionalText = (ofText t).asText >>= fun t => .ok (some t) := rfl
  rw [taken, asText_ofText]
  rfl

theorem asShape_name (s : Shape) : (ofText s.name).asShape .streamed = .ok s := by
  have known : shapeOfName s.name = .ok s := by cases s <;> rfl
  have taken : (ofText s.name).asShape .streamed = (Quoted.ofText s.name).value >>= shapeOfName := rfl
  rw [taken, value_ofText]
  exact known

/-- A list is taken from the list of its written items. -/
theorem asList_map {α : Type} {write : α → Json} {item : Json → Decoded α} {values : List α}
    (each : ∀ a ∈ values, item (write a) = .ok a) : (ofList (values.map write)).asList item = .ok values := by
  have taken : (values.map write).mapM item = .ok values := by
    induction values with
    | nil => rfl
    | cons a rest ih =>
      rw [List.map_cons, List.mapM_cons, each a List.mem_cons_self,
        ih fun b member => each b (List.mem_cons_of_mem _ member)]
      rfl
  rw [ofList, asList, taken]
  rfl

/-! ### Records -/

variable {σ : Type} {s : Schema σ}

/-- A known field that is new puts its value into the record. -/
theorem Schema.takeNamed_cons {seen : List Text} {state next : σ} {name : Text} {value : Json} {known : Field σ}
    (rest : List (Text × Json)) (found : s.fields.find? (·.name = name) = some known) (new : name ∉ seen)
    (put : known.put value state = .ok next) :
    s.takeNamed seen state (((name, value) :: rest).map writtenField) =
      s.takeNamed (name :: seen) next (rest.map writtenField) := by
  have once : seen.contains name = false := by simpa using new
  rw [List.map_cons, writtenField, Schema.takeNamed, value_ofText]
  simp only [bind, Except.bind, found, once, put, Bool.false_eq_true, if_false]

/-- A record is read when its fields are taken and no required one is missing. -/
theorem Schema.read_ofFields {origin : Origin} {fields : List (Text × Json)} {seen : List Text} {final : σ}
    (taken : s.takeNamed [] s.blank (fields.map writtenField) = .ok (seen, final)) (complete : s.missing? seen = none) :
    s.read origin (ofFields fields) = .ok final := by
  rw [show ofFields fields = .record (fields.map writtenField) none from rfl, Schema.read, taken]
  simp only [bind, Except.bind, complete]
  rfl

end Json

open Json

/-! ### Nodes and edges -/

theorem Node.ofJson_toJson (n : Node) : Node.ofJson .streamed n.toJson = .ok n := by
  let s := Node.schema .streamed
  have complete : s.missing? ["type".toList, "label".toList, "id".toList] = none := rfl
  refine Schema.read_ofFields ?_ complete
  calc s.takeNamed [] s.blank (n.fields.map writtenField)
      = s.takeNamed _ ⟨n.id, [], .rectangle⟩ _ :=
        Schema.takeNamed_cons _ rfl (by decide) (by simp only [asText_ofText]; rfl)
    _ = s.takeNamed _ ⟨n.id, n.label, .rectangle⟩ _ :=
        Schema.takeNamed_cons _ rfl (by decide) (by simp only [asText_ofText]; rfl)
    _ = s.takeNamed _ n [] := Schema.takeNamed_cons [] rfl (by decide) (by simp only [asShape_name]; rfl)
    _ = .ok (_, n) := rfl

/-- The label of an edge is read as no label only where it is left out. -/
theorem Edge.ofJson_toJson (e : Edge) : Edge.ofJson .streamed e.toJson = .ok e := by
  let s := Edge.schema
  let names : List (Text × Json) :=
    [("id".toList, ofText e.id), ("source".toList, ofText e.source), ("target".toList, ofText e.target)]
  let last : List (Text × Json) := [("animated".toList, .bool e.animated)]
  -- The label stands between the ends and the last field, if it is there at all.
  have front : ∀ label : List (Text × Json), s.takeNamed [] s.blank ((names ++ label ++ last).map writtenField) =
      s.takeNamed ["target".toList, "source".toList, "id".toList] ⟨e.id, e.source, e.target, none, false⟩
        ((label ++ last).map writtenField) := by
    intro label
    calc s.takeNamed [] s.blank ((names ++ label ++ last).map writtenField)
        = s.takeNamed _ ⟨e.id, [], [], none, false⟩ _ :=
          Schema.takeNamed_cons _ rfl (by decide) (by simp only [asText_ofText]; rfl)
      _ = s.takeNamed _ ⟨e.id, e.source, [], none, false⟩ _ :=
          Schema.takeNamed_cons _ rfl (by decide) (by simp only [asText_ofText]; rfl)
      _ = _ := Schema.takeNamed_cons (label ++ last) rfl (by decide) (by simp only [asText_ofText]; rfl)
  have final : ∀ (label : Option Text) (seen : List Text), "animated".toList ∉ seen →
      s.takeNamed seen ⟨e.id, e.source, e.target, label, false⟩ (last.map writtenField) =
        .ok ("animated".toList :: seen, ⟨e.id, e.source, e.target, label, e.animated⟩) :=
    fun label seen new => Schema.takeNamed_cons [] rfl new rfl
  obtain ⟨id, source, target, label, animated⟩ := e
  cases label with
  | none => exact Schema.read_ofFields ((front []).trans (final none _ (by decide))) rfl
  | some text =>
    let label : List (Text × Json) := [("label".toList, ofText text)]
    have labelled : s.takeNamed ["target".toList, "source".toList, "id".toList] ⟨id, source, target, none, false⟩
        ((label ++ last).map writtenField) = s.takeNamed _ ⟨id, source, target, some text, false⟩ _ :=
      Schema.takeNamed_cons last rfl (by decide) (by simp only [asOptionalText_ofText]; rfl)
    exact Schema.read_ofFields ((front label).trans (labelled.trans (final (some text) _ (by decide)))) rfl

/-- The two lists of a graph are read back. -/
theorem Parts.read_toJson (g : Graph) : (Parts.schema .streamed).read .streamed g.toJson = .ok ⟨g.nodes, g.edges⟩ := by
  let s := Parts.schema .streamed
  have nodes : (ofList (g.nodes.map Node.toJson)).asList (Node.ofJson .streamed) = .ok g.nodes :=
    asList_map fun n _ => n.ofJson_toJson
  have edges : (ofList (g.edges.map Edge.toJson)).asList (Edge.ofJson .streamed) = .ok g.edges :=
    asList_map fun e _ => e.ofJson_toJson
  have complete : s.missing? ["edges".toList, "nodes".toList] = none := rfl
  refine Schema.read_ofFields ?_ complete
  calc s.takeNamed [] s.blank (List.map writtenField _)
      = s.takeNamed _ ⟨g.nodes, []⟩ _ := Schema.takeNamed_cons _ rfl (by decide) (by simp only [nodes]; rfl)
    _ = s.takeNamed _ ⟨g.nodes, g.edges⟩ [] := Schema.takeNamed_cons [] rfl (by decide) (by simp only [edges]; rfl)
    _ = .ok (_, ⟨g.nodes, g.edges⟩) := rfl

theorem Node.toJson_plain (n : Node) : Plain n.toJson := .record (by simp [Node.fields, Plain.text])

theorem Edge.toJson_plain (e : Edge) : Plain e.toJson := by
  obtain ⟨id, source, target, label, animated⟩ := e
  exact .record (by cases label <;> simp [Plain.text, Plain.bool])

/-! ### Graphs -/

namespace Graph

/-- The written form of a graph holds nothing but strings and truth values in lists and records. -/
theorem toJson_plain (g : Graph) : Plain g.toJson := by
  have nodes : Plain (ofList (g.nodes.map Node.toJson)) := .list (by simpa using fun n _ => Node.toJson_plain n)
  have edges : Plain (ofList (g.edges.map Edge.toJson)) := .list (by simpa using fun e _ => Edge.toJson_plain e)
  exact .record (by simp [nodes, edges])

theorem ofJson_toJson {g : Graph} (good : g.WellFormed) : ofJson g.toJson = .ok g := by
  rw [ofJson, Parts.read_toJson]
  simp only [bind, Except.bind, ofParts_self good]
  rfl

/-- Every graph is read back from the document that is written of it, compact or indented. -/
theorem ofJsonText_toJson {g : Graph} (reachable : Reachable g) :
    ofJsonText g.toJson.compact = .ok g ∧ ofJsonText g.toJson.indented = .ok g := by
  have taken := ofJson_toJson reachable.wellFormed
  exact ⟨decodeText_write compact_spaced g.toJson_plain taken, decodeText_write indented_spaced g.toJson_plain taken⟩

/-- A graph with an edge that has no label, one whose label is empty, and quotes,
    backslashes, controls and letters of other scripts in its texts. -/
def peculiar : Graph :=
  ⟨[⟨['A'], "\"a\\b\"\n\x01/".toList, .hexagon⟩, ⟨['é'], ['😀'], .circle⟩],
    [⟨"\"1\"\t".toList, ['A'], ['é'], none, false⟩, ⟨['e'], ['é'], ['é'], some [], true⟩]⟩

theorem peculiar_toJson :
    Reachable peculiar ∧
      peculiar.toJson.compact =
        ("\x7b\"nodes\":[\x7b\"id\":\"A\",\"label\":\"\\\"a\\\\b\\\"\\n\\u0001/\",\"type\":\"hexagon\"\x7d,".toList ++
          "\x7b\"id\":\"é\",\"label\":\"😀\",\"type\":\"circle\"\x7d],\"edges\":[".toList ++
          "\x7b\"id\":\"\\\"1\\\"\\t\",\"source\":\"A\",\"target\":\"é\",\"animated\":false\x7d,".toList ++
          "\x7b\"id\":\"e\",\"source\":\"é\",\"target\":\"é\",\"label\":\"\",\"animated\":true\x7d]\x7d".toList) ∧
      ofJsonText peculiar.toJson.compact = .ok peculiar ∧ ofJsonText peculiar.toJson.indented = .ok peculiar := by
  have made : ofParts peculiar.nodes peculiar.edges = .ok peculiar := by decide +kernel
  have reachable : Reachable peculiar := .built (.parts made)
  exact ⟨reachable, by decide +kernel, ofJsonText_toJson reachable⟩

end Graph
end Flowchart
