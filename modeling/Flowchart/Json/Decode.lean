import Flowchart.Json.Number
import Flowchart.Json.Read
import Flowchart.Graph.Basic
import Flowchart.Text.Quoted

/-!
Taking values out of JSON. Values are taken in the order of the document, and the first problem
counts: a value that does not fit, a field that is missing or comes twice, or the fault where
the document breaks off. A record is described by its schema (`Schema`), and may also be written
as the list of its fields.
-/
namespace Flowchart.Json

/-- What stands where something else is expected. -/
inductive Found where
  | null
  | bool (b : Bool)
  | integer (i : Int)
  | floating (x : Float)
  | text (t : Text)
  | list
  | record

/-- What was found, in words. -/
def Found.description : Found → Text
  | .null => "null".toList
  | .bool true => "boolean \x60true\x60".toList
  | .bool false => "boolean \x60false\x60".toList
  | .integer i => "integer \x60".toList ++ (toString i).toList ++ ['\x60']
  | .floating x => "floating point \x60".toList ++ Decimal.ofFloat x ++ ['\x60']
  | .text t => "string ".toList ++ t.quoted
  | .list => "sequence".toList
  | .record => "map".toList

/-- Why a document does not give a value. -/
inductive Problem where
  | fault (f : Fault)
  | invalidType (found : Found) (expected : Text)
  | invalidValue (found : Found) (expected : Text)
  | invalidLength (length : Nat) (expected : Text)
  | unknownVariant (name : Text)
  | missingField (name : Text)
  | duplicateField (name : Text)
  | invalidNodeId (id : Text)

/-- A name in backticks. -/
def ticked (name : Text) : Text := '\x60' :: name ++ ['\x60']

/-- What is wrong with a well-formed document; a fault of the text has no message. -/
def Problem.message? : Problem → Option Text
  | .fault _ => none
  | .invalidType found expected =>
    some ("invalid type: ".toList ++ found.description ++ ", expected ".toList ++ expected)
  | .invalidValue found expected =>
    some ("invalid value: ".toList ++ found.description ++ ", expected ".toList ++ expected)
  | .invalidLength length expected =>
    some ("invalid length ".toList ++ Text.ofNat length ++ ", expected ".toList ++ expected)
  | .unknownVariant name =>
    let shapes := [',', ' '].intercalate (Shape.all.map fun s => ticked s.name)
    some ("unknown variant ".toList ++ ticked name ++ ", expected one of ".toList ++ shapes)
  | .missingField name => some ("missing field ".toList ++ ticked name)
  | .duplicateField name => some ("duplicate field ".toList ++ ticked name)
  | .invalidNodeId id => some ("invalid node id '".toList ++ id ++ ['\''])

/-- A value, or the first problem of its document. -/
abbrev Decoded (α : Type) := Except Problem α

/-- The document does not follow the grammar. -/
def malformed : Decoded α := .error (.fault .malformed)

/-- Where a value comes from. Only streamed values have faults; in the others a list that is too
    long or a shape of the wrong kind is a problem of the value, not of the text. -/
inductive Origin where
  /-- It is taken while its document is being read. -/
  | streamed
  /-- It is held in memory. -/
  | held
  /-- It was put aside while its record was being read. Here an empty record may stand for null. -/
  | deferred
  deriving DecidableEq

/-! ### Plain values -/

/-- The string that is written. -/
def Quoted.value (q : Quoted) : Decoded Text :=
  match unescape q.raw, q.fault with
  | .value t, none => .ok t
  | .value _, some f => .error (.fault f)
  | .lone, _ => malformed
  | .open, f => .error (.fault (f.getD .malformed))

/-- A number that is written in full. -/
def numberOf (written : Text) (complete : Bool) : Decoded Number :=
  if complete then
    match number? written with
    | some n => .ok n
    | none => malformed
  else .error (.fault .ended)

/-- What a value is, for a message. -/
def found : Json → Decoded Found
  | .null => .ok .null
  | .bool b => .ok (.bool b)
  | .number written complete => do
    match ← numberOf written complete with
    | .integer i => return .integer i
    | .floating x => return .floating x
  | .text q => return .text (← q.value)
  | .list _ _ => .ok .list
  | .record _ _ => .ok .record
  | .stub => .error (.fault .ended)
  | .broken f => .error (.fault f)

/-- The problem of a value of the wrong kind. -/
def expect (expected : String) (j : Json) : Decoded α := do
  let found ← j.found
  .error (.invalidType found expected.toList)

/-- A string. -/
def asText : Json → Decoded Text
  | .text q => q.value
  | j => j.expect "a string"

/-- A truth value. -/
def asBool : Json → Decoded Bool
  | .bool b => .ok b
  | j => j.expect "a boolean"

/-- A number as a float. -/
def asFloat : Json → Decoded Float
  | .number written complete => do return (← numberOf written complete).toFloat
  | j => j.expect "f64"

/-- A count: a whole number that is not negative. -/
def asCount : Json → Decoded Nat
  | .number written complete => do
    match ← numberOf written complete with
    | .integer i =>
      if i < 0 then .error (.invalidValue (.integer i) "usize".toList) else return i.toNat
    | .floating x => .error (.invalidType (.floating x) "usize".toList)
  | j => j.expect "usize"

/-- A string, or null for none. -/
def asOptionalText : Json → Decoded (Option Text)
  | .null => .ok none
  | j => do return some (← j.asText)

/-- Null where nothing is to be said. -/
def asNothing (origin : Origin) (j : Json) : Decoded Unit :=
  match origin, j with
  | _, .null => .ok ()
  | .deferred, .record [] _ => .ok ()
  | _, j => j.expect "unit"

/-- The items of a list, each taken by `item`. -/
def asList (item : Json → Decoded α) : Json → Decoded (List α)
  | .list items fault => do
    let taken ← items.mapM item
    match fault with
    | some f => .error (.fault f)
    | none => return taken
  | j => j.expect "a sequence"

/-! ### Passing over values -/

mutual

/-- The first fault in a value that nobody asks for. Its numbers may be of any size, and its
    strings may hold lone surrogates. -/
def firstFault : Json → Option Fault
  | .number _ complete => if complete then none else some .malformed
  | .text q => q.fault
  | .list items fault => (firstFaultIn items).orElse fun _ => fault
  | .record fields fault => (firstFaultAmong fields).orElse fun _ => fault
  | .stub => some .ended
  | .broken f => some f
  | _ => none

/-- The first fault in the items of a list. -/
def firstFaultIn : List Json → Option Fault
  | [] => none
  | item :: items => (firstFault item).orElse fun _ => firstFaultIn items

/-- The first fault in the fields of a record. -/
def firstFaultAmong : List (Quoted × Json) → Option Fault
  | [] => none
  | (key, value) :: fields =>
    key.fault.orElse fun _ => (firstFault value).orElse fun _ => firstFaultAmong fields

end

/-- Passes over a value. -/
def ignore (j : Json) : Decoded Unit :=
  match j.firstFault with
  | some f => .error (.fault f)
  | none => .ok ()

mutual

/-- Takes a value as a whole, to be looked at later. Lists and records may nest to a depth. -/
def hold (depth : Nat) : Json → Decoded Unit
  | .list items fault =>
    match depth with
    | 0 | 1 => malformed
    | depth + 1 => do
      holdItems depth items
      match fault with
      | some f => .error (.fault f)
      | none => return
  | .record fields fault =>
    match depth with
    | 0 | 1 => malformed
    | depth + 1 => do
      holdFields depth fields
      match fault with
      | some f => .error (.fault f)
      | none => return
  | .number written complete => do let _ ← numberOf written complete
  | .text q => do let _ ← q.value
  | .stub => .error (.fault .ended)
  | .broken f => .error (.fault f)
  | _ => return

/-- Takes the items of a list as a whole. -/
def holdItems (depth : Nat) : List Json → Decoded Unit
  | [] => return
  | item :: items => do
    item.hold depth
    holdItems depth items

/-- Takes the fields of a record as a whole. -/
def holdFields (depth : Nat) : List (Quoted × Json) → Decoded Unit
  | [] => return
  | (key, value) :: fields => do
    let _ ← key.value
    value.hold depth
    holdFields depth fields

end

/-! ### Shapes -/

/-- The shape of a name. -/
def shapeOfName (name : Text) : Decoded Shape :=
  match Shape.ofName? name with
  | some s => .ok s
  | none => .error (.unknownVariant name)

/-- The fault of a record that goes on behind its only field. -/
def single (rest : List (Quoted × Json)) (fault : Option Fault) : Decoded Unit :=
  if rest.isEmpty then
    match fault with
    | some f => .error (.fault f)
    | none => .ok ()
  else malformed

/-- A shape: its name, or a record with the name as its only key and null as its value. -/
def asShape (origin : Origin) (j : Json) : Decoded Shape :=
  match origin, j with
  | _, .text q => do shapeOfName (← q.value)
  | .streamed, .record ((key, value) :: rest) fault => do
    let shape ← shapeOfName (← key.value)
    value.asNothing .streamed
    single rest fault
    return shape
  | .streamed, .broken f => .error (.fault f)
  | .streamed, _ => malformed
  | origin, .record [(key, value)] _ => do
    let shape ← shapeOfName (← key.value)
    value.asNothing origin
    return shape
  | _, .record _ _ => .error (.invalidValue .record "map with a single key".toList)
  | _, j => j.expect "string or map"

/-! ### Records -/

/-- A field of a record that is being put together. -/
structure Field (σ : Type) where
  name : Text
  required : Bool
  /-- Takes the value of the field. -/
  put : Json → σ → Decoded σ

/-- How a record is read. -/
structure Schema (σ : Type) where
  name : Text
  /-- The record before any field is read. -/
  blank : σ
  /-- The fields in the order in which they are declared. -/
  fields : List (Field σ)
  /-- Takes a field that is not among them. -/
  other : Text → Json → σ → Decoded σ
  /-- The record may be written as the list of its fields. -/
  asList : Bool

namespace Schema

/-- The words for the record in messages. -/
def title (s : Schema σ) : Text := "struct ".toList ++ s.name

/-- Takes the fields of a record by their names. `seen` are the names so far. -/
def takeNamed (s : Schema σ) (seen : List Text) (state : σ) : List (Quoted × Json) → Decoded (List Text × σ)
  | [] => .ok (seen, state)
  | (key, value) :: rest => do
    let name ← key.value
    match s.fields.find? (·.name = name) with
    | some field =>
      if seen.contains name then .error (.duplicateField name)
      else s.takeNamed (name :: seen) (← field.put value state) rest
    | none => s.takeNamed seen (← s.other name value state) rest

/-- The first required field that is missing. -/
def missing? (s : Schema σ) (seen : List Text) : Option Text :=
  (s.fields.find? fun field => field.required && !seen.contains field.name).map (·.name)

/-- Takes the fields of a record by their places. -/
def takePlaced (s : Schema σ) (origin : Origin) (items : List Json) (fault : Option Fault) :
    (place : Nat) → (state : σ) → List (Field σ) → Decoded σ
  | place, state, [] =>
    if items.length ≤ place then
      match fault with
      | some f => .error (.fault f)
      | none => .ok state
    else
      match origin with
      | .streamed => malformed
      | _ => .error (.invalidLength items.length "fewer elements in array".toList)
  | place, state, field :: fields =>
    match items[place]?, fault with
    | some item, _ => do s.takePlaced origin items fault (place + 1) (← field.put item state) fields
    | none, some f => .error (.fault f)
    | none, none =>
      if field.required then
        .error (.invalidLength place
          (s.title ++ " with ".toList ++ Text.ofNat s.fields.length ++ " elements".toList))
      else s.takePlaced origin items fault (place + 1) state fields

/-- Reads a record. -/
def read (s : Schema σ) (origin : Origin) : Json → Decoded σ
  | .record fields fault => do
    let (seen, state) ← s.takeNamed [] s.blank fields
    match fault, s.missing? seen with
    | some f, _ => .error (.fault f)
    | none, some name => .error (.missingField name)
    | none, none => return state
  | .list items fault =>
    if s.asList then s.takePlaced origin items fault 0 s.blank s.fields
    else .error (.invalidType .list s.title)
  | j => do
    let found ← j.found
    .error (.invalidType found s.title)

end Schema

/-- Passes over a field that nobody asks for. -/
def ignoring (_ : Text) (value : Json) (state : σ) : Decoded σ := do
  value.ignore
  return state

/-! ### Documents -/

/-- Takes a value out of a document that holds nothing else. -/
def Document.decode (d : Document) (take : Json → Decoded α) : Decoded α := do
  let a ← take d.value
  match d.trailing with
  | some f => .error (.fault f)
  | none => return a

/-- Reads a text and takes a value out of it. -/
def decodeText (t : Text) (take : Json → Decoded α) : Decoded α := (readDocument t).decode take

end Flowchart.Json
