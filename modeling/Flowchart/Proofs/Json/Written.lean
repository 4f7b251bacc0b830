import Flowchart.Json.Write
import Flowchart.Proofs.Json.Strings

/-!
Reading what was written. A document without numbers, in any style that puts only white space between its parts, is
read as it was written, whatever follows it (`readValue_write`): a list and a record are read item by item
(`readItems_write`, `readFields_write`), and the text itself holds enough steps for its parts. So a written document
is read as a whole (`readDocument_write`).
-/
namespace Flowchart.Json

/-- A document of strings and keywords in lists and records. -/
inductive Plain : Json → Prop where
  | null : Plain .null
  | bool (b : Bool) : Plain (.bool b)
  | text (t : Text) : Plain (ofText t)
  | list {items : List Json} : (∀ j ∈ items, Plain j) → Plain (ofList items)
  | record {fields : List (Text × Json)} : (∀ f ∈ fields, Plain f.2) → Plain (ofFields fields)

/-- Only white space. -/
def Space (w : Text) : Prop := ∀ c ∈ w, isSpace c

/-- The style puts nothing but white space between the parts. -/
structure Style.Spaced (style : Style) : Prop where
  newline : ∀ depth, Space (style.newline depth)
  colon : ∃ w, style.colon = ':' :: w ∧ Space w

theorem compact_spaced : Style.compact.Spaced := ⟨fun _ => by simp [Space, Style.compact], [], rfl, by simp [Space]⟩

theorem indented_spaced : Style.indented.Spaced := by
  refine ⟨fun depth c member => ?_, [' '], rfl, by simp [Space, isSpace]⟩
  rcases List.mem_cons.1 member with rfl | blank
  · rfl
  · rw [(List.mem_replicate.1 blank).2]
    rfl

/-! ### White space -/

theorem skipSpace_append {w : Text} (space : Space w) (t : Text) : skipSpace (w ++ t) = skipSpace t :=
  List.dropWhile_append_of_pos space

theorem skipSpace_ink {c : Char} (ink : isSpace c = false) (t : Text) : skipSpace (c :: t) = c :: t := by
  simp [skipSpace, ink]

theorem readValue_space {w : Text} (space : Space w) (fuel : Nat) (t : Text) :
    readValue fuel (w ++ t) = readValue fuel t := by
  cases fuel with
  | zero => rw [readValue, readValue]
  | succ fuel => rw [readValue, readValue, skipSpace_append space]

theorem readItems_space {w : Text} (space : Space w) (fuel : Nat) (t : Text) :
    readItems fuel (w ++ t) = readItems fuel t := by
  cases fuel with
  | zero => rw [readItems, readItems]
  | succ fuel => rw [readItems, readItems, readValue_space space]

theorem readFields_space {w : Text} (space : Space w) (fuel : Nat) (t : Text) :
    readFields fuel (w ++ t) = readFields fuel t := by
  cases fuel with
  | zero => rw [readFields, readFields]
  | succ fuel => rw [readFields, readFields, readKey, readKey, skipSpace_append space]

/-! ### Items and fields -/

/-- The value is read as it was written, in front of any text, if there are steps enough. -/
def ReadsBack (style : Style) (j : Json) : Prop :=
  ∀ depth fuel rest, 2 * (j.write style depth).length ≤ fuel →
    readValue fuel (j.write style depth ++ rest) = (j, some rest)

variable {style : Style}

theorem writeItems_cons (style : Style) (depth : Nat) (item : Json) (items : List Json) :
    writeItems style depth (item :: items) =
      ',' :: (style.newline depth ++ (item.write style depth ++ writeItems style depth items)) := by
  simp [writeItems]

theorem writeFields_cons (style : Style) (depth : Nat) (key : Quoted) (value : Json) (fields : List (Quoted × Json)) :
    writeFields style depth ((key, value) :: fields) =
      ',' :: (style.newline depth ++
        (key.between ++ style.colon ++ value.write style depth ++ writeFields style depth fields)) := by
  simp [writeFields]

/-- The items of a list are read up to its closing bracket. -/
theorem readItems_write (spaced : style.Spaced) {w : Text} (space : Space w) (depth : Nat) (rest : Text) {item : Json}
    {items : List Json} (each : ∀ j ∈ item :: items, ReadsBack style j) {fuel : Nat}
    (enough : 2 * (item.write style depth ++ writeItems style depth items).length < fuel) :
    readItems fuel (item.write style depth ++ writeItems style depth items ++ (w ++ ']' :: rest)) =
      (item :: items, none, some rest) := by
  -- On the items behind the first: each takes a step, and its text is longer than that.
  induction items generalizing item fuel with
  | nil =>
    obtain ⟨fuel, rfl⟩ := Nat.exists_eq_succ_of_ne_zero (Nat.ne_zero_of_lt enough)
    simp only [writeItems, List.append_nil] at enough ⊢
    have read := each item List.mem_cons_self depth fuel (w ++ ']' :: rest) (by omega)
    have closed : skipSpace (w ++ ']' :: rest) = ']' :: rest := by rw [skipSpace_append space]; rfl
    rw [readItems, read]
    simp only [Option.map_some, closed]
  | cons next others ih =>
    obtain ⟨fuel, rfl⟩ := Nat.exists_eq_succ_of_ne_zero (Nat.ne_zero_of_lt enough)
    rw [writeItems_cons] at enough ⊢
    simp only [List.length_append, List.length_cons] at enough
    let behind := next.write style depth ++ writeItems style depth others ++ (w ++ ']' :: rest)
    have read := each item List.mem_cons_self depth fuel (',' :: (style.newline depth ++ behind)) (by omega)
    have room : 2 * (next.write style depth ++ writeItems style depth others).length < fuel := by
      rw [List.length_append]
      omega
    have later := ih (fun j member => each j (List.mem_cons_of_mem _ member)) room
    have comma : skipSpace (',' :: (style.newline depth ++ behind)) = ',' :: (style.newline depth ++ behind) := rfl
    have split : item.write style depth ++ ',' :: (style.newline depth ++ (next.write style depth ++
        writeItems style depth others)) ++ (w ++ ']' :: rest) =
        item.write style depth ++ ',' :: (style.newline depth ++ behind) := by simp [behind]
    rw [split, readItems, read]
    simp only [Option.map_some, comma, readItems_space (spaced.newline depth), behind, later]

/-- A key is read with the colon behind it. -/
theorem readKey_between (name : Text) {w : Text} (rest : Text) :
    readKey ((Quoted.ofText name).between ++ ':' :: w ++ rest) = (Quoted.ofText name, some (':' :: (w ++ rest))) := by
  have split : (Quoted.ofText name).between ++ ':' :: w ++ rest =
      '"' :: (escape name ++ '"' :: ':' :: (w ++ rest)) := by
    simp [Quoted.between, Quoted.ofText]
  have quote : skipSpace ('"' :: (escape name ++ '"' :: ':' :: (w ++ rest))) =
      '"' :: (escape name ++ '"' :: ':' :: (w ++ rest)) := rfl
  rw [split, readKey, quote]
  simp only [readQuoted_escape]
  rfl

/-- A field with its name as it is written. -/
def writtenField (field : Text × Json) : Quoted × Json := (Quoted.ofText field.1, field.2)

/-- A field behind a comma, or behind the opening brace. -/
def fieldText (style : Style) (depth : Nat) (field : Text × Json) : Text :=
  (Quoted.ofText field.1).between ++ style.colon ++ field.2.write style depth

/-- The fields of a record are read up to its closing brace. -/
theorem readFields_write (spaced : style.Spaced) {w : Text} (space : Space w) (depth : Nat) (rest : Text)
    {field : Text × Json} {fields : List (Text × Json)} (each : ∀ f ∈ field :: fields, ReadsBack style f.2) {fuel : Nat}
    (enough : 2 * (fieldText style depth field ++ writeFields style depth (fields.map writtenField)).length < fuel) :
    readFields fuel
        (fieldText style depth field ++ writeFields style depth (fields.map writtenField) ++ (w ++ '\x7d' :: rest)) =
      ((field :: fields).map writtenField, none, some rest) := by
  obtain ⟨gap, colon, space'⟩ := spaced.colon
  have first : ∀ (f : Text × Json) (t : Text), fieldText style depth f ++ t =
      (Quoted.ofText f.1).between ++ ':' :: gap ++ (f.2.write style depth ++ t) := by simp [fieldText, colon]
  have shorter : ∀ f : Text × Json, (f.2.write style depth).length < (fieldText style depth f).length := by
    intro f
    simp only [fieldText, colon, List.length_append, List.length_cons]
    omega
  induction fields generalizing field fuel with
  | nil =>
    obtain ⟨fuel, rfl⟩ := Nat.exists_eq_succ_of_ne_zero (Nat.ne_zero_of_lt enough)
    simp only [List.map_nil, writeFields, List.append_nil] at enough ⊢
    have lead := shorter field
    have read := each field List.mem_cons_self depth fuel (w ++ '\x7d' :: rest) (by omega)
    have closed : skipSpace (w ++ '\x7d' :: rest) = '\x7d' :: rest := by rw [skipSpace_append space]; rfl
    rw [first, readFields, readKey_between]
    simp only [readValue_space space', read, Option.map_some, closed]
    rfl
  | cons next others ih =>
    obtain ⟨fuel, rfl⟩ := Nat.exists_eq_succ_of_ne_zero (Nat.ne_zero_of_lt enough)
    have more : writeFields style depth ((next :: others).map writtenField) =
        ',' :: (style.newline depth ++
          (fieldText style depth next ++ writeFields style depth (others.map writtenField))) :=
      writeFields_cons style depth _ _ _
    rw [more] at enough ⊢
    simp only [List.length_append, List.length_cons] at enough
    have lead := shorter field
    let behind := fieldText style depth next ++ writeFields style depth (others.map writtenField) ++
      (w ++ '\x7d' :: rest)
    have read := each field List.mem_cons_self depth fuel (',' :: (style.newline depth ++ behind)) (by omega)
    have room :
        2 * (fieldText style depth next ++ writeFields style depth (others.map writtenField)).length < fuel := by
      rw [List.length_append]
      omega
    have later := ih (fun f member => each f (List.mem_cons_of_mem _ member)) room
    have comma : skipSpace (',' :: (style.newline depth ++ behind)) = ',' :: (style.newline depth ++ behind) := rfl
    have split : fieldText style depth field ++ ',' :: (style.newline depth ++ (fieldText style depth next ++
        writeFields style depth (others.map writtenField))) ++ (w ++ '\x7d' :: rest) =
        fieldText style depth field ++ ',' :: (style.newline depth ++ behind) := by simp [behind]
    rw [split, first, readFields, readKey_between]
    simp only [readValue_space space', read, Option.map_some, comma, readFields_space (spaced.newline depth),
      behind, later]
    rfl

/-! ### Values -/

/-- The first character of a written value is no white space and closes nothing. -/
theorem write_cons {j : Json} (plain : Plain j) (style : Style) (depth : Nat) :
    ∃ c t, j.write style depth = c :: t ∧ isSpace c = false ∧ c ≠ ']' := by
  cases plain with
  | null => exact ⟨_, _, rfl, by decide, by decide⟩
  | bool b => cases b <;> exact ⟨_, _, rfl, by decide, by decide⟩
  | text t => exact ⟨_, _, rfl, by decide, by decide⟩
  | @list items _ => cases items <;> exact ⟨_, _, rfl, by decide, by decide⟩
  | @record fields _ => cases fields <;> exact ⟨_, _, rfl, by decide, by decide⟩

/-- The text of a value holds a step for it. -/
theorem exists_step {j : Json} (plain : Plain j) {depth fuel : Nat} (enough : 2 * (j.write style depth).length ≤ fuel) :
    ∃ k, fuel = k + 1 := by
  obtain ⟨c, t, shape, -⟩ := write_cons plain style depth
  rw [shape, List.length_cons] at enough
  exact Nat.exists_eq_add_one.2 (by omega)

theorem readValue_list {c : Char} (other : c ≠ ']') {fuel : Nat} {r t : Text} (front : skipSpace r = c :: t)
    {items : List Json} {rest : Text} (read : readItems fuel (c :: t) = (items, none, some rest)) :
    readValue (fuel + 1) ('[' :: r) = (ofList items, some rest) := by
  have ink : skipSpace ('[' :: r) = '[' :: r := rfl
  have opened : readAtom ('[' :: r) = none := rfl
  simp only [readValue, ink, opened, front]
  split
  · next same => exact absurd (List.cons.inj same).1 other
  · rw [read]
    rfl

theorem readValue_record {c : Char} (other : c ≠ '\x7d') {fuel : Nat} {r t : Text} (front : skipSpace r = c :: t)
    {fields : List (Text × Json)} {rest : Text}
    (read : readFields fuel (c :: t) = (fields.map writtenField, none, some rest)) :
    readValue (fuel + 1) ('\x7b' :: r) = (ofFields fields, some rest) := by
  have ink : skipSpace ('\x7b' :: r) = '\x7b' :: r := rfl
  have opened : readAtom ('\x7b' :: r) = none := rfl
  simp only [readValue, ink, opened]
  split
  · next same => exact absurd (List.cons.inj same).1 (by decide)
  · next same =>
    obtain ⟨-, rfl⟩ := List.cons.inj same
    rw [front]
    split
    · next same => exact absurd (List.cons.inj same).1 other
    · rw [read]
      rfl
  · next same => cases same

theorem list_readsBack (spaced : style.Spaced) {items : List Json} (plain : ∀ j ∈ items, Plain j)
    (each : ∀ j ∈ items, ReadsBack style j) : ReadsBack style (ofList items) := by
  intro depth fuel rest enough
  obtain ⟨fuel, rfl⟩ := exists_step (.list plain) enough
  cases items with
  | nil => rfl
  | cons item items =>
    obtain ⟨c, t, shape, ink, other⟩ := write_cons (plain item List.mem_cons_self) style (depth + 1)
    let inside := item.write style (depth + 1) ++ writeItems style (depth + 1) items ++
      (style.newline depth ++ ']' :: rest)
    have split : (ofList (item :: items)).write style depth ++ rest = '[' :: (style.newline (depth + 1) ++ inside) := by
      simp [ofList, write, inside]
    obtain ⟨u, first⟩ : ∃ u, inside = c :: u := ⟨_, by simp only [inside, shape, List.cons_append]; rfl⟩
    have front : skipSpace (style.newline (depth + 1) ++ inside) = c :: u := by
      rw [skipSpace_append (spaced.newline _), first, skipSpace_ink ink]
    have room : 2 * (item.write style (depth + 1) ++ writeItems style (depth + 1) items).length < fuel := by
      simp only [ofList, write, List.length_append, List.length_cons] at enough ⊢
      omega
    have read := readItems_write spaced (spaced.newline depth) (depth + 1) rest each room
    rw [split]
    exact readValue_list other front (first ▸ read)

theorem record_readsBack (spaced : style.Spaced) {fields : List (Text × Json)} (plain : ∀ f ∈ fields, Plain f.2)
    (each : ∀ f ∈ fields, ReadsBack style f.2) : ReadsBack style (ofFields fields) := by
  intro depth fuel rest enough
  obtain ⟨fuel, rfl⟩ := exists_step (.record plain) enough
  cases fields with
  | nil => rfl
  | cons field fields =>
    let inside := fieldText style (depth + 1) field ++ writeFields style (depth + 1) (fields.map writtenField) ++
      (style.newline depth ++ '\x7d' :: rest)
    have written : (ofFields (field :: fields)).write style depth = '\x7b' :: (style.newline (depth + 1) ++
        (fieldText style (depth + 1) field ++ writeFields style (depth + 1) (fields.map writtenField)) ++
        style.newline depth ++ ['\x7d']) := by
      rw [show ofFields (field :: fields) =
        .record ((Quoted.ofText field.1, field.2) :: fields.map writtenField) none from rfl]
      simp [write, fieldText]
    have split : (ofFields (field :: fields)).write style depth ++ rest =
        '\x7b' :: (style.newline (depth + 1) ++ inside) := by
      simp [written, inside]
    have front : skipSpace (style.newline (depth + 1) ++ inside) = '"' :: inside.drop 1 := by
      rw [skipSpace_append (spaced.newline _)]
      rfl
    have room : 2 * (fieldText style (depth + 1) field ++
        writeFields style (depth + 1) (fields.map writtenField)).length < fuel := by
      simp only [written, List.length_append, List.length_cons] at enough ⊢
      omega
    have read := readFields_write spaced (spaced.newline depth) (depth + 1) rest each room
    rw [split]
    exact readValue_record (by decide) front read

theorem text_readsBack (t : Text) : ReadsBack style (ofText t) := by
  intro depth fuel rest enough
  obtain ⟨fuel, rfl⟩ := exists_step (.text t) enough
  have split : (ofText t).write style depth ++ rest = '"' :: (escape t ++ '"' :: rest) := by
    simp [ofText, write, Quoted.between, Quoted.ofText]
  have opened : ∀ r, readValue (fuel + 1) ('"' :: r) = (.text (readQuoted r).1, (readQuoted r).2) := fun _ => rfl
  rw [split, opened, readQuoted_escape]
  rfl

/-- A document without numbers is read as it was written. -/
theorem readValue_write (spaced : style.Spaced) {j : Json} (plain : Plain j) : ReadsBack style j := by
  induction plain with
  | null =>
    intro depth fuel rest enough
    obtain ⟨fuel, rfl⟩ := exists_step .null enough
    rfl
  | bool b =>
    intro depth fuel rest enough
    obtain ⟨fuel, rfl⟩ := exists_step (.bool b) enough
    cases b <;> rfl
  | text t => exact text_readsBack t
  | list plain each => exact list_readsBack spaced plain each
  | record plain each => exact record_readsBack spaced plain each

/-- A written document is read as a whole. -/
theorem readDocument_write (spaced : style.Spaced) {j : Json} (plain : Plain j) :
    readDocument (j.write style 0) = ⟨j, none⟩ := by
  have read := readValue_write spaced plain 0 (2 * (j.write style 0).length + 2) [] (by omega)
  rw [List.append_nil] at read
  rw [readDocument, read]
  rfl

/-- A value that is taken from a plain document is taken from its text. -/
theorem decodeText_write {α : Type} (spaced : style.Spaced) {j : Json} (plain : Plain j)
    {take : Json → Decoded α} {a : α} (taken : take j = .ok a) :
    decodeText (j.write style 0) take = .ok a := by
  rw [decodeText, readDocument_write spaced plain, Document.decode, taken]
  rfl

end Flowchart.Json
