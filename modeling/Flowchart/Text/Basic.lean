import Flowchart.Text.CharClass

/-!
Text as a list of characters: its length in bytes, trimming, searching, and its lines.
Searching and splitting lose nothing: the pieces of `cut`, `cutLast` and `rows` make up the
text again (`cut_eq_some`, `cutLast_eq_some`, `joinRows_rows`).
-/
namespace Flowchart

/-- The text of a diagram, a line or a label. -/
abbrev Text := List Char

namespace Text

/-- The length in bytes of the UTF-8 form. -/
def size : Text → Nat
  | [] => 0
  | c :: t => c.utf8Size + size t

@[simp] theorem size_nil : size [] = 0 := rfl

@[simp] theorem size_cons (c : Char) (t : Text) : size (c :: t) = c.utf8Size + size t := rfl

@[simp] theorem size_append (s t : Text) : size (s ++ t) = size s + size t := by
  induction s with
  | nil => simp
  | cons c s ih => simp [ih, Nat.add_assoc]

/-- The decimal digits of a number. -/
def ofNat (n : Nat) : Text := Nat.toDigits 10 n

/-! ### Trimming -/

/-- Drops the longest end of the list that satisfies `p`. -/
def dropEndWhile (p : Char → Bool) (t : Text) : Text := (t.reverse.dropWhile p).reverse

/-- Drops the white space at the start. -/
def trimStart (t : Text) : Text := t.dropWhile isWhite

/-- Drops the white space at the end. -/
def trimEnd (t : Text) : Text := t.dropEndWhile isWhite

/-- Drops the white space at both ends. -/
def trim (t : Text) : Text := t.trimStart.trimEnd

/-- Only white characters, or none. -/
def isWhiteOnly (t : Text) : Bool := t.all isWhite

/-- The first run of characters that are not white. -/
def firstWord (t : Text) : Text := t.trimStart.takeWhile (!isWhite ·)

/-! ### Searching -/

/-- What follows a mark at the start of the text. -/
def after? : (mark : Text) → Text → Option Text
  | [], t => some t
  | m :: mark, c :: t => if m = c then after? mark t else none
  | _ :: _, [] => none

/-- What is before a mark at the end of the text. -/
def before? (mark t : Text) : Option Text := (after? mark.reverse t.reverse).map List.reverse

theorem after?_eq_some {mark t rest : Text} : after? mark t = some rest ↔ t = mark ++ rest := by
  fun_induction after? mark t with
  | case1 => simp
  | case2 => simp_all
  | case3 m mark c t h => simp [Ne.symm h]
  | case4 => simp

theorem before?_eq_some {mark t rest : Text} : before? mark t = some rest ↔ t = rest ++ mark := by
  simp only [before?, Option.map_eq_some_iff, after?_eq_some, List.reverse_eq_append_iff]
  constructor
  · rintro ⟨r, h, rfl⟩
    simpa using h
  · intro h
    exact ⟨rest.reverse, by simpa using h, by simp⟩

/-- The text before and after the first occurrence of a mark. -/
def cut (mark : Text) : Text → Option (Text × Text)
  | [] => if mark = [] then some ([], []) else none
  | c :: r =>
    match after? mark (c :: r) with
    | some after => some ([], after)
    | none => (cut mark r).map fun (before, after) => (c :: before, after)

/-- The text before and after the last occurrence of a mark. -/
def cutLast (mark : Text) : Text → Option (Text × Text)
  | [] => if mark = [] then some ([], []) else none
  | c :: r =>
    match cutLast mark r with
    | some (before, after) => some (c :: before, after)
    | none => (after? mark (c :: r)).map fun after => ([], after)

/-- What stands between an opening and a closing mark at the two ends of the text. -/
def between? (opening closing t : Text) : Option Text :=
  (after? opening t).bind (before? closing)

/-- Cutting loses nothing. -/
theorem cut_eq_some {mark t before after : Text} (h : cut mark t = some (before, after)) :
    t = before ++ mark ++ after := by
  fun_induction cut mark t generalizing before after with
  | case1 => simp_all
  | case2 => simp at h
  | case3 c r after' hp =>
    obtain ⟨rfl, rfl⟩ := Prod.mk.inj (Option.some.inj h)
    simpa using after?_eq_some.1 hp
  | case4 c r _ ih =>
    obtain ⟨⟨b, a⟩, hba, hr⟩ := Option.map_eq_some_iff.1 h
    obtain ⟨rfl, rfl⟩ := Prod.mk.inj hr
    simp [ih hba]

/-- Cutting at the last occurrence loses nothing. -/
theorem cutLast_eq_some {mark t before after : Text} (h : cutLast mark t = some (before, after)) :
    t = before ++ mark ++ after := by
  fun_induction cutLast mark t generalizing before after with
  | case1 => simp_all
  | case2 => simp at h
  | case3 c r b a hr ih =>
    obtain ⟨rfl, rfl⟩ := Prod.mk.inj (Option.some.inj h)
    simp [ih hr]
  | case4 c r _ ih =>
    obtain ⟨a, hp, hr⟩ := Option.map_eq_some_iff.1 h
    obtain ⟨rfl, rfl⟩ := Prod.mk.inj hr
    simpa using after?_eq_some.1 hp

/-! ### Lines -/

/-- The pieces between newlines, at least one. -/
def rows : Text → List Text
  | [] => [[]]
  | c :: r =>
    if c = '\n' then [] :: rows r
    else match rows r with
      | [] => [[c]]
      | row :: others => (c :: row) :: others

/-- The rows with newlines between them. -/
def joinRows (rows : List Text) : Text := ['\n'].intercalate rows

/-- Drops a carriage return at the end. -/
def dropReturn (row : Text) : Text :=
  if row.getLast? = some '\r' then row.dropLast else row

theorem rows_ne_nil (t : Text) : rows t ≠ [] := by
  fun_induction rows t <;> simp_all

theorem joinRows_cons_cons (row next : Text) (others : List Text) :
    joinRows (row :: next :: others) = row ++ '\n' :: joinRows (next :: others) := by
  simp [joinRows, List.intercalate]

theorem joinRows_head (c : Char) (row : Text) (others : List Text) :
    joinRows ((c :: row) :: others) = c :: joinRows (row :: others) := by
  cases others <;> simp [joinRows, List.intercalate]

/-- Splitting at newlines loses nothing. -/
theorem joinRows_rows (t : Text) : joinRows (rows t) = t := by
  induction t with
  | nil => rfl
  | cons c r ih =>
    unfold rows
    cases hr : rows r with
    | nil => exact absurd hr (rows_ne_nil r)
    | cons row others =>
      rw [hr] at ih
      split
      · next h => subst h; rw [joinRows_cons_cons, ih]; rfl
      · rw [joinRows_head, ih]

/-- The lines that rows make. A row that a newline ends loses a carriage return before it; the
    row behind the last newline is a line when it is not empty, and is kept as it is. -/
def linesOfRows : List Text → List Text
  | [] => []
  | [last] => if last = [] then [] else [last]
  | row :: others => dropReturn row :: linesOfRows others

/-- The lines of a text. -/
def lines (t : Text) : List Text := linesOfRows t.rows

end Text
end Flowchart
