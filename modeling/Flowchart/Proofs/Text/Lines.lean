import Flowchart.Proofs.Text.Punctuation
import Flowchart.Proofs.Text.Trim

/-!
The lines of a text. Rows that hold no newline are found again in the text they are joined to
(`rows_joinRows`), and a newline divides the lines before it from those behind it
(`lines_append_newline`). Rows that end in something other than white space leave no carriage return
before a newline (`joinRows_no_return`).
-/
namespace Flowchart.Text

theorem rows_cons_newline (t : Text) : rows ('\n' :: t) = [] :: rows t := by simp [rows]

theorem rows_append_single {s t row : Text} {others : List Text} (single : '\n' ∉ s) (first : rows t = row :: others) :
    rows (s ++ t) = (s ++ row) :: others := by
  induction s with
  | nil => exact first
  | cons c s ih =>
    have later := ih fun member => single (List.mem_cons_of_mem _ member)
    have other : c ≠ '\n' := fun same => single (same ▸ List.mem_cons_self)
    rw [List.cons_append, rows, if_neg other, later]
    rfl

theorem rows_eq_splitOn (t : Text) : rows t = t.splitOn '\n' := by
  induction t with
  | nil => rfl
  | cons c r ih =>
    rw [List.splitOn_cons_eq_if_modifyHead, rows, ih]
    by_cases newline : c = '\n'
    · simp [newline]
    · have filled := List.splitOn_ne_nil '\n' r
      cases pieces : List.splitOn '\n' r with
      | nil => exact absurd pieces filled
      | cons row others => simp [newline]

theorem rows_append_newline (s t : Text) : rows (s ++ '\n' :: t) = rows s ++ rows t := by
  simp only [rows_eq_splitOn, List.splitOn_append_cons_self]

theorem rows_of_no_newline {t : Text} (single : '\n' ∉ t) : rows t = [t] := by
  rw [rows_eq_splitOn, List.splitOn_eq_singleton single]

theorem rows_joinRows {rs : List Text} (some : rs ≠ []) (single : ∀ row ∈ rs, '\n' ∉ row) :
    rows (joinRows rs) = rs := by
  rw [rows_eq_splitOn, joinRows]
  exact List.splitOn_intercalate '\n' single some

/-- A row is made of characters of the text, newlines apart. -/
theorem mem_of_mem_rows {t row : Text} (member : row ∈ rows t) {c : Char} (found : c ∈ row) : c ∈ t ∧ c ≠ '\n' := by
  induction t generalizing row with
  | nil => simp_all [rows]
  | cons d r ih =>
    rw [rows] at member
    split at member
    · rcases List.mem_cons.1 member with rfl | later
      · cases found
      · exact (ih later found).imp_left (List.mem_cons_of_mem _)
    · next other =>
      cases split : rows r with
      | nil => exact absurd split (rows_ne_nil r)
      | cons first others =>
        simp only [split] at member ih
        rcases List.mem_cons.1 member with rfl | later
        · rcases List.mem_cons.1 found with rfl | behind
          · exact ⟨List.mem_cons_self, other⟩
          · exact (ih List.mem_cons_self behind).imp_left (List.mem_cons_of_mem _)
        · exact (ih (List.mem_cons_of_mem _ later) found).imp_left (List.mem_cons_of_mem _)

theorem newline_not_mem_rows {t row : Text} (member : row ∈ rows t) : '\n' ∉ row :=
  fun found => (mem_of_mem_rows member found).2 rfl

/-! ### Lines -/

theorem linesOfRows_append {first second : List Text} (some : second ≠ []) :
    linesOfRows (first ++ second) = first.map dropReturn ++ linesOfRows second := by
  induction first with
  | nil => rfl
  | cons row rest ih =>
    cases shape : rest ++ second with
    | nil => simp_all
    | cons next others =>
      rw [List.cons_append, shape, linesOfRows, ← shape, ih, List.map_cons, List.cons_append]
      simp

theorem lines_append_newline (s t : Text) : lines (s ++ '\n' :: t) = (rows s).map dropReturn ++ lines t := by
  rw [lines, rows_append_newline, linesOfRows_append (rows_ne_nil t), lines]

/-- A line without a newline, put in front of others. -/
theorem lines_cons_line {line t : Text} (single : '\n' ∉ line) :
    lines (line ++ '\n' :: t) = dropReturn line :: lines t := by
  rw [lines_append_newline, rows_of_no_newline single]
  rfl

theorem dropReturn_isPrefix (row : Text) : dropReturn row <+: row := by
  unfold dropReturn
  split
  · exact List.dropLast_prefix row
  · exact List.prefix_rfl

theorem dropReturn_of_endsInk {row : Text} (ends : EndsInk row) : dropReturn row = row := by
  unfold dropReturn
  split
  · next last => exact absurd (by decide : isWhite '\r') (ends _ last)
  · rfl

theorem trim_dropReturn (row : Text) : (dropReturn row).trim = row.trim := by
  unfold dropReturn
  split
  · next last =>
    have white : White ['\r'] := by simp [White, isWhite]
    conv => rhs; rw [← List.dropLast_append_getLast? _ last, trim_append_white white]
  · rfl

theorem linesOfRows_subset {rs : List Text} {line : Text} (member : line ∈ linesOfRows rs) :
    ∃ row ∈ rs, line <+: row := by
  fun_induction linesOfRows rs with
  | case1 => cases member
  | case2 => cases member
  | case3 last _ =>
    rw [List.mem_singleton.1 member]
    exact ⟨last, List.mem_cons_self, List.prefix_rfl⟩
  | case4 row others _ ih =>
    rcases List.mem_cons.1 member with rfl | later
    · exact ⟨row, List.mem_cons_self, dropReturn_isPrefix row⟩
    · obtain ⟨next, inside, initial⟩ := ih later
      exact ⟨next, List.mem_cons_of_mem _ inside, initial⟩

/-- No row is lost, but for a carriage return or when it is empty. -/
theorem mem_linesOfRows {rs : List Text} {row : Text} (member : row ∈ rs) :
    row = [] ∨ row ∈ linesOfRows rs ∨ dropReturn row ∈ linesOfRows rs := by
  fun_induction linesOfRows rs with
  | case1 => cases member
  | case2 => exact .inl (List.mem_singleton.1 member)
  | case3 => exact .inr (.inl member)
  | case4 first others _ ih =>
    rcases List.mem_cons.1 member with rfl | later
    · exact .inr (.inr List.mem_cons_self)
    · exact (ih later).imp_right (Or.imp (List.mem_cons_of_mem _) (List.mem_cons_of_mem _))

theorem mem_of_mem_lines {t line : Text} (member : line ∈ lines t) {c : Char} (found : c ∈ line) : c ∈ t := by
  obtain ⟨row, inside, initial⟩ := linesOfRows_subset member
  exact (mem_of_mem_rows inside (initial.subset found)).1

theorem newline_not_mem_lines {t line : Text} (member : line ∈ lines t) : '\n' ∉ line := by
  obtain ⟨row, inside, initial⟩ := linesOfRows_subset member
  exact fun newline => newline_not_mem_rows inside (initial.subset newline)

/-- A text without newlines lies in one row. -/
theorem infix_joinRows {mark : Text} (single : '\n' ∉ mark) {rs : List Text} (some : rs ≠ []) :
    mark <:+: joinRows rs ↔ ∃ row ∈ rs, mark <:+: row := by
  induction rs with
  | nil => exact absurd rfl some
  | cons row others ih =>
    cases others with
    | nil => simp [joinRows]
    | cons next others =>
      rw [joinRows_cons_cons, infix_append_cons single, ih (List.cons_ne_nil _ _)]
      simp

theorem infix_rows {mark : Text} (single : '\n' ∉ mark) (t : Text) :
    mark <:+: t ↔ ∃ row ∈ rows t, mark <:+: row := by
  conv => lhs; rw [← joinRows_rows t]
  exact infix_joinRows single (rows_ne_nil t)

/-! ### Rows that end in ink -/

/-- Rows that are not empty and end in ink are the lines of the text they are joined to. -/
theorem lines_joinRows {rs : List Text} (single : ∀ row ∈ rs, '\n' ∉ row) (filled : ∀ row ∈ rs, row ≠ [])
    (ends : ∀ row ∈ rs, EndsInk row) : lines (joinRows rs) = rs := by
  by_cases empty : rs = []
  · subst empty
    rfl
  · rw [lines, rows_joinRows empty single]
    clear empty single
    fun_induction linesOfRows rs with
    | case1 => rfl
    | case2 => exact absurd rfl (filled [] List.mem_cons_self)
    | case3 => rfl
    | case4 row others _ ih =>
      rw [dropReturn_of_endsInk (ends row List.mem_cons_self)]
      rw [ih (fun r h => filled r (List.mem_cons_of_mem _ h)) (fun r h => ends r (List.mem_cons_of_mem _ h))]

/-- A carriage return before a newline ends a row. -/
theorem exists_row_of_return {t : Text} (found : ['\r', '\n'] <:+: t) : ∃ row ∈ rows t, row.getLast? = some '\r' := by
  induction t with
  | nil => exact absurd (List.eq_nil_of_infix_nil found) (by simp)
  | cons c r ih =>
    rcases List.infix_cons_iff.1 found with ⟨rest, here⟩ | later
    · obtain ⟨rfl, rfl⟩ : '\r' = c ∧ '\n' :: rest = r := by simpa using here
      exact ⟨['\r'], by simp [rows], rfl⟩
    · obtain ⟨row, member, last⟩ := ih later
      by_cases newline : c = '\n'
      · subst newline
        exact ⟨row, by rw [rows_cons_newline]; exact List.mem_cons_of_mem _ member, last⟩
      · cases split : rows r with
        | nil => exact absurd split (rows_ne_nil r)
        | cons first others =>
          have shape : rows (c :: r) = (c :: first) :: others := by simp [rows, newline, split]
          rw [split] at member
          rw [shape]
          rcases List.mem_cons.1 member with rfl | behind
          · exact ⟨c :: row, List.mem_cons_self, by rw [List.getLast?_cons, last]; rfl⟩
          · exact ⟨row, List.mem_cons_of_mem _ behind, last⟩

theorem joinRows_endsInk {rs : List Text} (filled : ∀ row ∈ rs, row ≠ []) (ends : ∀ row ∈ rs, EndsInk row) :
    EndsInk (joinRows rs) := by
  induction rs with
  | nil =>
    intro c last
    cases last
  | cons row others ih =>
    cases others with
    | nil => simpa [joinRows] using ends row List.mem_cons_self
    | cons next others =>
      have later := ih (fun r h => filled r (List.mem_cons_of_mem _ h)) fun r h => ends r (List.mem_cons_of_mem _ h)
      have goesOn : joinRows (next :: others) ≠ [] := by
        obtain ⟨c, rest, shape⟩ := List.exists_cons_of_ne_nil (filled next (by simp))
        rw [shape, joinRows_head]
        exact List.cons_ne_nil _ _
      rw [joinRows_cons_cons, List.append_cons]
      exact endsInk_append goesOn later

theorem joinRows_no_return {rs : List Text} (single : ∀ row ∈ rs, '\n' ∉ row) (ends : ∀ row ∈ rs, EndsInk row) :
    ¬ ['\r', '\n'] <:+: joinRows rs := by
  intro found
  by_cases empty : rs = []
  · subst empty
    exact absurd (List.eq_nil_of_infix_nil found) (by simp)
  · obtain ⟨row, member, last⟩ := exists_row_of_return found
    rw [rows_joinRows empty single] at member
    exact ends row member _ last (by decide)

end Flowchart.Text
