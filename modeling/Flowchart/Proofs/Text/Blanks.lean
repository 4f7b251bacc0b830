import Flowchart.Proofs.Text.Lines
import Flowchart.Proofs.Text.Punctuation
import Flowchart.Repair.Noise

/-!
Runs of blanks. Collapsing them leaves every other character where it is, so it can be done apart on both
sides of such a character (`collapse_append`). Hence whatever takes a text apart at characters
that are not blank does the same before and after: trimming (`trim_collapse`), searching (`search_collapse`, of
which `cut_collapse` is a case) and dividing into rows (`rows_collapse`).
-/
namespace Flowchart
open Text Repair

/-- No character is a blank. -/
def Text.Ink (t : Text) : Prop := ∀ c ∈ t, isBlank c = false

instance (t : Text) : Decidable t.Ink :=
  decidable_of_iff (t.all fun c => decide (isBlank c = false)) (by simp [Ink])

namespace Repair

@[simp] theorem collapse_nil : collapseBlanks [] = [] := by rw [collapseBlanks]

theorem collapse_ink {c : Char} (ink : isBlank c = false) (r : Text) :
    collapseBlanks (c :: r) = c :: collapseBlanks r := by
  rw [collapseBlanks]
  simp [ink]

theorem collapse_append (s : Text) {c : Char} (ink : isBlank c = false) (t : Text) :
    collapseBlanks (s ++ c :: t) = collapseBlanks s ++ c :: collapseBlanks t := by
  fun_induction collapseBlanks s with
  | case1 => simp [collapse_ink ink]
  | case2 d r run ih =>
    simp only [Bool.and_eq_true] at run
    obtain ⟨e, r, rfl⟩ : ∃ e r', r = e :: r' := by
      cases r with
      | nil => simp at run
      | cons e r => exact ⟨e, r, rfl⟩
    have second : isBlank e := by simpa using run.2
    have passed : (e :: r ++ c :: t).dropWhile isBlank = (e :: r).dropWhile isBlank ++ c :: t := by
      rw [List.dropWhile_append]
      split
      · next all => simp [ink, List.isEmpty_iff.1 all]
      · rfl
    rw [List.cons_append, collapseBlanks, passed, if_pos (by simp [run.1, second]), ih]
    rfl
  | case3 d r single ih =>
    rw [List.cons_append, collapseBlanks, if_neg, ih, List.cons_append]
    cases r with
    | nil => simp [ink]
    | cons e r => simpa using single

theorem collapse_append_of_ink (s : Text) {t : Text} (ink : ∀ c ∈ t.head?, isBlank c = false) :
    collapseBlanks (s ++ t) = collapseBlanks s ++ collapseBlanks t := by
  cases t with
  | nil => simp
  | cons c t => rw [collapse_append s (ink c rfl), collapse_ink (ink c rfl)]

theorem collapse_of_ink {t : Text} (ink : t.Ink) : collapseBlanks t = t := by
  induction t with
  | nil => simp
  | cons c r ih =>
    rw [collapse_ink (ink c List.mem_cons_self), ih fun d member => ink d (List.mem_cons_of_mem _ member)]

theorem ink_append {mark : Text} (ink : mark.Ink) (t : Text) :
    collapseBlanks (mark ++ t) = mark ++ collapseBlanks t := by
  induction mark with
  | nil => rfl
  | cons c r ih =>
    rw [List.cons_append, collapse_ink (ink c List.mem_cons_self), List.cons_append,
      ih fun d member => ink d (List.mem_cons_of_mem _ member)]

@[simp] theorem collapse_eq_nil {t : Text} : collapseBlanks t = [] ↔ t = [] := by
  constructor
  · intro empty
    cases t with
    | nil => rfl
    | cons c r =>
      rw [collapseBlanks] at empty
      split at empty <;> cases empty
  · rintro rfl
    simp

theorem mem_collapse {c : Char} {t : Text} (member : c ∈ collapseBlanks t) : c ∈ t ∨ c = ' ' := by
  fun_induction collapseBlanks t with
  | case1 => cases member
  | case2 d r _ ih =>
    rcases List.mem_cons.1 member with rfl | later
    · exact .inr rfl
    · exact (ih later).imp_left fun inside => List.mem_cons_of_mem _ ((List.dropWhile_suffix _).subset inside)
  | case3 d r _ ih =>
    rcases List.mem_cons.1 member with rfl | later
    · exact .inl List.mem_cons_self
    · exact (ih later).imp_left (List.mem_cons_of_mem _)

theorem mem_collapse_iff {c : Char} (ink : isBlank c = false) {t : Text} : c ∈ collapseBlanks t ↔ c ∈ t := by
  constructor
  · intro member
    refine (mem_collapse member).resolve_right ?_
    rintro rfl
    cases ink
  · intro member
    have other : ∀ d, isBlank d → c ≠ d := by
      rintro d blank rfl
      rw [ink] at blank
      cases blank
    fun_induction collapseBlanks t with
    | case1 => exact member
    | case2 d r run ih =>
      have later := (List.mem_cons.1 member).resolve_left (other d (Bool.and_eq_true_iff.1 run).1)
      rw [← List.takeWhile_append_dropWhile (p := isBlank) (l := r)] at later
      refine List.mem_cons_of_mem _ (ih ((List.mem_append.1 later).resolve_left fun inside => ?_))
      exact other c (List.mem_takeWhile_imp inside) rfl
    | case3 d r _ ih =>
      rcases List.mem_cons.1 member with rfl | later
      · exact List.mem_cons_self
      · exact List.mem_cons_of_mem _ (ih later)

theorem count_collapse {c : Char} (ink : isBlank c = false) (t : Text) : (collapseBlanks t).count c = t.count c := by
  have other : ∀ {d : Char}, isBlank d → d ≠ c := by
    rintro d blank rfl
    rw [ink] at blank
    cases blank
  fun_induction collapseBlanks t with
  | case1 => rfl
  | case2 d r run ih =>
    have blanks : (r.takeWhile isBlank).count c = 0 :=
      List.count_eq_zero.2 fun member => other (List.mem_takeWhile_imp member) rfl
    have split := congrArg (List.count c) (List.takeWhile_append_dropWhile (p := isBlank) (l := r))
    rw [List.count_append, blanks, Nat.zero_add] at split
    rw [List.count_cons_of_ne (other (by decide)),
      List.count_cons_of_ne (other (Bool.and_eq_true_iff.1 run).1), ih, split]
  | case3 d r _ ih => rw [List.count_cons, List.count_cons, ih]

/-- The first character stays, but for one blank in place of another. -/
theorem head?_collapse (t : Text) :
    (collapseBlanks t).head? = t.head? ∨
      (∃ c ∈ t.head?, isBlank c) ∧ (collapseBlanks t).head? = some ' ' := by
  cases t with
  | nil => simp
  | cons c r =>
    rw [collapseBlanks]
    split
    · next run =>
      simp only [Bool.and_eq_true] at run
      exact .inr ⟨⟨c, rfl, run.1⟩, rfl⟩
    · exact .inl rfl

theorem head?_collapse_eq_some {t : Text} {c : Char} (ink : isBlank c = false) :
    (collapseBlanks t).head? = some c ↔ t.head? = some c := by
  rcases head?_collapse t with same | ⟨⟨d, first, blank⟩, space⟩
  · rw [same]
  · rw [space, Option.mem_def.1 first]
    constructor
    · intro same
      rw [← Option.some.inj same] at ink
      cases ink
    · intro same
      rw [Option.some.inj same, ink] at blank
      cases blank

/-! ### Longest runs -/

/-- Passing over characters, blanks among them. -/
theorem dropWhile_collapse {p : Char → Bool} (blanks : ∀ c, isBlank c → p c) (t : Text) :
    (collapseBlanks t).dropWhile p = collapseBlanks (t.dropWhile p) := by
  fun_induction collapseBlanks t with
  | case1 => simp
  | case2 c r run ih =>
    simp only [Bool.and_eq_true] at run
    have again : (r.dropWhile isBlank).dropWhile p = r.dropWhile p := by
      conv => rhs; rw [← List.takeWhile_append_dropWhile (p := isBlank) (l := r)]
      rw [List.dropWhile_append_of_pos fun d inside => blanks d (List.mem_takeWhile_imp inside)]
    rw [List.dropWhile_cons_of_pos (blanks ' ' (by decide)), List.dropWhile_cons_of_pos (blanks c run.1), ih, again]
  | case3 c r single ih =>
    by_cases passed : p c
    · rw [List.dropWhile_cons_of_pos passed, List.dropWhile_cons_of_pos passed, ih]
    · have ink : isBlank c = false := by
        by_contra blank
        exact passed (blanks c (by simpa using blank))
      rw [List.dropWhile_cons_of_neg passed, List.dropWhile_cons_of_neg passed, collapse_ink ink]

section
variable {p : Char → Bool} (inked : ∀ c, p c → isBlank c = false)
include inked

/-- Reading a run of characters that are no blanks. -/
theorem span_collapse (t : Text) :
    (collapseBlanks t).takeWhile p = t.takeWhile p ∧
      (collapseBlanks t).dropWhile p = collapseBlanks (t.dropWhile p) := by
  induction t with
  | nil => simp
  | cons c r ih =>
    by_cases read : p c
    · rw [collapse_ink (inked c read), List.takeWhile_cons_of_pos read, List.takeWhile_cons_of_pos read,
        List.dropWhile_cons_of_pos read, List.dropWhile_cons_of_pos read, ih.1, ih.2]
      exact ⟨rfl, rfl⟩
    · have stops : ∀ d ∈ (collapseBlanks (c :: r)).head?, ¬ p d := by
        intro d first
        rcases head?_collapse (c :: r) with same | ⟨-, space⟩
        · rw [same] at first
          obtain rfl : c = d := by simpa using first
          exact read
        · rw [space] at first
          obtain rfl : ' ' = d := by simpa using first
          intro isRead
          exact absurd (inked ' ' isRead) (by decide)
      rw [List.takeWhile_cons_of_neg read, List.dropWhile_cons_of_neg read]
      cases shape : collapseBlanks (c :: r) with
      | nil => simp
      | cons d s =>
        rw [shape] at stops
        have stop := stops d rfl
        rw [List.takeWhile_cons_of_neg stop, List.dropWhile_cons_of_neg stop]
        exact ⟨rfl, rfl⟩

end

/-! ### Induction over runs -/

theorem dropWhile_ink (t : Text) : ∀ c ∈ (t.dropWhile isBlank).head?, isBlank c = false := by
  intro c first
  have := List.head?_dropWhile_not isBlank t
  rw [Option.mem_def.1 first] at this
  simpa using this

/-- A property of all texts is shown of a text behind a run of blanks, and of a text behind any other
    character, given the property of all its ends. -/
theorem runs_induction {P : Text → Prop} (nil : P [])
    (run : ∀ w r : Text, (∀ c ∈ w, isBlank c) → (∀ c ∈ r.head?, isBlank c = false) → P r → P (w ++ r))
    (ink : ∀ c r, isBlank c = false → (∀ s, s <:+ r → P s) → P (c :: r)) (t : Text) : P t := by
  induction hn : t.length using Nat.strongRecOn generalizing t with
  | ind n ih =>
    subst hn
    cases t with
    | nil => exact nil
    | cons c r =>
      cases first : isBlank c with
      | false =>
        refine ink c r first fun s final => ih s.length ?_ s rfl
        exact Nat.lt_succ_of_le final.length_le
      | true =>
        rw [← List.takeWhile_append_dropWhile (p := isBlank) (l := c :: r)]
        refine run _ _ (fun d => List.mem_takeWhile_imp) (dropWhile_ink _) (ih _ ?_ _ rfl)
        rw [List.dropWhile_cons_of_pos first]
        exact Nat.lt_succ_of_le (List.dropWhile_suffix _).length_le

theorem collapse_blanks {w : Text} (blanks : ∀ c ∈ w, isBlank c) :
    collapseBlanks w = if 2 ≤ w.length then [' '] else w := by
  match w with
  | [] => simp
  | [c] =>
    rw [collapseBlanks]
    simp
  | c :: d :: r =>
    have rest : (d :: r).dropWhile isBlank = [] :=
      List.dropWhile_eq_nil_iff.2 fun e member => blanks e (List.mem_cons_of_mem _ member)
    rw [collapseBlanks]
    simp [blanks c List.mem_cons_self, blanks d (by simp), rest]

theorem collapse_blanks_blank {w : Text} (blanks : ∀ c ∈ w, isBlank c) : ∀ c ∈ collapseBlanks w, isBlank c := by
  intro c member
  rcases mem_collapse member with inside | rfl
  · exact blanks c inside
  · decide

theorem takeWhile_collapse {p : Char → Bool} (blanks : ∀ c, isBlank c → p c) (t : Text) :
    (collapseBlanks t).takeWhile p = collapseBlanks (t.takeWhile p) := by
  have run : ∀ c ∈ collapseBlanks (t.takeWhile p), p c := by
    intro c member
    rcases mem_collapse member with inside | rfl
    · exact List.mem_takeWhile_imp inside
    · exact blanks ' ' (by decide)
  have stops : ∀ c ∈ (t.dropWhile p).head?, ¬ p c := by
    intro c first
    have := List.head?_dropWhile_not p t
    rw [Option.mem_def.1 first] at this
    simpa using this
  have ink : ∀ c ∈ (t.dropWhile p).head?, isBlank c = false := by
    intro c first
    by_contra blank
    exact stops c first (blanks c (by simpa using blank))
  have none : (collapseBlanks (t.dropWhile p)).takeWhile p = [] := by
    cases shape : t.dropWhile p with
    | nil => simp
    | cons c r =>
      rw [shape] at ink stops
      rw [collapse_ink (ink c rfl), List.takeWhile_cons_of_neg (stops c rfl)]
  conv => lhs; rw [← List.takeWhile_append_dropWhile (p := p) (l := t)]
  rw [collapse_append_of_ink _ ink, List.takeWhile_append_of_pos run, none, List.append_nil]

theorem collapse_idem (t : Text) : collapseBlanks (collapseBlanks t) = collapseBlanks t := by
  induction t using runs_induction with
  | nil => simp
  | run w r blanks first ih =>
    have single : collapseBlanks (collapseBlanks w) = collapseBlanks w := by
      rw [collapse_blanks (collapse_blanks_blank blanks), collapse_blanks blanks]
      split
      · rfl
      · rfl
    have firstStays : ∀ c ∈ (collapseBlanks r).head?, isBlank c = false := by
      intro c head
      rcases head?_collapse r with same | ⟨⟨d, there, blank⟩, -⟩
      · exact first c (same ▸ head)
      · rw [first d there] at blank
        cases blank
    rw [collapse_append_of_ink w first, collapse_append_of_ink _ firstStays, single, ih]
  | ink c r ink ih => rw [collapse_ink ink, collapse_ink ink, ih r (List.suffix_refl r)]

theorem collapse_reverse (t : Text) : collapseBlanks t.reverse = (collapseBlanks t).reverse := by
  have blankRun : ∀ w : Text, (∀ c ∈ w, isBlank c) → collapseBlanks w.reverse = (collapseBlanks w).reverse := by
    intro w blanks
    rw [collapse_blanks blanks, collapse_blanks (by simpa using blanks), List.length_reverse]
    split <;> rfl
  induction t using runs_induction with
  | nil => simp
  | run w r blanks first ih =>
    cases r with
    | nil => simpa using blankRun w blanks
    | cons c r =>
      have ink := first c rfl
      rw [collapse_ink ink, List.reverse_cons, List.reverse_cons, collapse_append _ ink] at ih
      have front : collapseBlanks r.reverse = (collapseBlanks r).reverse := by simpa using ih
      rw [List.reverse_append, List.reverse_cons, List.append_assoc, List.singleton_append, collapse_append _ ink,
        front, blankRun w blanks, collapse_append w ink]
      simp
  | ink c r ink ih =>
    rw [List.reverse_cons, collapse_append _ ink, ih r (List.suffix_refl r), collapse_ink ink]
    simp

theorem collapse_append_of_ends {s : Text} (ends : ∀ c ∈ s.getLast?, isBlank c = false) (t : Text) :
    collapseBlanks (s ++ t) = collapseBlanks s ++ collapseBlanks t := by
  have first : ∀ c ∈ s.reverse.head?, isBlank c = false := by rwa [List.head?_reverse]
  have reversed := collapse_append_of_ink t.reverse first
  rw [← List.reverse_append, collapse_reverse, collapse_reverse, collapse_reverse, ← List.reverse_append] at reversed
  exact List.reverse_injective reversed

theorem getLast?_collapse_eq_some {t : Text} {c : Char} (ink : isBlank c = false) :
    (collapseBlanks t).getLast? = some c ↔ t.getLast? = some c := by
  rw [← List.head?_reverse, ← collapse_reverse, head?_collapse_eq_some ink, List.head?_reverse]

/-! ### Trimming and searching -/

theorem trimStart_collapse (t : Text) : (collapseBlanks t).trimStart = collapseBlanks t.trimStart :=
  dropWhile_collapse (fun _ => isWhite_of_isBlank) t

theorem trimEnd_collapse (t : Text) : (collapseBlanks t).trimEnd = collapseBlanks t.trimEnd := by
  simp only [trimEnd, dropEndWhile]
  rw [← collapse_reverse, dropWhile_collapse fun _ => isWhite_of_isBlank, collapse_reverse]

theorem trim_collapse (t : Text) : (collapseBlanks t).trim = collapseBlanks t.trim := by
  rw [trim, trimStart_collapse, trimEnd_collapse, trim]

theorem after?_collapse {mark : Text} (ink : mark.Ink) (t : Text) :
    after? mark (collapseBlanks t) = (after? mark t).map collapseBlanks := by
  induction mark generalizing t with
  | nil => rfl
  | cons m mark ih =>
    have inkHere : isBlank m = false := ink m List.mem_cons_self
    have inkRest : Ink mark := fun c member => ink c (List.mem_cons_of_mem _ member)
    cases t with
    | nil => simp [after?]
    | cons c r =>
      by_cases same : m = c
      · subst same
        rw [collapse_ink inkHere, after?, if_pos rfl, after?, if_pos rfl, ih inkRest]
      · have other : (collapseBlanks (c :: r)).head? ≠ some m := by
          rw [Ne, head?_collapse_eq_some inkHere]
          simpa using Ne.symm same
        rw [after?_eq_none same]
        cases shape : collapseBlanks (c :: r) with
        | nil => rfl
        | cons d s =>
          rw [shape] at other
          exact after?_eq_none fun hit => other (by simp [hit])

theorem before?_collapse {mark : Text} (ink : mark.Ink) (t : Text) :
    before? mark (collapseBlanks t) = (before? mark t).map collapseBlanks := by
  have inkReverse : Ink mark.reverse := fun c member => ink c (List.mem_reverse.1 member)
  rw [before?, ← collapse_reverse, after?_collapse inkReverse, before?, Option.map_map, Option.map_map]
  congr 1
  exact funext fun r => (collapse_reverse r).symm

theorem between?_collapse {opening closing : Text} (inkOpening : opening.Ink) (inkClosing : closing.Ink) (t : Text) :
    between? opening closing (collapseBlanks t) = (between? opening closing t).map collapseBlanks := by
  rw [between?, after?_collapse inkOpening, between?]
  cases after? opening t with
  | none => rfl
  | some r => exact before?_collapse inkClosing r

/-- A search that passes over single characters passes over a text of them. -/
theorem search_front {σ α : Type} {search : σ → Text → Option (Text × α)} {P : Char → Prop}
    (passes : ∀ state {c} r, P c → search state (c :: r) = (search state r).map (Prod.map (c :: ·) id))
    {w : Text} (each : ∀ c ∈ w, P c) (state : σ) (r : Text) :
    search state (w ++ r) = (search state r).map (Prod.map (w ++ ·) id) := by
  induction w with
  | nil =>
    rw [List.nil_append]
    cases search state r <;> rfl
  | cons c w ih =>
    rw [List.cons_append, passes state _ (each c List.mem_cons_self),
      ih fun d member => each d (List.mem_cons_of_mem _ member), Option.map_map]
    rfl

/-- A search that passes over blanks, and over other characters as before, finds the same in a collapsed text.
    What it finds comes with the text in front of it. -/
theorem search_collapse {σ α : Type} (search : σ → Text → Option (Text × α)) {f : α → α}
    (front : ∀ {state t before found}, search state t = some (before, found) → before <+: t)
    (nil : ∀ state, search state [] = none)
    (blank : ∀ state {c} r, isBlank c → search state (c :: r) = (search state r).map (Prod.map (c :: ·) id))
    (ink : ∀ state {c} r, isBlank c = false →
      (∃ found, search state (c :: r) = some ([], found) ∧ search state (c :: collapseBlanks r) = some ([], f found)) ∨
      ∃ next, ∀ s ∈ [r, collapseBlanks r], search state (c :: s) = (search next s).map (Prod.map (c :: ·) id))
    (state : σ) (t : Text) :
    search state (collapseBlanks t) = (search state t).map (Prod.map collapseBlanks f) := by
  induction t using runs_induction generalizing state with
  | nil => simp [nil]
  | run w r blanks first ih =>
    rw [collapse_append_of_ink w first, search_front blank (collapse_blanks_blank blanks), ih,
      search_front blank blanks]
    cases result : search state r with
    | none => rfl
    | some pair =>
      obtain ⟨before, found⟩ := pair
      have firstBefore : ∀ c ∈ before.head?, isBlank c = false := by
        intro c head
        obtain ⟨rest, rfl⟩ := front result
        refine first c ?_
        cases before with
        | nil => cases head
        | cons d before => exact head
      simp [collapse_append_of_ink w firstBefore]
  | ink c r inkHere ih =>
    rw [collapse_ink inkHere]
    rcases ink state r inkHere with ⟨found, plain, collapsed⟩ | ⟨next, passes⟩
    · rw [plain, collapsed]
      simp
    · rw [passes _ (by simp), passes _ (by simp), ih r (List.suffix_refl r), Option.map_map, Option.map_map]
      cases search next r with
      | none => rfl
      | some pair =>
        obtain ⟨before, found⟩ := pair
        simp [collapse_ink inkHere]

/-- Both parts of a text that is cut are collapsed. -/
theorem cut_collapse {mark : Text} (filled : mark ≠ []) (ink : mark.Ink) (t : Text) :
    cut mark (collapseBlanks t) = (cut mark t).map (Prod.map collapseBlanks collapseBlanks) := by
  obtain ⟨m, mark, rfl⟩ := List.exists_cons_of_ne_nil filled
  have passes : ∀ {c r}, after? (m :: mark) (c :: r) = none →
      cut (m :: mark) (c :: r) = (cut (m :: mark) r).map (Prod.map (c :: ·) id) := by
    intro c r none
    rw [cut, none]
    rfl
  refine search_collapse (fun (_ : Unit) => cut (m :: mark)) ?_ (fun _ => rfl) ?_ ?_ () t
  · intro _ t before after found
    exact ⟨(m :: mark) ++ after, by rw [cut_eq_some found, List.append_assoc]⟩
  · intro _ c r blank
    refine passes (after?_eq_none ?_)
    rintro rfl
    rw [ink m List.mem_cons_self] at blank
    cases blank
  · intro _ c r inkHere
    have collapsed := after?_collapse ink (c :: r)
    rw [collapse_ink inkHere] at collapsed
    cases found : after? (m :: mark) (c :: r) with
    | some rest =>
      rw [found] at collapsed
      exact .inl ⟨rest, by rw [cut, found], by rw [cut, collapsed]; rfl⟩
    | none =>
      rw [found] at collapsed
      refine .inr ⟨(), fun s member => ?_⟩
      rcases List.mem_pair.1 member with rfl | rfl
      · exact passes found
      · exact passes collapsed

theorem cut_char_collapse {m : Char} (ink : isBlank m = false) (t : Text) :
    cut [m] (collapseBlanks t) = (cut [m] t).map (Prod.map collapseBlanks collapseBlanks) :=
  cut_collapse (List.cons_ne_nil m []) (by simp [Ink, ink]) t

/-- The rows of a text are collapsed one by one. -/
theorem rows_collapse (t : Text) : rows (collapseBlanks t) = (rows t).map collapseBlanks := by
  have joined : ∀ rs : List Text, joinRows (rs.map collapseBlanks) = collapseBlanks (joinRows rs) := by
    intro rs
    induction rs with
    | nil => simp [joinRows]
    | cons row others ih =>
      cases others with
      | nil => simp [joinRows]
      | cons next others =>
        rw [joinRows_cons_cons, collapse_append row (by decide), ← ih, List.map_cons, List.map_cons, joinRows_cons_cons]
  rw [← joinRows_rows t, ← joined, rows_joinRows, joinRows_rows]
  · simpa using rows_ne_nil t
  · intro row member newline
    obtain ⟨row, inside, rfl⟩ := List.mem_map.1 member
    rcases mem_collapse newline with there | space
    · exact newline_not_mem_rows inside there
    · cases space

theorem collapse_row {t row : Text} (single : collapseBlanks t = t) (member : row ∈ rows t) :
    collapseBlanks row = row := by
  have same := rows_collapse t
  rw [single] at same
  exact List.map_inj_left.1 (same.symm.trans (List.map_id _).symm) row member

end Repair
end Flowchart
