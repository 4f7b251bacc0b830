import Mathlib.Data.List.Chain
import Flowchart.Proofs.Line.Alone
import Flowchart.Proofs.Writer.Repaired

/-!
Labels with any number of asides. A round takes the first aside of a label out from between the words and puts it
behind everything that was moved before (`asideRound_label`), so that after as many rounds as there are asides they
stand behind the words in their order (`asideRound_iterate`). Nothing else is repaired in such a line, and it is
read as one rectangle (`parse_repair_interrupted`).
-/
namespace Flowchart.Repair
open Text Line

/-! ### Words and asides -/

/-- The characters that neither words nor asides hold. -/
def marks : Text := ['[', ']', '(', ')', '|', '"', '/', '\\', '\x60', '\n']

/-- Trimmed text without runs of blanks and without marks. -/
structure Plain (t : Text) : Prop where
  trimmed : t.trim = t
  single : t.IsChain fun a b => ¬ (isBlank a ∧ isBlank b)
  clean : ∀ m ∈ marks, m ∉ t

theorem plain_iff {t : Text} :
    Plain t ↔ t.trim = t ∧ (t.IsChain fun a b => ¬ (isBlank a ∧ isBlank b)) ∧ marks.all (· ∉ t) := by
  rw [List.all_eq_true]
  simp only [decide_eq_true_eq]
  exact ⟨fun plain => ⟨plain.trimmed, plain.single, plain.clean⟩, fun all => ⟨all.1, all.2.1, all.2.2⟩⟩

instance (t : Text) : Decidable (Plain t) := decidable_of_iff _ plain_iff.symm

/-- An aside, and the words behind it if there are any. -/
structure Phrase where
  aside : Text
  words : Text

structure Phrase.Valid (p : Phrase) : Prop where
  filled : p.aside ≠ []
  aside : Plain p.aside
  words : Plain p.words

theorem Phrase.valid_iff {p : Phrase} : p.Valid ↔ p.aside ≠ [] ∧ Plain p.aside ∧ Plain p.words :=
  ⟨fun valid => ⟨valid.filled, valid.aside, valid.words⟩, fun all => ⟨all.1, all.2.1, all.2.2⟩⟩

instance (p : Phrase) : Decidable p.Valid := decidable_of_iff _ Phrase.valid_iff.symm

/-- Parts with single spaces between them; empty ones are left out. -/
def joined (parts : List Text) : Text := [' '].intercalate (parts.filter (· ≠ []))

/-- Words with asides between them. -/
def interrupted (first : Text) (phrases : List Phrase) : Text :=
  joined (first :: phrases.flatMap fun p => ['(' :: p.aside ++ [')'], p.words])

/-- The words alone, and the asides behind them. -/
def straightened (first : Text) (phrases : List Phrase) : Text :=
  joined (first :: phrases.map (·.words)) ++ phrases.flatMap fun p => " - ".toList ++ p.aside

/-- A node in square brackets. -/
def boxed (id label : Text) : Text := id ++ '[' :: label ++ [']']

/-- A part with a space in front of it, unless it is empty. -/
def spaced (part : Text) : Text := if part = [] then [] else ' ' :: part

theorem joined_cons {part : Text} (filled : part ≠ []) (rest : List Text) :
    joined (part :: rest) = part ++ rest.flatMap spaced := by
  have behind : ∀ (part : Text) (others : List Text),
      [' '].intercalate (part :: others) = part ++ others.flatMap (' ' :: ·) := by
    intro part others
    induction others generalizing part with
    | nil => simp [List.intercalate]
    | cons next others ih => rw [List.intercalate_cons_cons, ih, List.flatMap_cons, List.append_assoc]; rfl
  rw [joined, List.filter_cons_of_pos (by simpa using filled), behind]
  congr 1
  induction rest with
  | nil => rfl
  | cons next rest ih =>
    by_cases empty : next = []
    · simpa [spaced, empty] using ih
    · simpa [spaced, empty] using ih

namespace Plain
variable {s t : Text}

theorem starts (plain : Plain t) : StartsInk t := plain.trimmed ▸ trim_startsInk t

theorem ends (plain : Plain t) : EndsInk t := plain.trimmed ▸ trim_endsInk t

theorem collapsed (plain : Plain t) : collapseBlanks t = t := by
  refine collapseBlanks_eq_self.2 fun a b first second found => ?_
  obtain ⟨front, back, split⟩ := found
  rw [List.append_assoc] at split
  exact List.isChain_iff_forall_rel_of_append_cons_cons.1 plain.single split.symm ⟨first, second⟩

theorem head?_ne (plain : Plain t) {m : Char} (mark : m ∈ marks) : t.head? ≠ some m :=
  fun first => plain.clean m mark (List.mem_of_mem_head? first)

/-- Plain texts with a space between them. -/
theorem append_space (first : Plain s) (filled : s ≠ []) (second : Plain t) (filled' : t ≠ []) :
    Plain (s ++ ' ' :: t) := by
  have ink : ∀ {c : Char}, ¬ isWhite c → ¬ isBlank c := fun ink blank => ink (isWhite_of_isBlank blank)
  constructor
  case trimmed =>
    rw [List.append_cons]
    have starts : StartsInk (s ++ [' '] ++ t) := startsInk_append (by simp) (startsInk_append filled first.starts)
    exact trim_eq_self starts (endsInk_append filled' second.ends)
  case single =>
    refine List.isChain_append.2 ⟨first.single, List.isChain_cons.2 ⟨?_, second.single⟩, ?_⟩
    · exact fun c head blanks => ink (second.starts c head) blanks.2
    · exact fun c last _ _ blanks => ink (first.ends c last) blanks.1
  case clean =>
    intro m mark member
    rcases List.mem_append.1 member with front | back
    · exact first.clean m mark front
    · rcases List.mem_cons.1 back with rfl | later
      · exact absurd mark (by decide)
      · exact second.clean m mark later

theorem append_spaced (first : Plain s) (filled : s ≠ []) (second : Plain t) : Plain (s ++ spaced t) := by
  unfold spaced
  split
  · rwa [List.append_nil]
  · next filled' => exact first.append_space filled second filled'

theorem append_dash (first : Plain s) (filled : s ≠ []) (second : Plain t) (filled' : t ≠ []) :
    Plain (s ++ (" - ".toList ++ t)) := by
  have dash : Plain ['-'] := by decide
  have both := (first.append_space filled dash (by simp)).append_space (by simp) second filled'
  rw [dash_eq]
  simpa using both

end Plain

/-! ### Labels -/

/-- Words, asides that are still between words, and asides that were moved. -/
def label (words : Text) (phrases : List Phrase) (moved : List Text) : Text :=
  words ++ phrases.flatMap (fun p => ' ' :: '(' :: p.aside ++ ')' :: spaced p.words) ++
    moved.flatMap (" - ".toList ++ ·)

theorem interrupted_eq {first : Text} (filled : first ≠ []) (phrases : List Phrase) :
    interrupted first phrases = label first phrases [] := by
  rw [interrupted, joined_cons filled, label, List.flatMap_assoc]
  simp [spaced]

theorem straightened_eq {first : Text} (filled : first ≠ []) (phrases : List Phrase) :
    straightened first phrases =
      label (first ++ phrases.flatMap (spaced ·.words)) [] (phrases.map (·.aside)) := by
  rw [straightened, joined_cons filled, label, List.flatMap_map, List.flatMap_map]
  simp

theorem plain_label {words : Text} (plain : Plain words) (filled : words ≠ []) {moved : List Text}
    (asides : ∀ a ∈ moved, Plain a ∧ a ≠ []) : Plain (label words [] moved) := by
  induction moved generalizing words with
  | nil => simpa [label] using plain
  | cons a rest ih =>
    obtain ⟨inner, filled'⟩ := asides a List.mem_cons_self
    have later := ih (plain.append_dash filled inner filled') (List.append_ne_nil_of_left_ne_nil filled _)
      fun b member => asides b (List.mem_cons_of_mem _ member)
    simpa [label] using later

theorem Plain.append_words {words : Text} (plain : Plain words) (filled : words ≠ []) {phrases : List Phrase}
    (each : ∀ p ∈ phrases, p.Valid) : Plain (words ++ phrases.flatMap (spaced ·.words)) := by
  induction phrases generalizing words with
  | nil => simpa using plain
  | cons p rest ih =>
    have later := ih (plain.append_spaced filled (each p List.mem_cons_self).words)
      (List.append_ne_nil_of_left_ne_nil filled _) fun q member => each q (List.mem_cons_of_mem _ member)
    simpa using later

theorem plain_straightened {first : Text} (plain : Plain first) (filled : first ≠ []) {phrases : List Phrase}
    (each : ∀ p ∈ phrases, p.Valid) : Plain (straightened first phrases) ∧ straightened first phrases ≠ [] := by
  have asides : ∀ a ∈ phrases.map (·.aside), Plain a ∧ a ≠ [] := by
    intro a member
    obtain ⟨p, inside, rfl⟩ := List.mem_map.1 member
    exact ⟨(each p inside).aside, (each p inside).filled⟩
  have filled' : first ++ phrases.flatMap (spaced ·.words) ≠ [] := List.append_ne_nil_of_left_ne_nil filled _
  rw [straightened_eq filled]
  refine ⟨plain_label (plain.append_words filled each) filled' asides, ?_⟩
  simp [label, filled]

/-! ### One round -/

/-- Nothing, or ink behind a space. -/
def Loose (t : Text) : Prop := t = [] ∨ ∃ r, t = ' ' :: r ∧ r ≠ [] ∧ StartsInk r

theorem Loose.append {s t : Text} (first : Loose s) (second : Loose t) : Loose (s ++ t) := by
  rcases first with rfl | ⟨r, rfl, filled, starts⟩
  · exact second
  · exact .inr ⟨r ++ t, rfl, List.append_ne_nil_of_left_ne_nil filled t, startsInk_append filled starts⟩

theorem loose_flatMap {α : Type} {f : α → Text} {l : List α} (each : ∀ a ∈ l, Loose (f a)) :
    Loose (l.flatMap f) := by
  induction l with
  | nil => exact .inl rfl
  | cons a rest ih =>
    exact (each a List.mem_cons_self).append (ih fun b member => each b (List.mem_cons_of_mem _ member))

theorem loose_ink {c : Char} (ink : ¬ isWhite c) (t : Text) : Loose (' ' :: c :: t) :=
  .inr ⟨c :: t, rfl, List.cons_ne_nil c t, startsInk_cons ink t⟩

theorem Plain.loose {t : Text} (plain : Plain t) : Loose (spaced t) := by
  unfold spaced
  split
  · exact .inl rfl
  · next filled => exact .inr ⟨t, rfl, filled, plain.starts⟩

/-- The space in front of what is loose takes the place of the one that words are joined with. -/
theorem joinWords_loose {s t : Text} (filled : s ≠ []) (loose : Loose t) : joinWords s t.trimStart = s ++ t := by
  rcases loose with rfl | ⟨r, rfl, filled', starts⟩
  · simp [joinWords, trimStart]
  · have trimmed : trimStart (' ' :: r) = r := trimStart_eq_self starts
    simp [joinWords, trimmed, filled, filled']

/-- Behind words nothing is a quoted or a parenthesized label. -/
theorem Plain.kept {words : Text} (plain : Plain words) (filled : words ≠ []) (t : Text) :
    (isQuoted (words ++ t) || isParenthesized (words ++ t)) = false := by
  have quote : words.head? ≠ some '"' := plain.head?_ne (by decide)
  have parenthesis : words.head? ≠ some '(' := plain.head?_ne (by decide)
  rw [isQuoted, isParenthesized, trimStart_eq_self (startsInk_append filled plain.starts),
    List.head?_append_of_ne_nil words filled]
  simp [quote, parenthesis]

/-- The first aside behind words is moved. -/
theorem moveAside_words {words aside rest : Text} (plain : Plain words) (filled : words ≠ []) (inner : Plain aside)
    (filled' : aside ≠ []) (loose : Loose rest) :
    moveAside (words ++ ' ' :: '(' :: aside ++ ')' :: rest) = some (words ++ rest ++ (" - ".toList ++ aside)) := by
  have closing : cut [')'] (words ++ ' ' :: '(' :: aside ++ ')' :: rest) =
      some (words ++ [' '] ++ '(' :: aside, rest) := by
    have outside : ')' ∉ words ++ ' ' :: '(' :: aside := by
      simp [plain.clean ')' (by decide), inner.clean ')' (by decide)]
    rw [cut_char outside]
    simp
  have opening : cutLast ['('] (words ++ [' '] ++ '(' :: aside) = some (words ++ [' '], aside) :=
    cutLast_char (inner.clean '(' (by decide)) _
  have before : trimEnd (words ++ [' ']) = words := by
    rw [trimEnd_append_white (by simp [White, isWhite]), trimEnd_eq_self plain.ends]
  have found : aside? (words ++ ' ' :: '(' :: aside ++ ')' :: rest) = some ⟨words, aside, rest.trimStart⟩ := by
    rw [aside?, closing]
    simp only [Option.bind_eq_bind, Option.bind_some, opening, before, inner.trimmed]
    rfl
  have ink : trim (words ++ rest) ≠ [] := by
    intro empty
    obtain ⟨c, r, rfl⟩ := List.exists_cons_of_ne_nil filled
    exact plain.starts c rfl (white_of_trim_eq_nil empty c (by simp))
  have kept := plain.kept filled (' ' :: '(' :: aside ++ ')' :: rest)
  rw [moveAside, List.append_assoc, if_neg (by simpa using kept), ← List.append_assoc, found, Option.map_some,
    Aside.moved, joinWords_loose filled loose]
  simp [ink, filled']

/-- The characters that no label in a box holds. -/
def boxMarks : Text := ['[', ']', '|', '"', '\n']

theorem boxMarks_subset : boxMarks ⊆ marks := by decide

theorem label_clean {words : Text} (plain : Plain words) {phrases : List Phrase} (each : ∀ p ∈ phrases, p.Valid)
    {moved : List Text} (before : ∀ a ∈ moved, Plain a) : ∀ m ∈ boxMarks, m ∉ label words phrases moved := by
  intro m gone member
  have apart : ∀ m ∈ boxMarks, m ∉ [' ', '(', ')', '-'] := by simp [boxMarks]
  have mark := boxMarks_subset gone
  have other := apart m gone
  simp only [List.mem_cons, List.not_mem_nil, or_false, not_or] at other
  rcases List.mem_append.1 member with front | last
  · rcases List.mem_append.1 front with start | middle
    · exact plain.clean m mark start
    · obtain ⟨p, inside, here⟩ := List.mem_flatMap.1 middle
      have noWords : m ∉ spaced p.words := by
        unfold spaced
        split
        · exact List.not_mem_nil
        · simp [other, (each p inside).words.clean m mark]
      simp [other, (each p inside).aside.clean m mark, noWords] at here
  · obtain ⟨a, inside, here⟩ := List.mem_flatMap.1 last
    simp [dash_eq, other, (before a inside).clean m mark] at here

theorem Plain.repairBody {t : Text} (plain : Plain t) : repairBody t = t := by
  rw [repairBody_eq_self, slashed?_of_head (plain.head?_ne (by decide)) (plain.head?_ne (by decide)),
    moveAside_eq_none]
  right
  right
  intro upTo after found open'
  refine plain.clean '(' (by decide) ?_
  rw [show t = upTo ++ [')'] ++ after from cut_eq_some found]
  simp [open']

section
variable {id : Text} (valid : isId id)
include valid

theorem boxed_clean {b : Text} (clean : ∀ m ∈ boxMarks, m ∉ b) : ∀ m ∈ ['|', '"', '\n'], m ∉ boxed id b := by
  intro m mark
  have both : ∀ m ∈ ['|', '"', '\n'], m ∈ punctuation ∧ m ∈ boxMarks ∧ m ≠ '[' ∧ m ≠ ']' := by
    simp [punctuation, boxMarks]
  obtain ⟨foreign, gone, notOpening, notClosing⟩ := both m mark
  have inId : m ∉ id := fun member => idChar_ne (isId_run valid m member) foreign rfl
  simp [boxed, inId, clean m gone, notOpening, notClosing]

theorem repairLabels_boxed (word : ∀ c ∈ id.getLast?, isWordChar c) {b : Text} (kept : ∀ c ∈ b, inBody c) :
    repairLabels (boxed id b) = boxed id (repairBody b) := by
  have apart : ∀ c ∈ id, c ≠ '[' := fun c member => idChar_ne (isId_run valid c member) (by decide)
  rcases List.eq_nil_or_concat' id with rfl | ⟨front, d, rfl⟩
  · cases valid
  have opens : opensLabel d := by simp [opensLabel, word d (by simp)]
  have front' : '[' ∉ front := fun member => apart '[' (List.mem_append_left _ member) rfl
  have last : (d :: '[' :: b ++ [']']).head? ≠ some '[' := by simpa using apart d (by simp)
  calc repairLabels (boxed (front ++ [d]) b)
    _ = repairLabels (front ++ (d :: '[' :: b ++ [']'])) := by simp [boxed]
    _ = front ++ repairLabels (d :: '[' :: b ++ [']']) := repairLabels_apart front' last
    _ = front ++ (d :: '[' :: repairBody b ++ ']' :: repairLabels []) := by
      rw [← repairLabels_label (label?_bracket opens kept [])]
      rfl
    _ = boxed (front ++ [d]) (repairBody b) := by simp [boxed, repairLabels_nil]

/-- A round repairs the only label of a line. -/
theorem asideRound_boxed (word : ∀ c ∈ id.getLast?, isWordChar c) {b : Text} (clean : ∀ m ∈ boxMarks, m ∉ b) :
    asideRound (boxed id b) = boxed id (repairBody b) := by
  have outside := boxed_clean valid clean
  have noLabel : edgeLabel? false (boxed id b) = none :=
    (passed_plain (outside '|' (by decide)) (outside '"' (by decide))).none
  have single := asideRound_row (outside '\n' (by decide))
  have kept : ∀ c ∈ b, inBody c := by
    intro c member
    have other : ∀ m ∈ boxMarks, c ≠ m := fun m gone same => clean m gone (same ▸ member)
    simp [inBody, other '[' (by decide), other ']' (by decide), other '\n' (by decide)]
  rw [single, repairRow_eq, noLabel]
  exact repairLabels_boxed valid word kept

/-- The first aside is put behind those that were moved before. -/
theorem asideRound_label (word : ∀ c ∈ id.getLast?, isWordChar c) {words : Text} (plain : Plain words)
    (filled : words ≠ []) {p : Phrase} {phrases : List Phrase} (each : ∀ q ∈ p :: phrases, q.Valid)
    {moved : List Text} (before : ∀ a ∈ moved, Plain a) :
    asideRound (boxed id (label words (p :: phrases) moved)) =
      boxed id (label (words ++ spaced p.words) phrases (moved ++ [p.aside])) := by
  have first := each p List.mem_cons_self
  let rest := spaced p.words ++ phrases.flatMap (fun p => ' ' :: '(' :: p.aside ++ ')' :: spaced p.words) ++
    moved.flatMap (" - ".toList ++ ·)
  have loose : Loose rest := by
    refine (first.words.loose.append (loose_flatMap fun q _ => ?_)).append (loose_flatMap fun a _ => ?_)
    · exact loose_ink (by decide) _
    · exact loose_ink (by decide) _
  have shape : label words (p :: phrases) moved = words ++ ' ' :: '(' :: p.aside ++ ')' :: rest := by
    simp [label, rest]
  have slashes : slashed? (label words (p :: phrases) moved) = none := by
    have head : (label words (p :: phrases) moved).head? = words.head? := by
      rw [label, List.append_assoc, List.head?_append_of_ne_nil words filled]
    exact slashed?_of_head (head ▸ plain.head?_ne (by decide)) (head ▸ plain.head?_ne (by decide))
  rw [asideRound_boxed valid word (label_clean plain each before), repairBody, slashes]
  simp only
  rw [shape, moveAside_words plain filled first.aside first.filled loose, Option.getD_some]
  simp [label, rest]

/-! ### All rounds -/

/-- So many rounds as there are asides put them behind the words in their order. -/
theorem asideRound_iterate (word : ∀ c ∈ id.getLast?, isWordChar c) {words : Text} (plain : Plain words)
    (filled : words ≠ []) {phrases : List Phrase} (each : ∀ p ∈ phrases, p.Valid) {moved : List Text}
    (before : ∀ a ∈ moved, Plain a) :
    asideRound^[phrases.length] (boxed id (label words phrases moved)) =
      boxed id (label (words ++ phrases.flatMap (spaced ·.words)) [] (moved ++ phrases.map (·.aside))) := by
  induction phrases generalizing words moved with
  | nil => simp
  | cons p rest ih =>
    have first := each p List.mem_cons_self
    have moved' : ∀ a ∈ moved ++ [p.aside], Plain a := by
      intro a member
      rcases List.mem_append.1 member with old | new
      · exact before a old
      · exact List.mem_singleton.1 new ▸ first.aside
    rw [List.length_cons, Function.iterate_succ_apply, asideRound_label valid word plain filled each before,
      ih (plain.append_spaced filled first.words) (List.append_ne_nil_of_left_ne_nil filled _)
        (fun q member => each q (List.mem_cons_of_mem _ member)) moved']
    simp

theorem boxed_ink (t : Text) : boxed id t ≠ [] ∧ StartsInk (boxed id t) ∧ EndsInk (boxed id t) := by
  have filled : boxed id t ≠ [] := List.append_ne_nil_of_right_ne_nil _ (List.cons_ne_nil _ [])
  refine ⟨filled, ?_, endsInk_append (List.cons_ne_nil _ _) (by simp [EndsInk, isWhite])⟩
  rw [boxed, List.append_assoc]
  exact Writer.startsInk_id valid _

theorem lines_boxed {t : Text} (single : '\n' ∉ boxed id t) : lines (boxed id t) = [boxed id t] := by
  obtain ⟨filled, -, ends⟩ := boxed_ink valid t
  have alone : joinRows [boxed id t] = boxed id t := by simp [joinRows]
  have read := lines_joinRows (List.forall_mem_singleton.2 single) (List.forall_mem_singleton.2 filled)
    (List.forall_mem_singleton.2 ends)
  rwa [alone] at read

theorem Plain.boxed_clean {t : Text} (plain : Plain t) : ∀ m ∈ ['|', '"', '\n'], m ∉ boxed id t :=
  Repair.boxed_clean valid fun m gone => plain.clean m (boxMarks_subset gone)

/-- Nothing is left to repair in a line with one plain label. -/
theorem repaired_boxed (word : ∀ c ∈ id.getLast?, isWordChar c) {t : Text} (plain : Plain t) :
    Repaired (boxed id t) := by
  obtain ⟨filled, starts, ends⟩ := boxed_ink valid t
  have single := plain.boxed_clean valid '\n' (by decide)
  have apart : ∀ m ∈ punctuation, m ∉ id := fun m gone member => idChar_ne (isId_run valid m member) gone rfl
  have trimmed : trim (boxed id t) = boxed id t := trim_eq_self starts ends
  have round : asideRound (boxed id t) = boxed id t := by
    rw [asideRound_boxed valid word fun m gone => plain.clean m (boxMarks_subset gone), plain.repairBody]
  constructor
  case round => exact round
  case asides => exact repairAsides_eq_self.2 (asideRound_eq_self.1 round)
  case fences =>
    refine dropFences_eq_self fun found => ?_
    have tick : '\x60' ∈ boxed id t := found.subset (by decide)
    simp [boxed, tick_not_mem_id valid, plain.clean '\x60' (by decide)] at tick
  case tokens =>
    have split : boxed id t = (id ++ '[' :: t) ++ [']'] := by simp [boxed]
    rw [split] at single ⊢
    exact dropTrailingTokens_last (fun newline => single (List.mem_append_left _ newline)) (by decide)
  case blanks =>
    have word' : collapseBlanks id = id := collapse_of_ink fun c member => idChar_not_blank (isId_run valid c member)
    rw [boxed, List.append_assoc, List.cons_append, collapse_append id (by decide),
      collapse_append t (by decide), word', plain.collapsed, collapse_nil]
  case noise =>
    obtain ⟨c, r, shape, idChar, -⟩ := isId_cons valid
    have meaningful : isMeaningful (boxed id t) := by
      rw [isMeaningful, trimmed]
      simp [boxed, shape, idChar]
    rw [dropNoiseLines, lines_boxed valid single]
    simp [trimEnd_eq_self ends, meaningful, joinRows]
  case trimmed => exact trimmed

/-- The asides are moved, and nothing else is. -/
theorem repair_interrupted (word : ∀ c ∈ id.getLast?, isWordChar c) {first : Text} (plain : Plain first)
    (filled : first ≠ []) {phrases : List Phrase} (each : ∀ p ∈ phrases, p.Valid) :
    repair (boxed id (interrupted first phrases)) = boxed id (straightened first phrases) := by
  have repaired := repaired_boxed valid word (plain_straightened plain filled each).1
  have single : '\n' ∉ boxed id (interrupted first phrases) := by
    rw [interrupted_eq filled]
    exact boxed_clean valid (label_clean plain each (by simp)) '\n' (by decide)
  have rounds := asideRound_iterate valid word plain filled each (List.forall_mem_nil Plain)
  rw [List.nil_append, ← interrupted_eq filled, ← straightened_eq filled] at rounds
  have once : pass^[1] (dropReturns (boxed id (interrupted first phrases))) =
      boxed id (straightened first phrases) := by
    rw [Function.iterate_one, dropReturns_eq_self fun found => single (found.subset (by simp)), pass,
      repairAsides_of_rounds rounds repaired.round, repaired.fences, repaired.tokens, repaired.blanks, repaired.noise,
      repaired.trimmed]
  exact repair_of_passes once (pass_of_repaired repaired)

end

/-! ### Reading -/

section
variable {t : Text} (plain : Plain t) (filled : t ≠ [])
include plain filled

/-- Of the brackets that open with a square one, only the plain ones fit around plain text. -/
theorem after?_rival : ∀ b ∈ Writer.rivals .rectangle, after? b.opening ('[' :: t ++ [']']) = none := by
  obtain ⟨c, r, rfl⟩ := List.exists_cons_of_ne_nil filled
  have other : ∀ m ∈ marks, m ≠ c := fun m mark same => plain.head?_ne mark (congrArg some same.symm)
  have openings : (Writer.rivals .rectangle).map Bracket.opening =
      [['\x7b', '\x7b'], ['\x7b'], ['(', '('], ['[', '('], ['(', '['], ['('], ['[', '/'], ['[', '\\']] := by decide
  have none : ∀ opening ∈ (Writer.rivals .rectangle).map Bracket.opening,
      after? opening ('[' :: c :: r ++ [']']) = none := by
    rw [openings]
    simp [after?, other '(' (by decide), other '/' (by decide), other '\\' (by decide)]
  exact fun b rival => none _ (List.mem_map_of_mem rival)

theorem enclosed?_box : enclosed? ('[' :: t ++ [']']) = some ⟨Bracket.ofShape .rectangle, t, []⟩ := by
  have opened : after? ['['] ('[' :: t ++ [']']) = some (t ++ [']']) := by simp [after?]
  have unquoted : splitQuoted (t ++ [']']) = ([], t ++ [']']) := by
    refine Writer.splitQuoted_of_head fun c first => ⟨?_, fun blank => ?_⟩
    · rw [List.head?_append_of_ne_nil t filled] at first
      rintro rfl
      exact plain.head?_ne (by decide) first
    · exact startsInk_append filled plain.starts c first (isWhite_of_isBlank blank)
  have closing : cut [']'] (t ++ [']']) = some (t, []) := cut_char (plain.clean ']' (by decide))
  refine Writer.findSome?_ofShape (s := .rectangle) ?_ ?_
  · simp only [Bracket.enclosed?, Bracket.ofShape, opened, unquoted, closing, Option.bind_eq_bind, Option.bind_some]
    rfl
  · intro b rival
    rw [Bracket.enclosed?, after?_rival plain filled b rival]
    rfl

theorem shapeAndLabel_box : shapeAndLabel ('[' :: t ++ [']']) = (.rectangle, t) := by
  have trimmed : trim ('[' :: t ++ [']']) = '[' :: t ++ [']'] :=
    trim_eq_self (startsInk_cons (by decide) _) (endsInk_append (List.cons_ne_nil _ _) (by simp [EndsInk, isWhite]))
  have found : between? ['['] [']'] ('[' :: t ++ [']']) = some t := between?_append ['['] [']'] t
  rw [shapeAndLabel, trimmed, Writer.findSome?_ofShape (s := .rectangle) (a := (.rectangle, t))]
  · rfl
  · simp only [Bracket.ofShape]
    rw [found, Option.map_some, Writer.unquote_of_no_quote plain.trimmed (plain.clean '"' (by decide))]
  · intro b rival
    rw [between?, after?_rival plain filled b rival]
    rfl

theorem takeShape_box : takeShape ('[' :: t ++ [']']) = (some (.rectangle, t), []) := by
  have declaration : Enclosed.declaration ⟨Bracket.ofShape .rectangle, t, []⟩ = '[' :: t ++ [']'] := rfl
  rw [takeShape, enclosed?_box plain filled]
  simp only [declaration, shapeAndLabel_box plain filled]

end

/-- A line with one plain label declares a rectangle and nothing else. -/
theorem parse_boxed {id : Text} (valid : isId id) {t : Text} (plain : Plain t) (filled : t ≠ []) :
    Flowchart.parse (boxed id t) = .ok ⟨[⟨id, t, .rectangle⟩], []⟩ := by
  have split : boxed id t = id ++ ('[' :: t ++ [']']) := by simp [boxed]
  rw [split]
  exact parse_alone valid (takeShape_box plain filled) (by simp [plain.clean '\n' (by decide)])

/-- Whatever the number of asides in a label, they are put behind its words in their order, and the line is read as one
    rectangle that shows the words and the asides. -/
theorem parse_repair_interrupted {id : Text} (valid : isId id) (word : ∀ c ∈ id.getLast?, isWordChar c) {first : Text}
    (plain : Plain first) (filled : first ≠ []) {phrases : List Phrase} (each : ∀ p ∈ phrases, p.Valid) :
    repair (boxed id (interrupted first phrases)) = boxed id (straightened first phrases) ∧
      Flowchart.parse (repair (boxed id (interrupted first phrases))) =
        .ok ⟨[⟨id, straightened first phrases, .rectangle⟩], []⟩ := by
  have repaired := repair_interrupted valid word plain filled each
  obtain ⟨straight, filled'⟩ := plain_straightened plain filled each
  refine ⟨repaired, ?_⟩
  rw [repaired]
  exact parse_boxed valid straight filled'

/-- Asides with brackets, dashes and a capital word, one with no words behind it, and a label that looks like a link. -/
def chatter : List Phrase :=
  [⟨"\x7bi\x7d".toList, []⟩, ⟨"é - ½".toList, "--> B".toList⟩, ⟨"NOTE".toList, "x\ty".toList⟩]

theorem chatter_repaired :
    isId "½é".toList ∧ (∀ c ∈ "½é".toList.getLast?, isWordChar c) ∧ Plain "A".toList ∧ "A".toList ≠ [] ∧
      (∀ p ∈ chatter, p.Valid) ∧
      boxed "½é".toList (interrupted "A".toList chatter) = "½é[A (\x7bi\x7d) (é - ½) --> B (NOTE) x\ty]".toList ∧
      Flowchart.parse (repair (boxed "½é".toList (interrupted "A".toList chatter))) =
        .ok ⟨[⟨"½é".toList, "A --> B x\ty - \x7bi\x7d - é - ½ - NOTE".toList, .rectangle⟩], []⟩ := by
  have valid : isId "½é".toList := by decide +kernel
  have word : ∀ c ∈ "½é".toList.getLast?, isWordChar c := by
    intro c last
    obtain rfl : 'é' = c := by simpa using last
    decide +kernel
  have plain : Plain "A".toList := by decide +kernel
  have each : ∀ p ∈ chatter, p.Valid := by decide +kernel
  have straight : straightened "A".toList chatter = "A --> B x\ty - \x7bi\x7d - é - ½ - NOTE".toList := by
    decide +kernel
  obtain ⟨-, read⟩ := parse_repair_interrupted valid word plain (by decide) each
  rw [straight] at read
  exact ⟨valid, word, plain, by decide, each, by decide +kernel, read⟩

end Flowchart.Repair
