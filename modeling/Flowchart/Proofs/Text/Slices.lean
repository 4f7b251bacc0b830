import Flowchart.Line.Offsets
import Flowchart.Proofs.Text.Punctuation

/-!
Slices of a text by byte offsets. A slice from an offset on is there exactly where a character of the UTF-8 form
starts or where it ends (`sliceFrom?_isSome_iff`). The ends of a line are told by the offsets at which they start
(`startOf`): behind a part of known size, the next end starts that much further on (`startOf_behind`).
-/
namespace Flowchart.Text

/-! ### Sizes -/

theorem size_eq_zero {t : Text} : t.size = 0 ↔ t = [] := by
  cases t with
  | nil => simp
  | cons c r => simp [Nat.ne_of_gt c.utf8Size_pos]

theorem size_eq_utf8ByteSize (t : Text) : t.size = (String.ofList t).utf8ByteSize := by
  induction t with
  | nil => rfl
  | cons c t ih =>
    rw [size_cons, ih]
    simp [String.ofList_cons]

theorem prefix_of_size_le {s t u : Text} (first : s <+: u) (second : t <+: u) (short : s.size ≤ t.size) : s <+: t := by
  rcases List.prefix_or_prefix_of_prefix first second with part | ⟨rest, rfl⟩
  · exact part
  · rw [size_append] at short
    obtain rfl : rest = [] := size_eq_zero.1 (by omega)
    exact (List.append_nil t).symm ▸ List.prefix_refl t

/-- Two marks at the ends of a text that has room for both do not overlap. -/
theorem exists_between {opening closing t : Text} (starts : opening <+: t) (ends : closing <:+ t)
    (room : opening.size + closing.size ≤ t.size) : ∃ inner, t = opening ++ inner ++ closing := by
  obtain ⟨before, rfl⟩ := ends
  rw [size_append] at room
  obtain ⟨inner, rfl⟩ := prefix_of_size_le starts (List.prefix_append before closing) (by omega)
  exact ⟨inner, rfl⟩

theorem before?_isSome_iff {mark t : Text} : (before? mark t).isSome ↔ mark <:+ t := by
  rw [Option.isSome_iff_exists]
  exact exists_congr fun rest => before?_eq_some.trans eq_comm

/-! ### Slices -/

@[simp] theorem sliceFrom?_zero (t : Text) : t.sliceFrom? 0 = some t := by cases t <;> rfl

@[simp] theorem sliceTo?_zero (t : Text) : t.sliceTo? 0 = some [] := by cases t <;> rfl

theorem sliceFrom?_cons (c : Char) (t : Text) (offset : Nat) :
    sliceFrom? (c :: t) (c.utf8Size + offset) = t.sliceFrom? offset := by
  obtain ⟨k, wide⟩ := Nat.exists_eq_add_one.2 (Nat.add_pos_left c.utf8Size_pos offset)
  rw [wide, sliceFrom?, if_pos (by omega), ← wide, Nat.add_sub_cancel_left]

theorem sliceTo?_cons (c : Char) (t : Text) (offset : Nat) :
    sliceTo? (c :: t) (c.utf8Size + offset) = (t.sliceTo? offset).map (c :: ·) := by
  obtain ⟨k, wide⟩ := Nat.exists_eq_add_one.2 (Nat.add_pos_left c.utf8Size_pos offset)
  rw [wide, sliceTo?, if_pos (by omega), ← wide, Nat.add_sub_cancel_left]

theorem sliceFrom?_append (front t : Text) : sliceFrom? (front ++ t) front.size = some t := by
  induction front with
  | nil => exact sliceFrom?_zero t
  | cons c front ih => rw [size_cons, List.cons_append, sliceFrom?_cons, ih]

theorem sliceTo?_append (front t : Text) : sliceTo? (front ++ t) front.size = some front := by
  induction front with
  | nil => exact sliceTo?_zero t
  | cons c front ih =>
    rw [size_cons, List.cons_append, sliceTo?_cons, ih]
    rfl

theorem slice?_append (front middle t : Text) :
    slice? (front ++ middle ++ t) front.size (front.size + middle.size) = some middle := by
  rw [slice?, if_pos (Nat.le_add_right _ _), List.append_assoc, sliceFrom?_append, Option.bind_some,
    Nat.add_sub_cancel_left, sliceTo?_append]

theorem sliceFrom?_eq_some {t rest : Text} {offset : Nat} :
    t.sliceFrom? offset = some rest ↔ ∃ front, t = front ++ rest ∧ offset = front.size := by
  constructor
  · intro found
    fun_induction sliceFrom? t offset with
    | case1 t =>
      obtain rfl := Option.some.inj found
      exact ⟨[], rfl, rfl⟩
    | case2 => cases found
    | case3 c t offset inside ih =>
      obtain ⟨front, rfl, rest⟩ := ih found
      exact ⟨c :: front, rfl, by rw [size_cons]; omega⟩
    | case4 => cases found
  · rintro ⟨front, rfl, rfl⟩
    exact sliceFrom?_append front rest

/-- In the UTF-8 form of the text, a character starts at the offset or the text ends there. -/
def OnBoundary (t : Text) (offset : Nat) : Prop := String.Pos.Raw.IsValid (String.ofList t) ⟨offset⟩

theorem onBoundary_iff {t : Text} {offset : Nat} :
    OnBoundary t offset ↔ ∃ front rest, t = front ++ rest ∧ offset = front.size := by
  rw [OnBoundary, String.Pos.Raw.isValid_iff_exists_append]
  constructor
  · rintro ⟨first, second, whole, here⟩
    refine ⟨first.toList, second.toList, ?_, ?_⟩
    · rw [← String.toList_append, ← whole, String.toList_ofList]
    · rw [size_eq_utf8ByteSize, String.ofList_toList]
      exact congrArg String.Pos.Raw.byteIdx here
  · rintro ⟨front, rest, rfl, rfl⟩
    refine ⟨String.ofList front, String.ofList rest, String.ofList_append, ?_⟩
    rw [size_eq_utf8ByteSize]
    rfl

/-- A slice fails exactly where the offset is inside a character or past the end. -/
theorem sliceFrom?_isSome_iff {t : Text} {offset : Nat} : (t.sliceFrom? offset).isSome ↔ OnBoundary t offset := by
  rw [onBoundary_iff, exists_comm, Option.isSome_iff_exists]
  exact exists_congr fun rest => sliceFrom?_eq_some

/-! ### Ends of a line -/

/-- The offset at which an end of a line starts. -/
def startOf (line t : Text) : Nat := line.size - t.size

theorem startOf_self (line : Text) : startOf line line = 0 := Nat.sub_self _

theorem startOf_append (front t : Text) : startOf (front ++ t) t = front.size := by
  rw [startOf, size_append, Nat.add_sub_cancel_right]

section
variable {line t : Text}

theorem slice_startOf (final : t <:+ line) : line.sliceFrom? (startOf line t) = some t := by
  obtain ⟨front, rfl⟩ := final
  rw [startOf_append, sliceFrom?_append]

theorem slice_part {s : Text} (final : s ++ t <:+ line) :
    line.slice? (startOf line (s ++ t)) (startOf line (s ++ t) + s.size) = some s := by
  obtain ⟨front, rfl⟩ := final
  rw [startOf_append, ← List.append_assoc, slice?_append]

/-- Behind a part of the text, the next end starts further on by the size of the part. -/
theorem startOf_behind {s : Text} (final : s ++ t <:+ line) : startOf line t = startOf line (s ++ t) + s.size := by
  obtain ⟨front, rfl⟩ := final
  rw [startOf_append, ← List.append_assoc, startOf_append, size_append]

/-- What is passed over has the size by which what is left gets smaller. -/
theorem startOf_suffix {s : Text} (final : t <:+ line) (part : s <:+ t) :
    startOf line s = startOf line t + (t.size - s.size) := by
  obtain ⟨front, rfl⟩ := part
  rw [startOf_behind final, size_append, Nat.add_sub_cancel_right]

theorem startOf_le {s : Text} (final : t <:+ line) (part : s <:+ t) : startOf line t ≤ startOf line s := by
  rw [startOf_suffix final part]
  exact Nat.le_add_right _ _

/-- A shorter end starts further on. -/
theorem startOf_lt {s : Text} (final : t <:+ line) (part : s <:+ t) (shorter : s.length < t.length) :
    startOf line t < startOf line s := by
  obtain ⟨front, rfl⟩ := part
  have filled : front ≠ [] := by
    rintro rfl
    exact Nat.lt_irrefl _ shorter
  have wide := mt size_eq_zero.1 filled
  rw [startOf_behind final]
  omega

end

theorem onBoundary_iff_startOf {line : Text} {position : Nat} :
    OnBoundary line position ↔ ∃ t, t <:+ line ∧ position = startOf line t := by
  rw [onBoundary_iff, exists_comm]
  refine exists_congr fun t => ?_
  constructor
  · rintro ⟨front, rfl, rfl⟩
    exact ⟨List.suffix_append front t, (startOf_append front t).symm⟩
  · rintro ⟨⟨front, rfl⟩, rfl⟩
    exact ⟨front, rfl, startOf_append front t⟩

end Flowchart.Text
