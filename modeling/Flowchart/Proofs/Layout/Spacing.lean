import Mathlib.Algebra.Order.Field.Basic
import Mathlib.Tactic.Linarith
import Mathlib.Tactic.Ring
import Flowchart.Layout.Diagram
import Flowchart.Proofs.Layout.Ranks

/-!
Spaces between boxes, in exact arithmetic. The boxes of a rank are packed a gap apart and then only
moved together (`aligned_spaced`), and ranks are stacked a gap apart (`stack_apart`). A vertex is
placed by the entry of its rank (`centerIn_eq`), and the last move brings the leftmost box to the
margin (`normalized_spec`).
-/
namespace Flowchart

/-- Exact arithmetic: every length is finite, and lengths are compared as the field orders them. -/
instance (priority := low) Scalar.exact {α : Type} [Field α] [LinearOrder α] : Scalar α where
  ofNat n := n
  larger := max
  smaller := min
  below a b := a < b
  isFinite _ := true

/-- Of two members of a list, one comes first. -/
theorem pairwise_or {β : Type} {R : β → β → Prop} {l : List β} (ordered : l.Pairwise R) {a b : β} (first : a ∈ l)
    (second : b ∈ l) (different : a ≠ b) : R a b ∨ R b a := by
  obtain ⟨i, hi, rfl⟩ := List.getElem_of_mem first
  obtain ⟨j, hj, rfl⟩ := List.getElem_of_mem second
  rcases Nat.lt_trichotomy i j with less | rfl | more
  · exact .inl (List.pairwise_iff_getElem.1 ordered i j hi hj less)
  · exact absurd rfl different
  · exact .inr (List.pairwise_iff_getElem.1 ordered j i hj hi more)

namespace Placement
variable {α : Type}

/-! ### The entries of ranks -/

/-- The vertices of the entries of a rank. -/
abbrev keys (rank : List (Nat × α)) : List Nat := rank.map (·.1)

theorem keys_flatten (ranks : List (List (Nat × α))) : keys ranks.flatten = (ranks.map keys).flatten := by
  simp [keys, List.map_flatten]

/-- A vertex of a rank has an entry at the place of the rank. -/
theorem exists_entry {ranks : List (List (Nat × α))} {o : Ordering} (same : ranks.map keys = o) {r v : Nat}
    (inside : r < o.length) (member : v ∈ o[r]) :
    ∃ (inside' : r < ranks.length) (x : α), (v, x) ∈ ranks[r] := by
  subst same
  have inside' : r < ranks.length := by simpa using inside
  rw [List.getElem_map] at member
  obtain ⟨⟨w, x⟩, entry, rfl⟩ := List.mem_map.1 member
  exact ⟨inside', x, entry⟩

variable [Field α] [LinearOrder α]

/-! ### Arithmetic -/

theorem zero_eq : (zero : α) = 0 := Nat.cast_zero

theorem half_eq (a : α) : half a = a / 2 := by
  show a / ((2 : ℕ) : α) = a / 2
  rw [Nat.cast_ofNat]

theorem largest_eq (lengths : List α) : largest lengths = lengths.foldl max 0 := by
  rw [largest, zero_eq]
  rfl

/-- The center of a vertex is that of its only entry. -/
theorem centerIn_eq {placed : List (Nat × α)} (distinct : (keys placed).Nodup) {v : Nat} {x : α}
    (member : (v, x) ∈ placed) : centerIn placed v = x := by
  have found : placed.find? (·.1 = v) = some (v, x) := by
    induction placed with
    | nil => cases member
    | cons p rest ih =>
      rw [keys, List.map_cons, List.nodup_cons] at distinct
      rcases List.mem_cons.1 member with rfl | later
      · simp
      · have other : p.1 ≠ v := by
          rintro rfl
          exact distinct.1 (List.mem_map_of_mem (f := (·.1)) later)
        rw [List.find?_cons_of_neg (by simpa using other)]
        exact ih distinct.2 later
  simp [centerIn, found]

/-! ### Across a rank -/

section
variable {gap : α} {width : Nat → α}

/-- Box after box, each at least a gap to the right of the ones before it. -/
def Spaced (gap : α) (width : Nat → α) (rank : List (Nat × α)) : Prop :=
  rank.Pairwise fun p q => p.2 + half (width p.1) + gap ≤ q.2 - half (width q.1)

theorem pack_keys (left : α) (rank : List Nat) : keys (pack gap width left rank) = rank := by
  induction rank generalizing left with
  | nil => rfl
  | cons v rest ih => exact congrArg (v :: ·) (ih _)

theorem pack_left [IsStrictOrderedRing α] (gapNonneg : 0 ≤ gap) (widthNonneg : ∀ v, 0 ≤ width v) (left : α)
    (rank : List Nat) :
    ∀ p ∈ pack gap width left rank, left ≤ p.2 - half (width p.1) := by
  induction rank generalizing left with
  | nil => exact fun _ member => absurd member List.not_mem_nil
  | cons v rest ih =>
    intro p member
    rcases List.mem_cons.1 member with rfl | later
    · simp only
      linarith
    · have behind := ih _ p later
      have := widthNonneg v
      linarith

theorem pack_spaced [IsStrictOrderedRing α] (gapNonneg : 0 ≤ gap) (widthNonneg : ∀ v, 0 ≤ width v) (left : α)
    (rank : List Nat) :
    Spaced gap width (pack gap width left rank) := by
  induction rank generalizing left with
  | nil => exact .nil
  | cons v rest ih =>
    refine List.pairwise_cons.2 ⟨?_, ih _⟩
    intro p member
    have behind := pack_left gapNonneg widthNonneg _ rest p member
    simp only [half_eq] at behind ⊢
    linarith

/-! ### Moving ranks -/

theorem align_keys (g : Digraph) (above rank : List (Nat × α)) : keys (align g above rank) = keys rank := by
  simp only [align]
  split
  · rfl
  · simp [keys, Function.comp_def]

/-- A rank is moved as a whole. -/
theorem align_moved [IsStrictOrderedRing α] (g : Digraph) (above rank : List (Nat × α)) :
    ∃ shift, align g above rank = rank.map fun p => (p.1, p.2 + shift) := by
  simp only [align]
  split
  · exact ⟨0, by simp⟩
  · exact ⟨_, rfl⟩

theorem alignFrom_keys (g : Digraph) (above : List (Nat × α)) (ranks : List (List (Nat × α))) :
    (alignFrom g above ranks).map keys = ranks.map keys := by
  induction ranks generalizing above with
  | nil => rfl
  | cons rank rest ih =>
    simp only [alignFrom, List.map_cons]
    rw [align_keys, ih]

theorem aligned_keys (g : Digraph) (ranks : List (List (Nat × α))) : (aligned g ranks).map keys = ranks.map keys := by
  cases ranks with
  | nil => rfl
  | cons rank rest => simp only [aligned, List.map_cons, alignFrom_keys]

/-- What holds of a rank wherever it is moved to holds of it when ranks are aligned. -/
theorem aligned_keeps [IsStrictOrderedRing α] {P : List (Nat × α) → Prop}
    (moves : ∀ shift rank, P rank → P (rank.map fun p => (p.1, p.2 + shift))) (g : Digraph)
    {ranks : List (List (Nat × α))} (each : ∀ rank ∈ ranks, P rank) : ∀ rank ∈ aligned g ranks, P rank := by
  have below : ∀ (ranks above), (∀ rank ∈ ranks, P rank) → ∀ rank ∈ alignFrom g above ranks, P rank := by
    intro ranks
    induction ranks with
    | nil => exact fun _ each => each
    | cons rank rest ih =>
      intro above each moved member
      rcases List.mem_cons.1 member with rfl | later
      · obtain ⟨shift, place⟩ := align_moved g above rank
        rw [place]
        exact moves shift rank (each rank List.mem_cons_self)
      · exact ih _ (fun r h => each r (List.mem_cons_of_mem _ h)) moved later
  cases ranks with
  | nil => exact each
  | cons rank rest =>
    intro moved member
    rcases List.mem_cons.1 member with rfl | later
    · exact each moved List.mem_cons_self
    · exact below rest rank (fun r h => each r (List.mem_cons_of_mem _ h)) moved later

theorem spaced_moved [IsStrictOrderedRing α] (shift : α) (rank : List (Nat × α)) (spaced : Spaced gap width rank) :
    Spaced gap width (rank.map fun p => (p.1, p.2 + shift)) := by
  rw [Spaced, List.pairwise_map]
  apply spaced.imp
  intro p q apart
  simp only
  linarith

theorem aligned_spaced [IsStrictOrderedRing α] (g : Digraph) {ranks : List (List (Nat × α))}
    (spaced : ∀ rank ∈ ranks, Spaced gap width rank) : ∀ rank ∈ aligned g ranks, Spaced gap width rank :=
  aligned_keeps spaced_moved g spaced

theorem packed_keys (o : Ordering) : (packed gap width o).map keys = o := by
  simp only [packed, List.map_map]
  conv => rhs; rw [← List.map_id o]
  exact List.map_congr_left fun rank _ => pack_keys _ rank

theorem packed_spaced [IsStrictOrderedRing α] (gapNonneg : 0 ≤ gap) (widthNonneg : ∀ v, 0 ≤ width v) (o : Ordering) :
    ∀ rank ∈ packed gap width o, Spaced gap width rank := by
  intro placed member
  obtain ⟨rank, -, rfl⟩ := List.mem_map.1 member
  exact pack_spaced gapNonneg widthNonneg _ rank

end

/-! ### To the margin -/

theorem foldl_min_le {β : Type} [LinearOrder β] (start : β) (l : List β) :
    l.foldl min start ≤ start ∧ ∀ a ∈ l, l.foldl min start ≤ a := by
  induction l generalizing start with
  | nil => exact ⟨le_refl _, fun _ member => absurd member List.not_mem_nil⟩
  | cons b rest ih =>
    obtain ⟨bound, all⟩ := ih (min start b)
    refine ⟨bound.trans (min_le_left _ _), ?_⟩
    intro a member
    rcases List.mem_cons.1 member with rfl | later
    · exact bound.trans (min_le_right _ _)
    · exact all a later

theorem foldl_min_mem {β : Type} [LinearOrder β] (start : β) (l : List β) : l.foldl min start ∈ start :: l :=
  List.min?_mem List.min?_cons'

/-- All centers are moved by the same length, after which no box reaches into the margin and one touches it. -/
theorem normalized_spec [IsStrictOrderedRing α] (margin : α) (width : Nat → α) (centers : List α) :
    ∃ offset, normalized margin width centers = centers.map (· + offset) ∧
      (∀ v (inside : v < centers.length), margin ≤ centers[v] + offset - half (width v)) ∧
      (centers ≠ [] → ∃ v, ∃ inside : v < centers.length, centers[v] + offset - half (width v) = margin) := by
  cases centers with
  | nil => exact ⟨0, rfl, fun _ inside => absurd inside (Nat.not_lt_zero _), fun filled => absurd rfl filled⟩
  | cons x rest =>
    let lefts := (x :: rest).zipIdx.map fun p => p.1 - half (width p.2)
    obtain ⟨first, others, shape⟩ : ∃ first others, lefts = first :: others := ⟨_, _, rfl⟩
    have entries : ∀ left, left ∈ lefts ↔
        ∃ v, ∃ inside : v < (x :: rest).length, (x :: rest)[v] - half (width v) = left := by
      intro left
      simp only [lefts, List.mem_map, Prod.exists, List.mem_zipIdx_iff_getElem?, List.getElem?_eq_some_iff]
      constructor
      · rintro ⟨center, v, ⟨inside, entry⟩, same⟩
        exact ⟨v, inside, by rw [entry, same]⟩
      · rintro ⟨v, inside, same⟩
        exact ⟨_, v, ⟨inside, rfl⟩, same⟩
    refine ⟨margin - others.foldl min first, ?_, ?_, fun _ => ?_⟩
    · simp only [normalized]
      rw [show List.map _ _ = lefts from rfl, shape]
      rfl
    · intro v inside
      have member := (entries _).2 ⟨v, inside, rfl⟩
      rw [shape] at member
      have least : others.foldl min first ≤ (x :: rest)[v] - half (width v) := by
        rcases List.mem_cons.1 member with same | later
        · rw [same]
          exact (foldl_min_le _ _).1
        · exact (foldl_min_le _ _).2 _ later
      linarith
    · obtain ⟨v, inside, leftmost⟩ := (entries _).1 (shape ▸ foldl_min_mem first others)
      exact ⟨v, inside, by linarith⟩

/-! ### Down the ranks -/

section
variable {gap : α} {height : Nat → α}

theorem stack_keys (top : α) (o : Ordering) : (stack gap height top o).map keys = o := by
  induction o generalizing top with
  | nil => rfl
  | cons rank rest ih =>
    simp only [stack, List.map_cons, List.map_map, ih]
    congr 1
    exact List.map_id rank

theorem height_le_rankHeight {rank : List Nat} {v : Nat} (member : v ∈ rank) : height v ≤ rankHeight height rank := by
  rw [rankHeight, largest_eq]
  exact le_foldl_max (List.mem_map_of_mem member) 0

theorem rankHeight_nonneg (rank : List Nat) : 0 ≤ rankHeight height rank := by
  rw [rankHeight, largest_eq]
  exact start_le_foldl_max 0 _

theorem stack_top [IsStrictOrderedRing α] (gapNonneg : 0 ≤ gap) (top : α) (o : Ordering) :
    ∀ rank ∈ stack gap height top o, ∀ p ∈ rank, top ≤ p.2 - half (height p.1) := by
  induction o generalizing top with
  | nil => exact fun _ member => absurd member List.not_mem_nil
  | cons rank rest ih =>
    intro placed member p entry
    rcases List.mem_cons.1 member with rfl | later
    -- All boxes of a rank are centered on one line, and none is taller than the rank.
    · obtain ⟨v, inside, rfl⟩ := List.mem_map.1 entry
      have tallest : height v ≤ rankHeight height rank := height_le_rankHeight inside
      simp only [half_eq]
      linarith
    · have below := ih _ placed later p entry
      have tallest : 0 ≤ rankHeight height rank := rankHeight_nonneg rank
      linarith

/-- A box of a lower rank starts a gap below every box of a higher one. -/
theorem stack_apart [IsStrictOrderedRing α] (gapNonneg : 0 ≤ gap) (top : α) (o : Ordering) :
    (stack gap height top o).Pairwise fun upper lower =>
      ∀ p ∈ upper, ∀ q ∈ lower, p.2 + half (height p.1) + gap ≤ q.2 - half (height q.1) := by
  induction o generalizing top with
  | nil => exact .nil
  | cons rank rest ih =>
    refine List.pairwise_cons.2 ⟨?_, ih _⟩
    intro lower member p entry q entry'
    obtain ⟨v, inside, rfl⟩ := List.mem_map.1 entry
    have tallest : height v ≤ rankHeight height rank := height_le_rankHeight inside
    have below := stack_top gapNonneg _ rest lower member q entry'
    simp only [half_eq] at below ⊢
    linarith

end
end Placement
end Flowchart
