import Mathlib.Data.List.Permutation
import Flowchart.Proofs.Layout.Dummies
import Flowchart.Proofs.Layout.Spacing

/-!
Where the centers are, in exact arithmetic. Packing puts neighbours on a rank exactly a gap apart, and as ranks are
moved as a whole from then on, they stay so (`aligned_close`). A rank is moved when the rank above it has its place
for good, to where the pulls of the parents cancel out (`aligned_balanced`); and the last move, of everything,
changes no distance. So each of the promises of a drawing holds at the end (`centers_placed`).
-/
namespace Flowchart.Placement
variable {α : Type} [Field α] [LinearOrder α]

/-! ### Neighbours on a rank -/

/-- Box after box, each exactly a gap to the right of the one before it. -/
def Close (gap : α) (width : Nat → α) (rank : List (Nat × α)) : Prop :=
  rank.IsChain fun p q => q.2 - width q.1 / 2 - (p.2 + width p.1 / 2) = gap

section
variable {gap : α} {width : Nat → α}

theorem pack_close [IsStrictOrderedRing α] (left : α) (rank : List Nat) :
    Close gap width (pack gap width left rank) := by
  induction rank generalizing left with
  | nil => exact .nil
  | cons v rest ih =>
    cases rest with
    | nil => exact .singleton _
    | cons w rest =>
      refine .cons_cons ?_ (ih _)
      simp only [half_eq]
      ring

theorem close_moved (shift : α) (rank : List (Nat × α)) (close : Close gap width rank) :
    Close gap width (rank.map fun p => (p.1, p.2 + shift)) := by
  rw [Close, List.isChain_map]
  refine close.imp fun p q apart => ?_
  rw [← apart]
  ring

theorem aligned_close [IsStrictOrderedRing α] (g : Digraph) (o : Ordering) :
    ∀ rank ∈ aligned g (packed gap width o), Close gap width rank := by
  refine aligned_keeps close_moved g fun placed member => ?_
  obtain ⟨rank, -, rfl⟩ := List.mem_map.1 member
  exact pack_close _ rank

end

/-! ### Parents -/

theorem total_eq (lengths : List α) : total lengths = lengths.sum := by
  rw [total, zero_eq, List.sum_eq_foldl]

/-- Less their mean, some lengths cancel out. -/
theorem sum_sub_mean [IsStrictOrderedRing α] (lengths : List α) (filled : lengths ≠ []) :
    (lengths.map (· - lengths.sum / lengths.length)).sum = 0 := by
  have shifted : ∀ (mean : α) (l : List α), (l.map (· - mean)).sum = l.sum - l.length * mean := by
    intro mean l
    induction l with
    | nil => simp
    | cons a rest ih =>
      rw [List.map_cons, List.sum_cons, ih, List.sum_cons, List.length_cons]
      push_cast
      ring
  have count : (lengths.length : α) ≠ 0 := by simpa using filled
  rw [shifted, mul_div_cancel₀ _ count, sub_self]

theorem pulls_moved (g : Digraph) (above rank : List (Nat × α)) (shift : α) :
    pulls g above (rank.map fun p => (p.1, p.2 + shift)) = (pulls g above rank).map (· - shift) := by
  rw [pulls, List.flatMap_map, pulls, List.map_flatMap]
  congr 1
  funext p
  rw [List.map_map]
  refine List.map_congr_left fun u _ => ?_
  simp only [Function.comp_apply]
  ring

/-- On a rank that was aligned the pulls of the parents cancel out. -/
theorem align_balanced [IsStrictOrderedRing α] (g : Digraph) (above rank : List (Nat × α)) :
    (pulls g above (align g above rank)).sum = 0 := by
  simp only [align]
  split
  · next none => rw [List.isEmpty_iff.1 none, List.sum_nil]
  · next some =>
    have mean : total (pulls g above rank) / Scalar.ofNat (pulls g above rank).length =
        (pulls g above rank).sum / (pulls g above rank).length := by
      rw [total_eq]
      rfl
    rw [mean, pulls_moved]
    exact sum_sub_mean _ (by simpa using some)

theorem alignFrom_balanced [IsStrictOrderedRing α] (g : Digraph) (above : List (Nat × α))
    (ranks : List (List (Nat × α))) :
    (above :: alignFrom g above ranks).IsChain fun above rank => (pulls g above rank).sum = 0 := by
  induction ranks generalizing above with
  | nil => exact .singleton above
  | cons rank rest ih => exact .cons_cons (align_balanced g above rank) (ih _)

/-- The rank above is not moved any more when a rank is aligned with it. -/
theorem aligned_balanced [IsStrictOrderedRing α] (g : Digraph) (ranks : List (List (Nat × α))) :
    (aligned g ranks).IsChain fun above rank => (pulls g above rank).sum = 0 := by
  cases ranks with
  | nil => exact .nil
  | cons rank rest => exact alignFrom_balanced g rank rest

/-! ### Center lines -/

section
variable {gap : α} {height : Nat → α}

/-- The top edge of a rank: that of the first rank, and the heights of the ranks above with a gap below each. -/
def rankTop (gap : α) (height : Nat → α) (top : α) (o : Ordering) (r : Nat) : α :=
  (o.take r).foldl (fun top rank => top + (rankHeight height rank + gap)) top

theorem rankTop_succ (top : α) (o : Ordering) {r : Nat} (inside : r < o.length) :
    rankTop gap height top o (r + 1) = rankTop gap height top o r + (rankHeight height o[r] + gap) := by
  rw [rankTop, ← List.take_append_getElem inside, List.foldl_append]
  rfl

/-- All boxes of a rank are centered on one line. -/
theorem stack_line (top : α) (o : Ordering) {r : Nat} (inside : r < o.length)
    (inside' : r < (stack gap height top o).length) :
    ∀ p ∈ (stack gap height top o)[r], p.2 = rankTop gap height top o r + rankHeight height o[r] / 2 := by
  induction o generalizing top r with
  | nil => cases inside
  | cons rank rest ih =>
    intro p entry
    cases r with
    | zero =>
      obtain ⟨v, -, rfl⟩ := List.mem_map.1 entry
      simp only [half_eq, rankTop, List.take_zero, List.foldl_nil, List.getElem_cons_zero]
    | succ r => exact ih _ (Nat.lt_of_succ_lt_succ inside) (Nat.lt_of_succ_lt_succ inside') p entry

/-- A rank is as high as its tallest box, if it has any. -/
theorem rankHeight_cases (nonneg : ∀ v, 0 ≤ height v) (rank : List Nat) :
    rank = [] ∧ rankHeight height rank = 0 ∨ ∃ v ∈ rank, height v = rankHeight height rank := by
  have member : (rank.map height).foldl max 0 ∈ 0 :: rank.map height := List.max?_mem List.max?_cons'
  rw [← largest_eq, ← rankHeight] at member
  rcases List.mem_cons.1 member with flat | some
  · cases rank with
    | nil => exact .inl ⟨rfl, flat⟩
    | cons v rest =>
      have bound : height v ≤ rankHeight height (v :: rest) := height_le_rankHeight List.mem_cons_self
      exact .inr ⟨v, List.mem_cons_self, le_antisymm bound (flat ▸ nonneg v)⟩
  · exact .inr (List.mem_map.1 some)

end

/-! ### The centers of all vertices -/

/-- The entries of a rank are its vertices with their centers. -/
theorem entries_eq {ranks : List (List (Nat × α))} (distinct : (keys ranks.flatten).Nodup) {rank : List (Nat × α)}
    (member : rank ∈ ranks) : rank = (keys rank).map fun v => (v, centerIn ranks.flatten v) := by
  rw [keys, List.map_map]
  refine (List.map_id rank).symm.trans (List.map_congr_left fun p entry => ?_)
  rw [Function.comp_apply, centerIn_eq distinct (List.mem_flatten.2 ⟨rank, member, entry⟩)]
  rfl

theorem entries_getElem {ranks : List (List (Nat × α))} {o : Ordering} (same : ranks.map keys = o)
    (distinct : o.flatten.Nodup) {r : Nat} (inside : r < o.length) (inside' : r < ranks.length) :
    ranks[r] = o[r].map fun v => (v, centerIn ranks.flatten v) := by
  subst same
  have unique : (keys ranks.flatten).Nodup := by rwa [keys_flatten]
  simpa using entries_eq unique (List.getElem_mem inside')

/-- Neighbours on a rank are a gap apart if their entries are. -/
theorem gaps_of_close {gap : α} {width : Nat → α} {ranks : List (List (Nat × α))} {o : Ordering}
    (same : ranks.map keys = o) (distinct : o.flatten.Nodup) (close : ∀ rank ∈ ranks, Close gap width rank) :
    ∀ rank ∈ o, rank.IsChain fun v w =>
      centerIn ranks.flatten w - width w / 2 - (centerIn ranks.flatten v + width v / 2) = gap := by
  subst same
  have unique : (keys ranks.flatten).Nodup := by rwa [keys_flatten]
  intro rank member
  obtain ⟨placed, there, rfl⟩ := List.mem_map.1 member
  have apart := close placed there
  rwa [entries_eq unique there, Close, List.isChain_map] at apart

/-- Where the parents of a rank stand on the rank above, the pulls are between the centers of all vertices. -/
theorem pulls_eq (g : Digraph) {ranks : List (List (Nat × α))} {o : Ordering} (same : ranks.map keys = o)
    (distinct : o.flatten.Nodup) {r : Nat} (inside : r + 1 < o.length) (inside' : r + 1 < ranks.length)
    (above : ∀ v ∈ o[r + 1], ∀ p ∈ g.predecessors v, p ∈ o[r]) :
    pulls g ranks[r] ranks[r + 1] = o[r + 1].flatMap fun v =>
      (g.predecessors v).map fun p => centerIn ranks.flatten p - centerIn ranks.flatten v := by
  have upper := entries_getElem same distinct (Nat.lt_of_succ_lt inside) (Nat.lt_of_succ_lt inside')
  have once : (keys ranks[r]).Nodup := by
    have rank : keys ranks[r] = o[r] := by simp [← same]
    exact rank ▸ (List.nodup_flatten.1 distinct).1 _ (List.getElem_mem _)
  rw [entries_getElem same distinct inside inside', pulls, List.flatMap_map]
  refine List.flatMap_congr fun v here => List.map_congr_left fun p parent => ?_
  have entry : (p, centerIn ranks.flatten p) ∈ ranks[r] :=
    upper ▸ List.mem_map_of_mem (above v here p parent)
  rw [centerIn_eq once entry]

section
variable (c : Config α) (a : Augmented) (sizes : List (Size α)) (o : Ordering)

/-- The ranks with their centers from left to right, before the last move. -/
def across : List (List (Nat × α)) :=
  aligned a.graph (packed c.horizontalGap (fun v => (sizeOf c a sizes v).width) o)

/-- The ranks with their centers from top to bottom. -/
def down : List (List (Nat × α)) := stack c.verticalGap (fun v => (sizeOf c a sizes v).height) c.margin o

theorem across_keys : (across c a sizes o).map keys = o := (aligned_keys _ _).trans (packed_keys o)

theorem down_keys : (down c a sizes o).map keys = o := stack_keys c.margin o

/-- The centers of all vertices are those on the ranks, moved so that the leftmost box touches the margin. -/
theorem centers_eq [IsStrictOrderedRing α] : ∃ offset,
    centers c a sizes o = a.graph.vertices.map (fun v =>
      (centerIn (across c a sizes o).flatten v + offset, centerIn (down c a sizes o).flatten v)) ∧
    (a.graph.size ≠ 0 → IsLeast {left | ∃ v < a.graph.size,
      centerIn (across c a sizes o).flatten v + offset - (sizeOf c a sizes v).width / 2 = left} c.margin) := by
  obtain ⟨offset, moved, bound, touching⟩ := normalized_spec c.margin (fun v => (sizeOf c a sizes v).width)
    (a.graph.vertices.map (centerIn (across c a sizes o).flatten))
  simp only [Digraph.vertices, List.length_map, List.length_range, List.getElem_map, List.getElem_range,
    half_eq] at bound
  refine ⟨offset, ?_, fun filled => ⟨?_, ?_⟩⟩
  · refine (congrArg (List.zip · (a.graph.vertices.map (centerIn (down c a sizes o).flatten))) moved).trans ?_
    rw [List.map_map, List.zip_map']
    rfl
  · obtain ⟨v, inside, touches⟩ := touching (by simpa [Digraph.vertices] using filled)
    simp only [Digraph.vertices, List.length_map, List.length_range, List.getElem_map, List.getElem_range,
      half_eq] at inside touches
    exact ⟨v, inside, touches⟩
  · rintro left ⟨v, inside, rfl⟩
    exact bound v inside

/-- What a drawing promises of the centers: left to right, neighbours on a rank are a gap apart, the pulls of the
    parents of a rank cancel out, and the leftmost box touches the margin; top to bottom, every rank has a center line,
    and starts a gap below the tallest box of the rank above. -/
structure Placed (c : Config α) (a : Augmented) (sizes : List (Size α)) (o : Ordering) (x y top tallest : Nat → α) :
    Prop where
  gaps : ∀ rank ∈ o, rank.IsChain fun v w =>
    x w - (sizeOf c a sizes w).width / 2 - (x v + (sizeOf c a sizes v).width / 2) = c.horizontalGap
  parents : ∀ r (inside : r < o.length), 0 < r →
    (o[r].flatMap fun v => (a.graph.predecessors v).map fun p => x p - x v).sum = 0
  margin : a.graph.size ≠ 0 →
    IsLeast {left | ∃ v < a.graph.size, x v - (sizeOf c a sizes v).width / 2 = left} c.margin
  lines : ∀ r (inside : r < o.length), ∀ v ∈ o[r], y v = top r + tallest r / 2
  first : top 0 = c.margin
  next : ∀ r < o.length, top (r + 1) = top r + tallest r + c.verticalGap
  bounded : ∀ r (inside : r < o.length), ∀ v ∈ o[r], (sizeOf c a sizes v).height ≤ tallest r
  reached : ∀ r (inside : r < o.length),
    o[r] = [] ∧ tallest r = 0 ∨ ∃ v ∈ o[r], (sizeOf c a sizes v).height = tallest r

variable {o} (distinct : o.flatten.Nodup)
include distinct

theorem across_gaps [IsStrictOrderedRing α] : ∀ rank ∈ o, rank.IsChain fun v w =>
    centerIn (across c a sizes o).flatten w - (sizeOf c a sizes w).width / 2 -
      (centerIn (across c a sizes o).flatten v + (sizeOf c a sizes v).width / 2) = c.horizontalGap :=
  gaps_of_close (across_keys c a sizes o) distinct (aligned_close a.graph o)

theorem across_balanced [IsStrictOrderedRing α] {r : Nat} (inside : r + 1 < o.length)
    (above : ∀ v ∈ o[r + 1], ∀ p ∈ a.graph.predecessors v, p ∈ o[r]) :
    (o[r + 1].flatMap fun v => (a.graph.predecessors v).map fun p =>
      centerIn (across c a sizes o).flatten p - centerIn (across c a sizes o).flatten v).sum = 0 := by
  have inside' : r + 1 < (across c a sizes o).length := by
    rwa [← across_keys c a sizes o, List.length_map] at inside
  rw [← pulls_eq a.graph (across_keys c a sizes o) distinct inside inside' above]
  exact List.isChain_iff_getElem.1 (aligned_balanced a.graph _) r inside'

theorem down_line {r : Nat} (inside : r < o.length) {v : Nat} (here : v ∈ o[r]) :
    centerIn (down c a sizes o).flatten v =
      rankTop c.verticalGap (fun v => (sizeOf c a sizes v).height) c.margin o r +
        rankHeight (fun v => (sizeOf c a sizes v).height) o[r] / 2 := by
  have inside' : r < (down c a sizes o).length := by
    rwa [← down_keys c a sizes o, List.length_map] at inside
  have entry : (v, centerIn (down c a sizes o).flatten v) ∈ (down c a sizes o)[r] := by
    rw [entries_getElem (down_keys c a sizes o) distinct inside inside']
    exact List.mem_map_of_mem here
  exact stack_line c.margin o inside inside' _ entry

end

/-- The predecessors of a vertex stand on the rank above. -/
theorem mem_above {a : Augmented} (proper : a.graph.Proper)
    (steps : ∀ u v, a.graph.Adj u v → rankIn a.ranks v = rankIn a.ranks u + 1) {passes r : Nat}
    (inside : r + 1 < (Ordering.minimal a passes).length) :
    ∀ v ∈ (Ordering.minimal a passes)[r + 1], ∀ p ∈ a.graph.predecessors v, p ∈ (Ordering.minimal a passes)[r] := by
  intro v here p parent
  have edge := Digraph.mem_predecessors.1 parent
  have rank := ((Ordering.mem_minimal inside).1 here).2
  have step := steps p v edge
  exact (Ordering.mem_minimal _).2 ⟨(proper p v edge).1, by omega⟩

theorem sizeOf_height_nonneg (c : Config α) (a : Augmented) {sizes : List (Size α)}
    (nonneg : ∀ s ∈ sizes, 0 ≤ s.height) (v : Nat) : 0 ≤ (sizeOf c a sizes v).height := by
  unfold sizeOf
  split
  · exact zero_eq.ge
  · rw [List.getD_eq_getElem?_getD]
    by_cases inside : v < sizes.length
    · simpa [inside] using nonneg _ (List.getElem_mem inside)
    · simp [inside, zero_eq]

/-- In every drawing of a layering whose edges lead to higher ranks, the centers keep their promises. -/
theorem centers_placed [IsStrictOrderedRing α] {l : Layering} (rising : l.Rising) (passes : Nat) (c : Config α)
    (sizes : List (Size α)) (nonneg : ∀ s ∈ sizes, 0 ≤ s.height) :
    ∃ x y top tallest : Nat → α,
      centers c (Augmented.of l) sizes (Ordering.minimal (Augmented.of l) passes) =
        (Augmented.of l).graph.vertices.map (fun v => (x v, y v)) ∧
      Placed c (Augmented.of l) sizes (Ordering.minimal (Augmented.of l) passes) x y top tallest := by
  have splits := Augmented.of_splits rising
  generalize Augmented.of l = a at splits ⊢
  have distinct := Ordering.minimal_nodup a passes
  let height := fun v => (sizeOf c a sizes v).height
  obtain ⟨offset, drawn, margin⟩ := centers_eq c a sizes (Ordering.minimal a passes)
  refine ⟨_, _, rankTop c.verticalGap height c.margin (Ordering.minimal a passes),
    fun r => rankHeight height ((Ordering.minimal a passes).getD r []), drawn, ?_⟩
  constructor
  case gaps =>
    intro rank member
    refine (across_gaps c a sizes distinct rank member).imp fun v w apart => ?_
    rw [← apart]
    ring
  case parents =>
    intro r inside below
    obtain ⟨r, rfl⟩ := Nat.exists_eq_add_one.2 below
    simp only [add_sub_add_right_eq_sub]
    exact across_balanced c a sizes distinct inside (mem_above splits.proper splits.steps inside)
  case margin => exact margin
  case lines =>
    intro r inside v here
    simpa [inside] using down_line c a sizes distinct inside here
  case first => rfl
  case next =>
    intro r inside
    rw [rankTop_succ c.margin _ inside, ← add_assoc]
    simp [inside]
  case bounded =>
    intro r inside v here
    have below : height v ≤ rankHeight height (Ordering.minimal a passes)[r] := height_le_rankHeight here
    simpa [inside] using below
  case reached =>
    intro r inside
    simpa [inside] using rankHeight_cases (sizeOf_height_nonneg c a nonneg) (Ordering.minimal a passes)[r]

/-- A cycle with a chord, and a second source. -/
def sail : Digraph := ⟨4, [(0, 1), (1, 2), (0, 2), (2, 0), (3, 2)]⟩

def sailSizes : List (Size ℚ) := [⟨150, 50⟩, ⟨120, 80⟩, ⟨60, 40⟩, ⟨90, 0⟩]

theorem sail_placed :
    (Layering.breakingCycles sail).Rising ∧ (∀ s ∈ sailSizes, 0 ≤ s.height) ∧
      Ordering.minimal (Augmented.of (Layering.breakingCycles sail)) 4 = [[0, 3], [1, 4, 5, 6], [2]] ∧
      centers Config.standard (Augmented.of (Layering.breakingCycles sail)) sailSizes [[0, 3], [1, 4, 5, 6], [2]] =
        [(475 / 2, 65), (100, 230), (575 / 2, 390), (875 / 2, 65), (250, 230), (350, 230), (450, 230)] ∧
      ∃ x y top tallest : Nat → ℚ,
        centers Config.standard (Augmented.of (Layering.breakingCycles sail)) sailSizes
            (Ordering.minimal (Augmented.of (Layering.breakingCycles sail)) 4) =
          (Augmented.of (Layering.breakingCycles sail)).graph.vertices.map (fun v => (x v, y v)) ∧
        Placed Config.standard (Augmented.of (Layering.breakingCycles sail)) sailSizes
          (Ordering.minimal (Augmented.of (Layering.breakingCycles sail)) 4) x y top tallest := by
  have ends : ∀ e ∈ sail.edges, e.1 < 4 ∧ e.2 < 4 ∧ e.1 ≠ e.2 := by decide
  have rising : (Layering.breakingCycles sail).Rising :=
    Layering.Layers.broken.rising (fun u v edge => ⟨(ends (u, v) edge).1, (ends (u, v) edge).2.1⟩)
      fun v loop => (ends (v, v) loop).2.2 rfl
  have nonneg : ∀ s ∈ sailSizes, 0 ≤ s.height := by decide +kernel
  have augmented : Augmented.of (Layering.breakingCycles sail) =
      ⟨⟨7, [(0, 1), (1, 2), (0, 4), (4, 2), (0, 5), (5, 2), (3, 6), (6, 2)]⟩, [0, 1, 2, 0, 1, 1, 1], 3, 4⟩ := by
    decide +kernel
  have ordered : Ordering.minimal (Augmented.of (Layering.breakingCycles sail)) 4 = [[0, 3], [1, 4, 5, 6], [2]] := by
    rw [augmented]
    cbv
  exact ⟨rising, nonneg, ordered, by decide +kernel, centers_placed rising 4 Config.standard sailSizes nonneg⟩

end Flowchart.Placement
