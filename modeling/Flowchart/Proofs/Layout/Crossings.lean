import Mathlib.Data.List.Permutation
import Flowchart.Proofs.Layout.Ranks

/-!
Fewer and fewer crossings. A step keeps the better of an order and its sweep (`better`), and so many sweeps at most are
so many steps: where the sweeps stop, no later step changes anything (`improve_eq_iterate`). Hence the crossings fall
until they stay, and the order stays with them, while each rank keeps its vertices (`minimal_improves`).
-/
namespace Flowchart.Ordering

/-! ### One sweep -/

/-- The sweep of an order if that has fewer crossings, otherwise the order itself. -/
def better (g : Digraph) (o : Ordering) : Ordering :=
  if crossings g (sweepBoth g o) < crossings g o then sweepBoth g o else o

/-- A step that changes the order takes crossings away. -/
theorem better_cases (g : Digraph) (o : Ordering) : better g o = o ∨ crossings g (better g o) < crossings g o := by
  by_cases fewer : crossings g (sweepBoth g o) < crossings g o
  · right
    rwa [better, if_pos fewer]
  · exact .inl (if_neg fewer)

theorem crossings_better_le (g : Digraph) (o : Ordering) : crossings g (better g o) ≤ crossings g o := by
  rcases better_cases g o with same | fewer
  · rw [same]
  · exact fewer.le

theorem better_eq_self {g : Digraph} {o : Ordering} (same : crossings g (better g o) = crossings g o) :
    better g o = o :=
  (better_cases g o).resolve_right same.not_lt

/-! ### All sweeps -/

/-- Sweeping while crossings are left and get fewer is taking step after step: after the first one that
    changes nothing, none does. -/
theorem improve_eq_iterate (g : Digraph) (passes : Nat) (o : Ordering) :
    improve g passes o = (better g)^[passes] o := by
  induction passes generalizing o with
  | zero => rfl
  | succ passes ih =>
    have stopped : better g o = o → (better g)^[passes + 1] o = o := fun fixed => Function.iterate_fixed fixed _
    rw [improve]
    split
    · next none => exact (stopped (if_neg (by omega))).symm
    · simp only
      split
      · next fewer => rw [ih, Function.iterate_succ_apply, better, if_pos fewer]
      · next more => exact (stopped (if_neg more)).symm

theorem minimal_add (a : Augmented) (passes more : Nat) :
    minimal a (passes + more) = (better a.graph)^[more] (minimal a passes) := by
  rw [minimal, minimal, improve_eq_iterate, improve_eq_iterate, Nat.add_comm, Function.iterate_add_apply]

theorem minimal_succ (a : Augmented) (passes : Nat) : minimal a (passes + 1) = better a.graph (minimal a passes) :=
  minimal_add a passes 1

theorem crossings_antitone (a : Augmented) : Antitone fun passes => crossings a.graph (minimal a passes) := by
  refine antitone_nat_of_succ_le fun passes => ?_
  rw [minimal_succ]
  exact crossings_better_le a.graph (minimal a passes)

/-- Once a sweep more takes no crossing away, no number of sweeps changes the order any more. -/
theorem minimal_settled {a : Augmented} {passes : Nat}
    (same : crossings a.graph (minimal a (passes + 1)) = crossings a.graph (minimal a passes)) {later : Nat}
    (after : passes ≤ later) : minimal a later = minimal a passes := by
  obtain ⟨more, rfl⟩ := Nat.exists_eq_add_of_le after
  rw [minimal_succ] at same
  rw [minimal_add]
  exact Function.iterate_fixed (better_eq_self same) more

/-! ### The vertices of the ranks -/

/-- Every vertex stands once in the order, on the rank that it has. -/
structure Ranked (a : Augmented) (o : Ordering) : Prop where
  length : o.length = a.rankCount
  ranks : ∀ r (inside : r < o.length), o[r].Perm (a.graph.vertices.filter fun v => rankIn a.ranks v = r)
  vertices : o.flatten.Perm a.graph.vertices

theorem minimal_ranked {a : Augmented} (below : ∀ v < a.graph.size, rankIn a.ranks v < a.rankCount) (passes : Nat) :
    Ranked a (minimal a passes) := by
  have count := minimal_length a passes
  constructor
  case length => exact count
  case ranks =>
    intro r inside
    have inside' : r < (initial a).length := by rwa [← (minimal_perm a passes).length_eq]
    have same : (minimal a passes)[r].Perm (initial a)[r] := (minimal_perm a passes).get inside inside'
    simpa [initial] using same
  case vertices =>
    refine (List.perm_ext_iff_of_nodup (minimal_nodup a passes) List.nodup_range).2 fun v => ⟨?_, ?_⟩
    · intro member
      obtain ⟨rank, there, here⟩ := List.mem_flatten.1 member
      obtain ⟨r, inside, rfl⟩ := List.getElem_of_mem there
      exact List.mem_range.2 ((mem_minimal inside).1 here).1
    · intro vertex
      have inside := List.mem_range.1 vertex
      have present : rankIn a.ranks v < (minimal a passes).length := count ▸ below v inside
      exact List.mem_flatten.2 ⟨_, List.getElem_mem present, (mem_minimal present).2 ⟨inside, rfl⟩⟩

theorem initial_ascending (a : Augmented) : ∀ rank ∈ initial a, rank.Pairwise (· < ·) := by
  intro rank member
  obtain ⟨r, -, rfl⟩ := List.mem_map.1 member
  exact List.pairwise_lt_range.filter _

/-- Whatever the number of sweeps, no vertex is lost. Without a sweep the ranks are in ascending order; more sweeps
    never have more crossings, and when one more has as many, the order stays for good. -/
theorem minimal_improves {a : Augmented} (below : ∀ v < a.graph.size, rankIn a.ranks v < a.rankCount) :
    (∀ passes, Ranked a (minimal a passes)) ∧ (∀ rank ∈ minimal a 0, rank.Pairwise (· < ·)) ∧
      (∀ passes, crossings a.graph (minimal a passes) ≤ crossings a.graph (minimal a 0)) ∧
      (Antitone fun passes => crossings a.graph (minimal a passes)) ∧
      ∀ passes, crossings a.graph (minimal a (passes + 1)) = crossings a.graph (minimal a passes) →
        ∀ later, passes ≤ later → minimal a later = minimal a passes := by
  have fewer := crossings_antitone a
  exact ⟨minimal_ranked below, initial_ascending a, fun passes => fewer (Nat.zero_le passes), fewer,
    fun _ same _ => minimal_settled same⟩

/-- Three ranks with edges that cross from both ends. -/
def weave : Augmented :=
  ⟨⟨8, [(0, 5), (0, 4), (1, 4), (1, 3), (2, 3), (3, 7), (4, 6), (5, 6), (5, 7)]⟩, [0, 0, 0, 1, 1, 1, 2, 2], 3, 8⟩

/-- A sweep leaves one crossing of eight, and it stays. -/
theorem weave_improves :
    (∀ v < weave.graph.size, rankIn weave.ranks v < weave.rankCount) ∧ Ranked weave (minimal weave 1) ∧
      minimal weave 1 = [[0, 1, 2], [4, 5, 3], [6, 7]] ∧ crossings weave.graph (minimal weave 0) = 8 ∧
      crossings weave.graph (minimal weave 1) = 1 ∧
      ∀ later, 1 ≤ later → minimal weave later = minimal weave 1 := by
  have below : ∀ v < weave.graph.size, rankIn weave.ranks v < weave.rankCount := by decide
  obtain ⟨ranked, -, -, -, settled⟩ := minimal_improves below
  have first : crossings weave.graph (minimal weave 1) = 1 := by cbv
  have second : crossings weave.graph (minimal weave 2) = 1 := by cbv
  exact ⟨below, ranked 1, by cbv, by decide +kernel, first, settled 1 (second.trans first.symm)⟩

end Flowchart.Ordering
