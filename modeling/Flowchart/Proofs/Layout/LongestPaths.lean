import Mathlib.Data.List.Chain
import Mathlib.Data.List.Nodup
import Mathlib.Order.Bounds.Basic
import Flowchart.Proofs.Layout.Ranks
import Flowchart.Proofs.Layout.Topological

/-!
Ranks as lengths of longest paths. While a topological order is walked, the ranks of the vertices
walked so far are final: they lie above all their successors, and each rank is zero or one more than that
of a predecessor (`Walked`). After the walk this holds of all vertices (`longestPaths_spec`), and it makes
the rank of a vertex the length of the longest path to it (`isGreatest_path`).
-/
namespace Flowchart

/-! ### One vertex -/

theorem rankIn_modify {ranks : List Nat} {v : Nat} (inside : v < ranks.length) (change : Nat → Nat) (w : Nat) :
    rankIn (ranks.modify v change) w = if w = v then change (rankIn ranks w) else rankIn ranks w := by
  simp only [rankIn, List.getD_eq_getElem?_getD, List.getElem?_modify]
  by_cases same : w = v
  · subst same
    simp [inside]
  · simp [same, Ne.symm same]

/-- Pushing vertices below another one, which is not among them. -/
theorem rankIn_foldl_modify {v : Nat} (targets : List Nat) (other : v ∉ targets) (ranks : List Nat)
    (inside : ∀ s ∈ targets, s < ranks.length) (w : Nat) :
    rankIn (targets.foldl (fun ranks s => ranks.modify s (max · (rankIn ranks v + 1))) ranks) w =
      if w ∈ targets then max (rankIn ranks w) (rankIn ranks v + 1) else rankIn ranks w := by
  induction targets generalizing ranks with
  | nil => simp
  | cons s rest ih =>
    obtain ⟨different, otherRest⟩ : v ≠ s ∧ v ∉ rest := by simpa using other
    have here : s < ranks.length := inside s List.mem_cons_self
    have later : ∀ t ∈ rest, t < (ranks.modify s (max · (rankIn ranks v + 1))).length := by
      intro t member
      rw [List.length_modify]
      exact inside t (List.mem_cons_of_mem _ member)
    rw [List.foldl_cons, ih otherRest _ later]
    simp only [rankIn_modify here, different, if_false, List.mem_cons]
    by_cases first : w = s
    · simp [first]
    · simp [first]

theorem rankIn_pushDown {g : Digraph} (proper : g.Proper) {ranks : List Nat} (sized : ranks.length = g.size) {v : Nat}
    (loopless : ¬ g.Adj v v) (w : Nat) :
    rankIn (pushDown g ranks v) w =
      if w ∈ g.successors v then max (rankIn ranks w) (rankIn ranks v + 1) else rankIn ranks w := by
  refine rankIn_foldl_modify (g.successors v) (fun member => loopless (Digraph.mem_successors.1 member)) ranks ?_ w
  intro s member
  rw [sized]
  exact (proper v s (Digraph.mem_successors.1 member)).2

/-! ### The walk -/

/-- The ranks when the vertices of a list have been walked. -/
structure Walked (g : Digraph) (done ranks : List Nat) : Prop where
  sized : ranks.length = g.size
  below : ∀ u v, g.Adj u v → u ∈ done → rankIn ranks u < rankIn ranks v
  reached : ∀ v, rankIn ranks v = 0 ∨ ∃ u ∈ done, g.Adj u v ∧ rankIn ranks v = rankIn ranks u + 1

theorem walked_nil (g : Digraph) : Walked g [] (List.replicate g.size 0) := by
  refine ⟨List.length_replicate, by simp, fun v => .inl ?_⟩
  rw [rankIn, List.getD_eq_getElem?_getD, List.getElem?_replicate]
  split <;> rfl

/-- Walking one more vertex: no vertex walked so far is among its successors, so their ranks stay. -/
theorem Walked.step {g : Digraph} (proper : g.Proper) {done rest ranks : List Nat} {v : Nat}
    (topological : g.IsTopological (done ++ v :: rest)) (walked : Walked g done ranks) :
    Walked g (done ++ [v]) (pushDown g ranks v) := by
  have loopless : ¬ g.Adj v v := topological.not_adj_of_before (.inr rfl)
  have pushed := rankIn_pushDown proper walked.sized loopless
  have stays : ∀ u, u ∈ done ∨ u = v → rankIn (pushDown g ranks v) u = rankIn ranks u := by
    intro u before
    rw [pushed, if_neg]
    exact fun member => topological.not_adj_of_before before (Digraph.mem_successors.1 member)
  have grows : ∀ u, rankIn ranks u ≤ rankIn (pushDown g ranks v) u := by
    intro u
    rw [pushed]
    split <;> omega
  have walkedNow : ∀ {u}, u ∈ done ++ [v] ↔ u ∈ done ∨ u = v := by simp
  refine ⟨by rw [pushDown_length, walked.sized], ?_, ?_⟩
  · intro u w edge member
    rcases walkedNow.1 member with before | rfl
    · rw [stays u (.inl before)]
      exact (walked.below u w edge before).trans_le (grows w)
    · rw [stays u (.inr rfl), pushed, if_pos (Digraph.mem_successors.2 edge)]
      omega
  · intro w
    -- The rank of a vertex is the old one, or it comes from the vertex that is walked.
    have cases : rankIn (pushDown g ranks v) w = rankIn ranks w ∨
        g.Adj v w ∧ rankIn (pushDown g ranks v) w = rankIn ranks v + 1 := by
      rw [pushed]
      split
      · next member =>
        have edge := Digraph.mem_successors.1 member
        rcases Nat.le_total (rankIn ranks v + 1) (rankIn ranks w) with high | low
        · exact .inl (Nat.max_eq_left high)
        · exact .inr ⟨edge, Nat.max_eq_right low⟩
      · exact .inl rfl
    rcases cases with same | ⟨edge, raised⟩
    · rcases walked.reached w with zero | ⟨u, before, edge, next⟩
      · exact .inl (same.trans zero)
      · exact .inr ⟨u, walkedNow.2 (.inl before), edge, by rw [same, next, stays u (.inl before)]⟩
    · exact .inr ⟨v, walkedNow.2 (.inr rfl), edge, by rw [raised, stays v (.inr rfl)]⟩

theorem Walked.run {g : Digraph} (proper : g.Proper) {done rest ranks : List Nat}
    (topological : g.IsTopological (done ++ rest)) (walked : Walked g done ranks) :
    Walked g (done ++ rest) (rest.foldl (pushDown g) ranks) := by
  induction rest generalizing done ranks with
  | nil => simpa using walked
  | cons v rest ih =>
    have split : done ++ v :: rest = done ++ [v] ++ rest := by simp
    have step := walked.step proper topological
    rw [split] at topological ⊢
    exact ih topological step

/-- Ranks along a topological order: every edge leads to a higher rank, and from every vertex that
    is not on the first rank an edge leads back to the rank before. -/
theorem longestPaths_spec {g : Digraph} (proper : g.Proper) {order : List Nat} (topological : g.IsTopological order) :
    (∀ u v, g.Adj u v → rankIn (longestPaths g order) u < rankIn (longestPaths g order) v) ∧
      ∀ v, rankIn (longestPaths g order) v = 0 ∨
        ∃ u, g.Adj u v ∧ rankIn (longestPaths g order) v = rankIn (longestPaths g order) u + 1 := by
  have whole : g.IsTopological ([] ++ order) := topological
  have walked : Walked g order (longestPaths g order) := (walked_nil g).run proper whole
  refine ⟨fun u v edge => walked.below u v edge (topological.mem_iff.2 (proper u v edge).1), fun v => ?_⟩
  exact (walked.reached v).imp_right fun ⟨u, _, edge, next⟩ => ⟨u, edge, next⟩

/-! ### Longest paths -/

/-- A path of a relation, without a repetition, that ends at a point after so many steps. -/
def PathTo {β : Type} (R : β → β → Prop) (b : β) (steps : Nat) : Prop :=
  ∃ path : List β, path.IsChain R ∧ path.Nodup ∧ path.getLast? = some b ∧ path.length = steps + 1

variable {β : Type} {R : β → β → Prop} {rank : β → Nat}

theorem chain_length_le (down : ∀ a b, R a b → rank a < rank b) {before : List β} {b : β}
    (chain : (before ++ [b]).IsChain R) : before.length ≤ rank b := by
  induction before using List.reverseRecOn generalizing b with
  | nil => exact Nat.zero_le _
  | append_singleton before a ih =>
    obtain ⟨first, -, step⟩ := List.isChain_append.1 chain
    have edge : R a b := step a (by simp) b (by simp)
    have shorter := ih first
    have less := down a b edge
    rw [List.length_append, List.length_singleton]
    omega

/-- Each point that is present has rank zero, or a step from a point of the rank before leads to it. -/
def Reached (R : β → β → Prop) (rank : β → Nat) (present : β → Prop) : Prop :=
  ∀ b, present b → rank b = 0 ∨ ∃ a, present a ∧ R a b ∧ rank b = rank a + 1

variable {present : β → Prop} (reached : Reached R rank present)
include reached

/-- A path that starts on rank zero and rises by one rank with every step. -/
theorem exists_chain (n : Nat) :
    ∀ b, present b → rank b = n → ∃ before : List β, (before ++ [b]).IsChain R ∧ (before ++ [b]).Nodup ∧
      before.length = n ∧ ∀ a ∈ before, rank a < n := by
  induction n with
  | zero => exact fun b _ _ => ⟨[], by simp⟩
  | succ n ih =>
    intro b here height
    obtain ⟨a, there, edge, next⟩ := (reached b here).resolve_left (by omega)
    obtain ⟨before, chain, distinct, length, lower⟩ := ih a there (by omega)
    have lowerAll : ∀ c ∈ before ++ [a], rank c < n + 1 := by
      intro c member
      rcases List.mem_append.1 member with front | last
      · have := lower c front
        omega
      · rw [List.mem_singleton.1 last]
        omega
    refine ⟨before ++ [a], ?_, ?_, by simp [length], lowerAll⟩
    · refine List.isChain_append.2 ⟨chain, List.isChain_singleton b, fun c last d first => ?_⟩
      obtain rfl : a = c := by simpa using last
      obtain rfl : b = d := by simpa using first
      exact edge
    · refine List.nodup_append'.2 ⟨distinct, List.nodup_singleton b, ?_⟩
      intro c member single
      have := lowerAll c member
      rw [List.mem_singleton.1 single] at this
      omega

/-- A rank that every step raises, and that is reached step by step, is the length of the longest
    path. -/
theorem isGreatest_path (down : ∀ a b, R a b → rank a < rank b) {b : β} (here : present b) :
    IsGreatest {n | PathTo R b n} (rank b) := by
  constructor
  · obtain ⟨before, chain, distinct, length, -⟩ := exists_chain reached (rank b) b here rfl
    exact ⟨before ++ [b], chain, distinct, by simp, by simp [length]⟩
  · rintro n ⟨path, chain, -, last, length⟩
    obtain ⟨before, rfl⟩ := List.getLast?_eq_some_iff.1 last
    have bound := chain_length_le down chain
    rw [List.length_append, List.length_singleton] at length
    omega

/-- All ranks below one that is in use are in use. -/
theorem exists_rank_eq {r n : Nat} (lower : r ≤ n) {b : β} (here : present b) (height : rank b = n) :
    ∃ a, present a ∧ rank a = r := by
  induction n generalizing b with
  | zero => exact ⟨b, here, by omega⟩
  | succ n ih =>
    by_cases same : r = n + 1
    · exact ⟨b, here, by omega⟩
    · obtain ⟨a, there, -, next⟩ := (reached b here).resolve_left (by omega)
      exact ih (by omega) there (by omega)

omit reached

/-! ### Ranks in use -/

theorem foldl_max_mem {ranks : List Nat} (filled : ranks ≠ []) : ranks.foldl max 0 ∈ ranks := by
  suffices ∀ (rest : List Nat) (start : Nat), rest.foldl max start = start ∨ rest.foldl max start ∈ rest by
    obtain ⟨r, rest, rfl⟩ := List.exists_cons_of_ne_nil filled
    rw [List.foldl_cons, Nat.zero_max]
    exact List.mem_cons.2 (this rest r)
  intro rest
  induction rest with
  | nil => exact fun _ => .inl rfl
  | cons r rest ih =>
    intro start
    rw [List.foldl_cons, List.mem_cons]
    rcases ih (max start r) with same | later
    · rcases Nat.le_total start r with less | more
      · exact .inr (.inl (same.trans (Nat.max_eq_right less)))
      · exact .inl (same.trans (Nat.max_eq_left more))
    · exact .inr (.inr later)

theorem mem_ranks {ranks : List Nat} {r : Nat} : r ∈ ranks ↔ ∃ v < ranks.length, rankIn ranks v = r := by
  rw [List.mem_iff_getElem]
  constructor
  · rintro ⟨v, inside, rfl⟩
    exact ⟨v, inside, by simp [rankIn, inside]⟩
  · rintro ⟨v, inside, rfl⟩
    exact ⟨v, inside, by simp [rankIn, inside]⟩

/-- No rank is empty. -/
theorem mem_longestPaths {g : Digraph} (proper : g.Proper) {order : List Nat} (topological : g.IsTopological order)
    {r : Nat} : r ∈ longestPaths g order ↔ g.size ≠ 0 ∧ r < rankCount (longestPaths g order) := by
  have sized := longestPaths_length g order
  constructor
  · intro member
    refine ⟨fun empty => ?_, lt_rankCount member⟩
    rw [empty, List.length_eq_zero_iff] at sized
    rw [sized] at member
    cases member
  · rintro ⟨filled, lower⟩
    have some : longestPaths g order ≠ [] := by
      intro empty
      rw [empty] at sized
      exact filled sized.symm
    obtain ⟨top, inside, height⟩ := mem_ranks.1 (foldl_max_mem some)
    have stepwise : Reached g.Adj (rankIn (longestPaths g order)) (· < g.size) := by
      intro v _
      refine ((longestPaths_spec proper topological).2 v).imp_right fun ⟨u, edge, next⟩ => ?_
      exact ⟨u, (proper u v edge).1, edge, next⟩
    rw [sized] at inside
    obtain ⟨v, vertex, rank⟩ := exists_rank_eq stepwise (Nat.le_of_lt_succ lower) inside height
    exact mem_ranks.2 ⟨v, vertex.trans_eq sized.symm, rank⟩

end Flowchart
