import Flowchart.Proofs.Graph.Operations

/-!
The search for a fresh edge id. It tries the numbers from the count of edges on, one after the other and without a
bound, until the id that is made of a number is free. So it can end at the least free number only (`search_iff`),
and it does end: each number makes an id of its own, and there are not enough edges to take one more id than there
are edges (`freshEdgeId_search`).
-/
namespace Flowchart.Graph

/-- A search that starts at a number, tries so many numbers one after the other, and
    ends at the first that is not taken. -/
inductive Search (taken : Nat → Prop) : (start tries found : Nat) → Prop where
  | free {n : Nat} : ¬ taken n → Search taken n 1 n
  | next {n tries found : Nat} : taken n → Search taken (n + 1) tries found → Search taken n (tries + 1) found

section
variable {taken : Nat → Prop} {start tries found : Nat}

theorem Search.least (search : Search taken start tries found) :
    IsLeast {n | start ≤ n ∧ ¬ taken n} found ∧ tries = found - start + 1 := by
  induction search with
  | free unused => exact ⟨⟨⟨Nat.le_refl _, unused⟩, fun _ other => other.1⟩, by omega⟩
  | @next start tries found used _ ih =>
    obtain ⟨⟨⟨behind, unused⟩, least⟩, count⟩ := ih
    refine ⟨⟨⟨by omega, unused⟩, ?_⟩, by omega⟩
    rintro n ⟨from_start, other⟩
    have later : n ≠ start := by
      rintro rfl
      exact other used
    exact least ⟨by omega, other⟩

theorem search_to_least (least : IsLeast {n | start ≤ n ∧ ¬ taken n} found) :
    Search taken start (found - start + 1) found := by
  obtain ⟨⟨behind, unused⟩, least⟩ := least
  -- The induction is on the numbers that are still in front of the free one: all of them are taken.
  induction distance : found - start generalizing start with
  | zero =>
    obtain rfl : found = start := by omega
    exact .free unused
  | succ distance ih =>
    have used : taken start := by
      by_contra other
      have := least ⟨Nat.le_refl start, other⟩
      omega
    have later : found ∈ lowerBounds {n | start + 1 ≤ n ∧ ¬ taken n} := by
      rintro n ⟨behind, other⟩
      exact least ⟨by omega, other⟩
    exact .next used (ih later (by omega) (by omega))

/-- A search ends at the least number that is free, after all numbers up to it. -/
theorem search_iff :
    Search taken start tries found ↔
      IsLeast {n | start ≤ n ∧ ¬ taken n} found ∧ tries = found - start + 1 := by
  constructor
  · exact Search.least
  · rintro ⟨least, rfl⟩
    exact search_to_least least

end

/-- Whatever ids the edges have, the search for a fresh one ends, after one number more than there are edges at
    most. The id has the least number from the count of edges on with which it is the id of no edge. -/
theorem freshEdgeId_search (edges : List Edge) (source target : Text) :
    ∃ number tries, Search (fun n => edgeId n source target ∈ edges.map (·.id)) edges.length tries number ∧
      tries ≤ edges.length + 1 ∧ freshEdgeId edges source target = edgeId number source target ∧
      IsLeast {n | edges.length ≤ n ∧ edgeId n source target ∉ edges.map (·.id)} number := by
  obtain ⟨number, near, same, least⟩ := freshEdgeId_first edges source target
  rw [List.mem_range'_1] at near
  exact ⟨number, _, search_iff.2 ⟨least, rfl⟩, by omega, same, least⟩

/-- Hand-written ids take the two numbers that come first. -/
example :
    freshEdgeId
      [⟨edgeId 3 ['A'] ['B'], ['A'], ['B'], none, false⟩, ⟨edgeId 2 ['A'] ['B'], ['B'], ['A'], none, false⟩]
      ['A'] ['B'] = edgeId 4 ['A'] ['B'] := by decide +kernel

end Flowchart.Graph
