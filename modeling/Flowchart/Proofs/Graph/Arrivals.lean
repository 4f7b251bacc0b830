import Flowchart.Proofs.Graph.Records
import Flowchart.Proofs.Line.Appearances

/-!
In which order the ids of a line enter the graph. A statement hands its nodes over one by one (`enter_nodes`): a
source that it does not declare, then what it declares, then the ends of its link. What is new enters in this order,
so two ids come in the order in which they appear on the line, unless the later one is an end of the link. Such an
end is late where the line declares it behind something new, or, if it is the target, does not declare it and
declares something new (`enter_in_order`).
-/
namespace Flowchart
open Line

namespace Line

/-- The ids that the statement declares, in their order. -/
def Statement.declaredIds : Statement → List Text
  | .content declarations _ => declarations.map (·.id)
  | _ => []

/-- The nodes that the statement hands over to the graph, in their order. -/
def Statement.arrivals : Statement → List Node
  | .content declarations (some l) =>
    (if declarations.any (·.id = l.source) then [] else [.bare l.source]) ++ declarations ++
      [.bare l.source, .bare l.target]
  | .content declarations none => declarations
  | _ => []

end Line

/-- No end of the link has to wait for a new id that appears behind it. -/
structure Timely (g : Graph) (declared : List Text) (l : Link) : Prop where
  /-- A new source that is declared is the first new id that is declared. -/
  source : l.source ∈ declared → g.hasNode l.source ∨ ∀ id ∈ declared.takeWhile (· ≠ l.source), g.hasNode id
  /-- Nothing new but the source is declared in front of a new target, and nothing at
      all where the target is not declared. -/
  target : g.hasNode l.target ∨ l.target = l.source ∨
    ∀ id ∈ declared.takeWhile (· ≠ l.target), id = l.source ∨ g.hasNode id

namespace Graph

/-! ### Arrivals -/

theorem mem_filter_ids {q : Text → Bool} {ns : List Node} {id : Text} :
    id ∈ (ns.filter fun n => q n.id).map (·.id) ↔ id ∈ ns.map (·.id) ∧ q id := by
  simp only [List.mem_map, List.mem_filter]
  constructor
  · rintro ⟨n, ⟨member, chosen⟩, rfl⟩
    exact ⟨⟨n, member, rfl⟩, chosen⟩
  · rintro ⟨⟨n, member, rfl⟩, chosen⟩
    exact ⟨n, ⟨member, chosen⟩, rfl⟩

theorem mem_takeWhile_cons {a b c : Text} {ids : List Text} :
    a ∈ (c :: ids).takeWhile (· ≠ b) ↔ c ≠ b ∧ (a = c ∨ a ∈ ids.takeWhile (· ≠ b)) := by
  by_cases same : c = b <;> simp [same]

/-- The first of each id stand in order just where nothing stands in front of the
    first place of an id that belongs behind it. -/
theorem firstOfEach_pairwise {R : Text → Text → Prop} (q : Text → Bool) (ns : List Node) :
    (((firstOfEach ns).filter fun n => q n.id).map (·.id)).Pairwise R ↔
      ∀ b ∈ ns.map (·.id), q b → ∀ a ∈ (ns.map (·.id)).takeWhile (· ≠ b), q a → R a b := by
  induction ns generalizing q with
  | nil => simp [firstOfEach]
  | cons n rest ih =>
    -- Behind the first node, what is chosen has other ids than it.
    have later := ih fun id => q id && decide (id ≠ n.id)
    have chosenLater (b : Text) : b ∈ ((firstOfEach rest).filter fun m => q m.id && decide (m.id ≠ n.id)).map (·.id) ↔
        b ∈ rest.map (·.id) ∧ q b ∧ b ≠ n.id := by
      rw [mem_filter_ids (q := fun id => q id && decide (id ≠ n.id)), firstOfEach_ids, Bool.and_eq_true,
        decide_eq_true_eq]
    simp only [Bool.and_eq_true, decide_eq_true_eq] at later
    simp only [List.map_cons, List.forall_mem_cons, mem_takeWhile_cons]
    rw [firstOfEach, List.filter_cons, List.filter_filter]
    split
    · next chosen =>
      rw [List.map_cons, List.pairwise_cons, later]
      constructor
      · rintro ⟨first, others⟩
        refine ⟨fun _ a front => absurd rfl front.1, fun b member isNew a front found => ?_⟩
        obtain ⟨other, place⟩ := front
        have behind := first b ((chosenLater b).2 ⟨member, isNew, other.symm⟩)
        by_cases same : a = n.id
        · exact same ▸ behind
        · exact others b member ⟨isNew, other.symm⟩ a (place.resolve_left same) ⟨found, same⟩
      · rintro ⟨-, all⟩
        constructor
        · intro b found
          obtain ⟨member, isNew, other⟩ := (chosenLater b).1 found
          exact all b member isNew n.id ⟨other.symm, .inl rfl⟩ chosen
        · intro b member isNew a place found
          exact all b member isNew.1 a ⟨isNew.2.symm, .inr place⟩ found.1
    · next passed =>
      have apart {id : Text} (isNew : q id) : id ≠ n.id := by
        rintro rfl
        exact passed isNew
      rw [later]
      constructor
      · intro others
        refine ⟨fun isNew => absurd isNew passed, fun b member isNew a front found => ?_⟩
        exact others b member ⟨isNew, apart isNew⟩ a (front.2.resolve_left (apart found)) ⟨found, apart found⟩
      · rintro ⟨-, all⟩ b member isNew a place found
        exact all b member isNew.1 a ⟨isNew.2.symm, .inr place⟩ found.1

theorem enter_nodes (g : Graph) (s : Statement) :
    (g.enter s).nodes = g.nodes ++ (firstOfEach s.arrivals).filter (·.id ∉ g.nodes.map (·.id)) := by
  rw [← insertNodes_nodes]
  cases s with
  | skip => rfl
  | unparseable => rfl
  | content declarations link =>
    cases link with
    | none => rfl
    | some l =>
      simp only [enter, enterSource, Statement.arrivals, List.foldl_append]
      split <;> rfl

/-! ### Order -/

theorem mem_takeWhile_append {a b : Text} {front rest : List Text} :
    a ∈ (front ++ rest).takeWhile (· ≠ b) ↔
      a ∈ front.takeWhile (· ≠ b) ∨ b ∉ front ∧ a ∈ rest.takeWhile (· ≠ b) := by
  induction front with
  | nil => simp
  | cons c front ih =>
    rw [List.cons_append, mem_takeWhile_cons, mem_takeWhile_cons, ih, List.mem_cons]
    grind

/-- What comes in front of an id apart from the source, where the ends of the link come last. -/
theorem mem_before_ends {declared : List Text} {l : Link} {a b : Text} (arrives : b ∈ declared ++ [l.source, l.target])
    (other : a ≠ l.source) :
    a ∈ (declared ++ [l.source, l.target]).takeWhile (· ≠ b) ↔ a ∈ declared.takeWhile (· ≠ b) := by
  have noneLater (undeclared : b ∉ declared) : a ∉ [l.source, l.target].takeWhile (· ≠ b) := by
    simp only [mem_takeWhile_cons, List.takeWhile_nil, List.not_mem_nil, or_false]
    rintro ⟨noSource, same | ⟨noTarget, -⟩⟩
    · exact other same
    · rcases List.mem_append.1 arrives with declared' | atEnd
      · exact undeclared declared'
      · simp [noSource.symm, noTarget.symm] at atEnd
  rw [mem_takeWhile_append]
  exact or_iff_left fun ⟨undeclared, late⟩ => noneLater undeclared late

theorem arrivals_ids (declarations : List Node) (l : Link) :
    (Statement.content declarations (some l)).arrivals.map (·.id) =
      (if l.source ∈ declarations.map (·.id) then [] else [l.source]) ++
        (declarations.map (·.id) ++ [l.source, l.target]) := by
  have declares : declarations.any (·.id = l.source) = true ↔ l.source ∈ declarations.map (·.id) := by
    simp
  by_cases declared : l.source ∈ declarations.map (·.id)
  · simp only [Statement.arrivals, if_pos (declares.2 declared), if_pos declared]
    simp [Node.bare]
  · simp only [Statement.arrivals, if_neg (mt declares.1 declared), if_neg declared]
    simp [Node.bare]

/-- In front of an id that is handed over come, apart from the source, the ids that are declared in front of it. -/
theorem mem_front_iff {declarations : List Node} {l : Link} {a b : Text}
    (arrives : b ∈ (Statement.content declarations (some l)).arrivals.map (·.id)) (other : a ≠ l.source) :
    a ∈ ((Statement.content declarations (some l)).arrivals.map (·.id)).takeWhile (· ≠ b) ↔
      (b = l.source → l.source ∈ declarations.map (·.id)) ∧ a ∈ (declarations.map (·.id)).takeWhile (· ≠ b) := by
  rw [arrivals_ids] at arrives ⊢
  split
  · next declared =>
    rw [if_pos declared] at arrives
    rw [List.nil_append, mem_before_ends arrives other]
    exact ⟨fun front => ⟨fun _ => declared, front⟩, And.right⟩
  · next undeclared =>
    have atEnds : b ∈ declarations.map (·.id) ++ [l.source, l.target] := by
      rw [if_neg undeclared] at arrives
      rcases List.mem_cons.1 arrives with rfl | later
      · simp
      · exact later
    rw [List.singleton_append, mem_takeWhile_cons, mem_before_ends atEnds other]
    constructor
    · rintro ⟨noSource, same | front⟩
      · exact absurd same other
      · exact ⟨fun same => absurd same.symm noSource, front⟩
    · rintro ⟨sourceDeclared, front⟩
      exact ⟨fun same => undeclared (sourceDeclared same.symm), .inr front⟩

/-- What comes in front of an id that is no end of the link appears in front of it. -/
theorem appearsBefore_or_end {line a b : Text} (arrives : b ∈ (Line.parse line).arrivals.map (·.id))
    (front : a ∈ ((Line.parse line).arrivals.map (·.id)).takeWhile (· ≠ b)) :
    AppearsBefore line.trim a b ∨ ∃ l ∈ (Line.parse line).link, b = l.source ∨ b = l.target := by
  cases stated : Line.parse line with
  | skip => rw [stated] at arrives; cases arrives
  | unparseable => rw [stated] at arrives; cases arrives
  | content declarations link =>
    rw [stated] at arrives front
    obtain ⟨rfl, rfl, -⟩ := parse_eq_content stated
    cases linked : link? line.trim with
    | none =>
      rw [linked] at front
      exact .inl (declared_in_order front (by simp [linked]))
    | some l =>
      rw [linked] at arrives front
      by_cases atEnd : b = l.source ∨ b = l.target
      · exact .inr ⟨l, rfl, atEnd⟩
      · left
        rw [not_or] at atEnd
        by_cases first : a = l.source
        · exact first ▸ source_appears_first linked atEnd.1
        · refine declared_in_order ((mem_front_iff arrives first).1 front).2 fun l' found => ?_
          obtain rfl := Option.some.inj (linked.symm.trans found)
          exact atEnd

/-- New ids are handed over in the order in which they appear on the line. -/
def HandedInOrder (g : Graph) (line : Text) : Prop :=
  ∀ b ∈ (Line.parse line).arrivals.map (·.id), ¬ g.hasNode b →
    ∀ a ∈ ((Line.parse line).arrivals.map (·.id)).takeWhile (· ≠ b), ¬ g.hasNode a → AppearsBefore line.trim a b

theorem ne_of_mem_takeWhile {a b : Text} {ids : List Text} (front : a ∈ ids.takeWhile (· ≠ b)) : a ≠ b := by
  simpa using List.mem_takeWhile_imp front

section ends

variable {g : Graph} {line : Text} {declarations : List Node} {l : Link}
variable (stated : Line.parse line = .content declarations (some l))
include stated

theorem HandedInOrder.timely (ordered : HandedInOrder g line) : Timely g (declarations.map (·.id)) l := by
  have linked : link? line.trim = some l := (parse_eq_content stated).2.1.symm
  rw [HandedInOrder, stated] at ordered
  have endsArrive : ∀ id ∈ [l.source, l.target],
      id ∈ (Statement.content declarations (some l)).arrivals.map (·.id) := by
    intro id atEnd
    rw [arrivals_ids]
    exact List.mem_append_right _ (List.mem_append_right _ atEnd)
  have sourceArrives := endsArrive l.source (by simp)
  have targetArrives := endsArrive l.target (by simp)
  refine ⟨fun declared => ?_, ?_⟩
  · by_cases known : g.hasNode l.source
    · exact .inl known
    · right
      intro id place
      by_contra isNew
      have front := (mem_front_iff sourceArrives (ne_of_mem_takeWhile place)).2 ⟨fun _ => declared, place⟩
      exact not_appearsBefore_source linked id (ordered _ sourceArrives known id front isNew)
  · by_cases known : g.hasNode l.target
    · exact .inl known
    · by_cases same : l.target = l.source
      · exact .inr (.inl same)
      · right; right
        intro id place
        by_contra other
        obtain ⟨first, isNew⟩ := not_or.1 other
        have front := (mem_front_iff targetArrives first).2 ⟨fun source => absurd source same, place⟩
        exact first (appears_before_target linked (ordered _ targetArrives known id front isNew))

theorem Timely.handedInOrder (timely : Timely g (declarations.map (·.id)) l) : HandedInOrder g line := by
  have linked : link? line.trim = some l := (parse_eq_content stated).2.1.symm
  intro b arrives isNew a front isNew'
  rcases appearsBefore_or_end arrives front with before | ⟨l', found, atEnd⟩
  · exact before
  · rw [stated] at arrives front found
    obtain rfl := Option.some.inj found
    by_cases first : a = l.source
    · exact first ▸ source_appears_first linked (first ▸ (ne_of_mem_takeWhile front).symm)
    · -- Apart from the source, only what is declared in front of an end comes in front of it, and that is known.
      obtain ⟨sourceDeclared, place⟩ := (mem_front_iff arrives first).1 front
      by_cases isSource : b = l.source
      · subst isSource
        rcases timely.source (sourceDeclared rfl) with known | allKnown
        · exact absurd known isNew
        · exact absurd (allKnown a place) isNew'
      · obtain rfl := atEnd.resolve_left isSource
        rcases timely.target with known | same | allKnown
        · exact absurd known isNew
        · exact absurd same isSource
        · exact absurd (allKnown a place) (by simp [first, isNew'])

end ends

theorem handedInOrder_iff (g : Graph) (line : Text) :
    HandedInOrder g line ↔ ∀ l ∈ (Line.parse line).link, Timely g (Line.parse line).declaredIds l := by
  cases linked : (Line.parse line).link with
  | none =>
    have noEnd : ∀ l, l ∉ (Line.parse line).link := by simp [linked]
    refine iff_of_true (fun b arrives _ a front _ => ?_) (by simp)
    exact (appearsBefore_or_end arrives front).resolve_right fun ⟨l, found, _⟩ => noEnd l found
  | some l =>
    obtain ⟨declarations, stated⟩ : ∃ declarations, Line.parse line = .content declarations (some l) := by
      cases stated : Line.parse line with
      | skip => rw [stated] at linked; cases linked
      | unparseable => rw [stated] at linked; cases linked
      | content declarations link =>
        rw [stated] at linked
        exact ⟨declarations, congrArg _ linked⟩
    have declared : (Line.parse line).declaredIds = declarations.map (·.id) := by rw [stated]; rfl
    rw [declared]
    simp only [Option.mem_def, Option.some.injEq, forall_eq']
    exact ⟨HandedInOrder.timely stated, Timely.handedInOrder stated⟩

theorem mem_arrivals_iff {s : Statement} {id : Text} : id ∈ s.arrivals.map (·.id) ↔ s.mentions id := by
  cases s with
  | skip => simp [Statement.arrivals, Statement.mentions]
  | unparseable => simp [Statement.arrivals, Statement.mentions]
  | content declarations link =>
    cases link with
    | none => simp [Statement.arrivals, Statement.mentions]
    | some l =>
      have early : id ∈ (if l.source ∈ declarations.map (·.id) then [] else [l.source]) → id = l.source := by
        split <;> simp
      rw [arrivals_ids, List.mem_append, or_iff_right_of_imp fun member => by simp [early member]]
      simp [Statement.mentions, eq_comm (a := id)]

/-- Two new ids of a line enter in the order in which they appear on it, unless the later one is an end of its link;
    and all enter in this order just where the ends of the link are timely. -/
theorem enter_in_order (g : Graph) (line : Text) :
    ∃ added, (g.enter (Line.parse line)).nodes = g.nodes ++ added ∧ (added.map (·.id)).Nodup ∧
      (∀ id, id ∈ added.map (·.id) ↔ (Line.parse line).mentions id ∧ ¬ g.hasNode id) ∧
      ((added.map (·.id)).Pairwise fun a b =>
        AppearsBefore line.trim a b ∨ ∃ l ∈ (Line.parse line).link, b = l.source ∨ b = l.target) ∧
      ((added.map (·.id)).Pairwise (AppearsBefore line.trim) ↔
        ∀ l ∈ (Line.parse line).link, Timely g (Line.parse line).declaredIds l) := by
  let isNew (id : Text) : Bool := decide (id ∉ g.nodes.map (·.id))
  have new_iff {id : Text} : isNew id ↔ ¬ g.hasNode id := by simp [isNew, hasNode_iff]
  have ordered {R : Text → Text → Prop} := firstOfEach_pairwise (R := R) isNew (Line.parse line).arrivals
  simp only [new_iff] at ordered
  refine ⟨_, enter_nodes g (Line.parse line), ?_, fun id => ?_, ?_, ?_⟩
  · exact ordered.2 fun b _ _ a front _ => ne_of_mem_takeWhile front
  · rw [mem_filter_ids (q := isNew), firstOfEach_ids, mem_arrivals_iff, new_iff]
  · exact ordered.2 fun b arrives _ a front _ => appearsBefore_or_end arrives front
  · exact ordered.trans (handedInOrder_iff g line)

/-- The third id is declared, and the one in front of it is only linked. -/
def chained : Text := "A --> B --> C[c]".toList

theorem chained_out_of_order :
    ¬ ∀ (g : Graph) (line : Text) (added : List Node), (g.enter (Line.parse line)).nodes = g.nodes ++ added →
      (added.map (·.id)).Pairwise (AppearsBefore line.trim) := by
  intro inOrder
  have entered : (empty.enter (Line.parse chained)).nodes =
      empty.nodes ++ [.bare ['A'], ⟨['C'], ['c'], .rectangle⟩, .bare ['B']] := by decide +kernel
  have order : [['A'], ['C'], ['B']].Pairwise (AppearsBefore chained.trim) := inOrder empty chained _ entered
  exact absurd order (by decide +kernel)

end Graph
end Flowchart
