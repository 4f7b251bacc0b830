import Flowchart.Proofs.Line.Links
import Flowchart.Proofs.Line.Sites

/-!
Where ids appear on a line: at the two ends of its link, if it has one, and at its declarations. The source of a
link stands in front of everything else (`source_appears_first`), and the target in front of all but the source
(`appears_before_target`). Every declaration stands in front of what is declared behind it (`declared_in_order`).
-/
namespace Flowchart.Line
open Text

/-- An id where it stands on a line. -/
structure Appearance where
  id : Text
  /-- The line from the id on. -/
  onward : Text
  deriving DecidableEq, Repr

def Site.appearance (s : Site) : Appearance := ⟨s.id, s.id ++ s.declaration ++ s.enclosed.rest⟩

theorem Site.Stands.onward_suffix {s : Site} {t : Text} (stands : s.Stands t) : s.appearance.onward <:+ t :=
  stands.place

/-- The two ends of the link that a line starts with. -/
def linkAppearances (t : Text) : List Appearance :=
  match link? t with
  | some l => [⟨l.source, passBlanks t⟩, ⟨l.target, passBlanks (takeConnector (takeEndpoint t).2).2⟩]
  | none => []

/-- The ids of a line where they stand. -/
def appearances (t : Text) : List Appearance := linkAppearances t ++ (sites t).map Site.appearance

/-- The first appearance of one id is in front of all of the other. -/
def AppearsBefore (t a b : Text) : Prop :=
  ∃ x ∈ appearances t, x.id = a ∧ ∀ y ∈ appearances t, y.id = b → y.onward.length < x.onward.length

instance (t a b : Text) : Decidable (AppearsBefore t a b) :=
  inferInstanceAs (Decidable (∃ x ∈ appearances t,
    x.id = a ∧ ∀ y ∈ appearances t, y.id = b → y.onward.length < x.onward.length))

/-! ### The walk to the declarations -/

theorem sites_walk : Walk sites where
  delimited {c} delimits t := by rw [sites, if_pos (by simpa using delimits)]
  inline {c t raw behind} plain labelled := by
    rw [sites, if_neg (by simp [plain])]
    split
    · next found =>
      rw [labelled] at found
      rw [(Prod.mk.inj (Option.some.inj found)).2]
    · next found => rw [labelled] at found; cases found
  cons {c t} plain noLabel noId := by
    rw [sites, if_neg (by simp [plain])]
    split
    · next found => rw [noLabel] at found; cases found
    · rw [if_neg (by simp [noId])]

theorem sites_id {id : Text} (valid : isId id) {t : Text} (stops : Stops t) :
    sites (id ++ t) = ((enclosed? t).map (Site.mk id)).toList ++ sites (takeShape t).2 := by
  obtain ⟨c, r, rfl, idChar, run⟩ := isId_cons valid
  have noPipe : c ≠ '|' := idChar_ne idChar (by decide)
  have noQuote : c ≠ '"' := idChar_ne idChar (by decide)
  have noLabel := inlineLabel?_of_no_dash (idChar_ne idChar (by decide)) (r ++ t)
  rw [List.cons_append, sites, if_neg (by simp [noPipe, noQuote])]
  split
  · next found => rw [noLabel] at found; cases found
  · rw [if_pos idChar, takeWhile_id run stops, dropWhile_id run stops, takeShape]
    split
    · next found => rw [found]; rfl
    · next bare => rw [bare]; rfl

/-- The first declarations are those of an end of a link, if it has brackets. -/
theorem sites_takeEndpoint {t id rest : Text} (taken : takeEndpoint t = (some id, rest)) :
    rest.length < (passBlanks t).length ∧
      ∀ s ∈ sites t, s.appearance = ⟨id, passBlanks t⟩ ∨ s ∈ sites rest := by
  obtain ⟨valid, behind, word, stops, rfl⟩ := takeEndpoint_front taken
  rw [← sites_walk.passBlanks, word, sites_id valid stops]
  constructor
  · obtain ⟨c, r, rfl, -⟩ := isId_cons valid
    have remains := (takeShape_suffix behind).length_le
    simp only [List.cons_append, List.length_cons, List.length_append]
    omega
  · intro s member
    rcases List.mem_append.1 member with here | later
    · left
      obtain ⟨e, found, rfl⟩ := by simpa only [Option.mem_toList, Option.map_eq_some_iff] using here
      rw [(enclosed?_eq_some found).2]
      simp [Site.appearance, Site.declaration]
    · exact .inr later

/-- Declarations stand one behind the other. -/
theorem sites_ordered (t : Text) :
    (sites t).Pairwise fun s later => later.appearance.onward.length < s.appearance.onward.length := by
  fun_induction sites t with
  | case1 => exact .nil
  | case2 _ _ _ ih => exact ih
  | case3 _ _ _ _ _ _ ih => exact ih
  | case4 c r _ _ _ e _ ih =>
    refine List.pairwise_cons.2 ⟨fun later member => ?_, ih⟩
    have behind := (sites_stand e.rest later member).onward_suffix.length_le
    simp only [Site.appearance, List.cons_append, List.length_cons, List.length_append] at behind ⊢
    omega
  | case5 _ _ _ _ _ _ ih => exact ih
  | case6 _ _ _ _ _ ih => exact ih

/-! ### The ends of a link -/

/-- What appears on a line with a link: first its source, then its target, then all else. -/
theorem link_appearances {t : Text} {l : Link} (linked : link? t = some l) :
    ∃ source target : Text, target.length < source.length ∧
      ⟨l.source, source⟩ ∈ appearances t ∧ ⟨l.target, target⟩ ∈ appearances t ∧
      ∀ x ∈ appearances t,
        x = ⟨l.source, source⟩ ∨ x = ⟨l.target, target⟩ ∨ x.onward.length < target.length := by
  obtain ⟨behindSource, behindConnector, first, between, last⟩ := takeLink_eq_some (Prod.ext linked rfl)
  obtain ⟨shorter, atSource⟩ := sites_takeEndpoint first
  obtain ⟨shorter', atTarget⟩ := sites_takeEndpoint last
  have ends : linkAppearances t = [⟨l.source, passBlanks t⟩, ⟨l.target, passBlanks behindConnector⟩] := by
    rw [linkAppearances, linked, first, between]
  have connector : behindConnector.length ≤ behindSource.length := by
    simpa only [between] using (takeConnector_suffix behindSource).length_le
  have blanks := (passBlanks_suffix behindConnector).length_le
  refine ⟨passBlanks t, passBlanks behindConnector, by omega,
    by simp [appearances, ends], by simp [appearances, ends], ?_⟩
  intro x member
  simp only [appearances, ends, List.mem_append, List.mem_cons, List.not_mem_nil, or_false, List.mem_map] at member
  rcases member with (atEnd | atEnd) | ⟨s, found, rfl⟩
  · exact .inl atEnd
  · exact .inr (.inl atEnd)
  · rcases atSource s found with here | behind
    · exact .inl here
    · rw [sites_walk.takeConnector between] at behind
      rcases atTarget s behind with here | later
      · exact .inr (.inl here)
      · have remains := (sites_stand _ s later).onward_suffix.length_le
        exact .inr (.inr (by omega))

section ends

variable {t : Text} {l : Link} (linked : link? t = some l)
include linked

/-- Nothing stands in front of the source. -/
theorem source_appears_first {b : Text} (other : b ≠ l.source) : AppearsBefore t l.source b := by
  obtain ⟨source, target, order, first, -, only⟩ := link_appearances linked
  refine ⟨_, first, rfl, fun y member named => ?_⟩
  rcases only y member with rfl | rfl | behind
  · exact absurd named.symm other
  · exact order
  · exact behind.trans order

theorem not_appearsBefore_source (a : Text) : ¬ AppearsBefore t a l.source := by
  obtain ⟨source, target, order, first, -, only⟩ := link_appearances linked
  rintro ⟨x, member, -, before⟩
  have behind := before _ first rfl
  rcases only x member with rfl | rfl | later
  · exact Nat.lt_irrefl _ behind
  · exact Nat.lt_asymm order behind
  · exact Nat.lt_asymm (later.trans order) behind

/-- Nothing but the source stands in front of the target. -/
theorem appears_before_target {a : Text} (appears : AppearsBefore t a l.target) : a = l.source := by
  obtain ⟨source, target, -, -, second, only⟩ := link_appearances linked
  obtain ⟨x, member, rfl, before⟩ := appears
  have behind := before _ second rfl
  rcases only x member with rfl | rfl | later
  · rfl
  · exact absurd behind (Nat.lt_irrefl _)
  · exact absurd behind (Nat.lt_asymm later)

end ends

/-- In front of the first that is named so, all that is named otherwise stands in front of all that is named so. -/
theorem exists_before_of_takeWhile {α : Type} {R : α → α → Prop} {name : α → Text} {l : List α}
    (ordered : l.Pairwise R) {a b : Text} (front : a ∈ (l.map name).takeWhile (· ≠ b)) :
    ∃ x ∈ l, name x = a ∧ ∀ y ∈ l, name y = b → R x y := by
  induction l with
  | nil => cases front
  | cons x l ih =>
    obtain ⟨first, later⟩ := List.pairwise_cons.1 ordered
    by_cases here : name x = b
    · simp [here] at front
    · rw [List.map_cons, List.takeWhile_cons_of_pos (by simpa using here), List.mem_cons] at front
      rcases front with rfl | behind
      · refine ⟨x, List.mem_cons_self, rfl,
          List.forall_mem_cons.2 ⟨fun same => absurd same here, fun y member _ => first y member⟩⟩
      · obtain ⟨z, member, named, before⟩ := ih later behind
        exact ⟨z, List.mem_cons_of_mem _ member, named, List.forall_mem_cons.2 ⟨fun same => absurd same here, before⟩⟩

/-- What is declared in front of an id that is no end of the link stands in front of it. -/
theorem declared_in_order {t a b : Text} (front : a ∈ ((declarations t).map (·.id)).takeWhile (· ≠ b))
    (noEnd : ∀ l ∈ link? t, b ≠ l.source ∧ b ≠ l.target) : AppearsBefore t a b := by
  have ids : (declarations t).map (·.id) = (sites t).map (·.id) := by
    rw [declarations_eq_sites, List.map_map]
    rfl
  rw [ids] at front
  obtain ⟨s, member, rfl, before⟩ := exists_before_of_takeWhile (sites_ordered t) front
  refine ⟨s.appearance, List.mem_append_right _ (List.mem_map_of_mem member), rfl, fun y appears named => ?_⟩
  rcases List.mem_append.1 appears with atEnd | declared
  · unfold linkAppearances at atEnd
    split at atEnd
    · next l linked =>
      obtain ⟨noSource, noTarget⟩ := noEnd l linked
      simp only [List.mem_cons, List.not_mem_nil, or_false] at atEnd
      rcases atEnd with rfl | rfl
      · exact absurd named.symm noSource
      · exact absurd named.symm noTarget
    · cases atEnd
  · obtain ⟨s', found, rfl⟩ := List.mem_map.1 declared
    exact before s' found named

end Flowchart.Line
