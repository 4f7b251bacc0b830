import Flowchart.Proofs.Graph.Labels
import Flowchart.Proofs.Writer.Repaired

/-!
Writing what was read of a written graph. Written labels are written as they are, and the orphans come back in their
order, so the text is the same the second time (`toText_readBack`). If the text is repaired before it is read, it is
the same where no written label has two spaces side by side; and a label of a repaired text is written with two only
where a carriage return stands in it, since that becomes a space (`toText_repair_fixed`).
-/
namespace Flowchart
open Text Line

namespace Writer
open Repair

/-! ### Written labels -/

theorem labelChar_eq_self {c : Char} (apart : c ∉ labelMarks) : labelChar c = c := by
  unfold labelChar
  split <;> simp_all [labelMarks]

theorem linkChar_eq_self {c : Char} (apart : c ∉ linkMarks) : linkChar c = c := by
  unfold linkChar
  split <;> simp_all [linkMarks]

theorem trim_map_again {f : Char → Char} (keeps : ∀ c, isWhite (f c) = isWhite c) (again : ∀ c, f (f c) = f c)
    (t : Text) : (trim (t.trim.map f)).map f = t.trim.map f := by
  have same : f ∘ f = f := funext again
  rw [trim_map_trim keeps, List.map_map, same]

theorem labelText_labelText (label : Text) : labelText (labelText label) = labelText label :=
  trim_map_again labelChar_white (fun c => labelChar_eq_self fun gone => labelChar_apart gone c rfl) label

theorem linkText_linkText (label : Text) : linkText (linkText label) = linkText label :=
  trim_map_again linkChar_white (fun c => linkChar_eq_self fun gone => linkChar_apart gone c rfl) label

theorem fullForm_written (n : Node) : fullForm (written n) = fullForm n := by
  simp [fullForm, bracketed, written, labelText_labelText]

theorem lineStart_written (names : List Text) (n : Node) : lineStart names (written n) = lineStart names n := by
  simp only [lineStart, firstOrId, fullForm_written]
  rfl

theorem firstOrId_written (names : List Text) (n : Node) : firstOrId names (written n) = firstOrId names n := by
  simp only [firstOrId, fullForm_written]
  rfl

theorem connector_readBack {e f : Edge} (same : f.content = writtenContent e) : connector f = connector e := by
  obtain ⟨-, -, label, animated⟩ : f.source = e.source ∧ f.target = e.target ∧ f.label = writtenLabel e ∧
      f.animated = e.animated := by simpa [Edge.content, writtenContent] using same
  have again : writtenLabel f = writtenLabel e := by
    rw [writtenLabel, label]
    cases found : writtenLabel e with
    | none => rfl
    | some text =>
      obtain ⟨mapped, filled⟩ := Option.filter_eq_some_iff.1 found
      obtain ⟨raw, -, rfl⟩ := Option.map_eq_some_iff.1 mapped
      rw [Option.map_some, linkText_linkText, Option.filter_some, if_pos filled]
  rw [connector_eq, connector_eq, again, animated]

/-! ### Written graphs -/

variable {g h : Graph}

theorem node?_readBack (good : g.WellFormed) (back : ReadBack g h) (id : Text) :
    h.node? id = (g.node? id).map written := by
  have ids : (h.nodes.map (·.id)).Perm (g.nodes.map (·.id)) := by
    have same := back.nodes.map (·.id)
    rwa [List.map_map] at same
  ext n
  rw [Graph.node?_eq_some (ids.nodup_iff.2 good.nodes_nodup), back.nodes.mem_iff, Option.map_eq_some_iff]
  constructor
  · rintro ⟨member, rfl⟩
    obtain ⟨m, inside, rfl⟩ := List.mem_map.1 member
    exact ⟨m, (Graph.node?_eq_some good.nodes_nodup).2 ⟨inside, rfl⟩, rfl⟩
  · rintro ⟨m, found, rfl⟩
    have sameId : m.id = id := Graph.node?_id found
    exact ⟨List.mem_map_of_mem (Graph.node?_mem found), sameId⟩

/-- The lines of edges that are read back are the lines that were read. -/
theorem edgeLines_readBack (lookup : ∀ id, h.node? id = (g.node? id).map written) {es fs : List Edge}
    (same : fs.map Edge.content = es.map writtenContent) (names : List Text) :
    edgeLines h names fs = edgeLines g names es := by
  induction es generalizing fs names with
  | nil =>
    obtain rfl : fs = [] := by simpa using same
    rfl
  | cons e es ih =>
    obtain ⟨f, fs, rfl, here, later⟩ := List.map_eq_cons_iff.1 same
    have ends : f.source = e.source ∧ f.target = e.target := by
      simp only [Edge.content, writtenContent, Prod.mk.injEq] at here
      exact ⟨here.1, here.2.1⟩
    simp only [edgeLines, ends, lookup]
    cases g.node? e.source with
    | none => exact ih later names
    | some source =>
      cases g.node? e.target with
      | none => exact ih later names
      | some target =>
        have line : edgeLine names (written source) (written target) f = edgeLine names source target e := by
          simp only [edgeLine, lineStart_written, firstOrId_written, connector_readBack here]
          rfl
        simp only [Option.map_some, line]
        rw [ih later]
        rfl

theorem isOrphan_readBack (back : ReadBack g h) (id : Text) : h.isOrphan id = g.isOrphan id := by
  let touched (c : Text × Text × Option Text × Bool) : Bool := c.1 = id || c.2.1 = id
  have read : h.edges.any (·.touches id) = (h.edges.map Edge.content).any touched := by rw [List.any_map]; rfl
  have stated : g.edges.any (·.touches id) = (g.edges.map writtenContent).any touched := by rw [List.any_map]; rfl
  rw [Graph.isOrphan, Graph.isOrphan, read, stated, back.edges]

/-- Orphans are read back in their order. -/
theorem orphans_readBack (good : g.WellFormed) :
    ((Graph.ofStatements (statements g.toText)).nodes.filter fun n => g.isOrphan n.id) =
      (g.nodes.filter fun n => g.isOrphan n.id).map written := by
  obtain ⟨h, touched, echo, named, result⟩ := exists_echo good defaultHeader_silent
  let orphans := g.nodes.filter fun n => g.isOrphan n.id
  have apart : ∀ id, h.hasNode id → g.isOrphan id = false := by
    intro id present
    obtain ⟨e, member, touches⟩ := (named id).1 ((echo.names id).1 present)
    simpa [Graph.isOrphan] using ⟨e, member, touches⟩
  have fresh : ∀ n ∈ orphans.map written, ¬ h.hasNode n.id := by
    intro n member present
    obtain ⟨m, inside, rfl⟩ := List.mem_map.1 member
    have orphan := (List.mem_filter.1 inside).2
    rw [apart m.id present] at orphan
    cases orphan
  have distinct : ((orphans.map written).map (·.id)).Nodup := by
    rw [List.map_map]
    exact good.nodes_nodup.sublist (List.filter_sublist.map _)
  have nodes : (Graph.ofStatements (statements g.toText)).nodes = h.nodes ++ orphans.map written := by
    rw [Graph.toText, result, orphanLines, enter_nodeLines good (List.filter_subset_self _),
      Graph.insertNodes_fresh distinct fresh]
  have before : (h.nodes.filter fun n => g.isOrphan n.id) = [] := by
    refine List.filter_eq_nil_iff.2 fun n member => ?_
    simp [apart n.id (Graph.hasNode_iff_exists.2 ⟨n, member, rfl⟩)]
  have behind : ((orphans.map written).filter fun n => g.isOrphan n.id) = orphans.map written := by
    refine List.filter_eq_self.2 fun n member => ?_
    obtain ⟨m, inside, rfl⟩ := List.mem_map.1 member
    exact (List.mem_filter.1 inside).2
  rw [nodes, List.filter_append, before, behind]
  rfl

/-- What is read of a written graph is written as the same text. -/
theorem toText_readBack (good : g.WellFormed) (read : parse g.toText = .ok h) : h.toText = g.toText := by
  obtain ⟨-, rfl, -⟩ := Graph.parse_eq_ok.1 read
  have back : ReadBack g (Graph.ofStatements (statements g.toText)) :=
    ofStatements_toTextUnder good defaultHeader_silent
  have orphans : orphanLines (Graph.ofStatements (statements g.toText)) = orphanLines g := by
    simp only [orphanLines, isOrphan_readBack back, orphans_readBack good, List.flatMap_map, fullForm_written]
  have edges := edgeLines_readBack (node?_readBack good back) back.edges []
  conv => lhs; rw [Graph.toText, Graph.toTextUnder, edges, orphans]
  rfl

/-! ### Spaces in written labels -/

/-- The text is one line without a carriage return, and without two blanks side by side. -/
structure Spaced (t : Text) : Prop where
  single : collapseBlanks t = t
  oneLine : '\n' ∉ t
  returnless : '\r' ∉ t

theorem spaced_part {s t : Text} (spaced : Spaced t) (inside : s <:+: t) : Spaced s := by
  refine ⟨?_, fun member => spaced.oneLine (inside.subset member),
    fun member => spaced.returnless (inside.subset member)⟩
  rw [collapseBlanks_eq_self]
  exact fun a b first second found => collapseBlanks_eq_self.1 spaced.single a b first second (found.trans inside)

theorem labelChar_space {c : Char} (space : labelChar c = ' ') : c = ' ' ∨ c ∈ ['\n', '\r', '\t'] := by
  unfold labelChar at space
  split at space <;> simp_all

theorem linkChar_space {c : Char} (space : linkChar c = ' ') : c = ' ' ∨ c ∈ ['\n', '\r', '\t'] := by
  unfold linkChar at space
  split at space <;> simp_all

/-- Where only white characters become spaces, blanks that stand alone do so still. -/
theorem single_map {f : Char → Char} (space : ∀ {c}, f c = ' ' → c = ' ' ∨ c ∈ ['\n', '\r', '\t']) {t : Text}
    (spaced : Spaced t) : ¬ [' ', ' '] <:+: t.map f := by
  intro found
  obtain ⟨pair, inside, same⟩ := List.infix_map_iff.1 found
  obtain ⟨a, b, rfl⟩ : ∃ a b, pair = [a, b] := by
    obtain ⟨a, rest, rfl, -, last⟩ := List.map_eq_cons_iff.1 same.symm
    obtain ⟨b, rest, rfl, -, empty⟩ := List.map_eq_cons_iff.1 last
    exact ⟨a, b, by simpa using empty⟩
  have blank : ∀ c ∈ [a, b], f c = ' ' → isBlank c := by
    intro c member became
    have newline : c ≠ '\n' := fun same => spaced.oneLine (same ▸ inside.subset member)
    have return' : c ≠ '\r' := fun same => spaced.returnless (same ▸ inside.subset member)
    simpa [isBlank, newline, return'] using space became
  simp only [List.map_cons, List.map_nil, List.cons.injEq] at same
  exact collapseBlanks_ne (blank a (by simp) same.1.symm) (blank b (by simp) same.2.1.symm) inside spaced.single

theorem labelChar_tick {c : Char} (tick : labelChar c = '\x60') : c = '\x60' := by
  unfold labelChar at tick
  split at tick <;> simp_all

theorem linkChar_tick {c : Char} (tick : linkChar c = '\x60') : c = '\x60' := by
  unfold linkChar at tick
  split at tick <;> simp_all

theorem fence_of_map {f : Char → Char} (tick : ∀ {c}, f c = '\x60' → c = '\x60') {t : Text}
    (found : fence <:+: t.map f) : fence <:+: t := by
  obtain ⟨ticks, inside, same⟩ := List.infix_map_iff.1 found
  have kept : ticks = fence := by
    have each : ∀ c ∈ ticks, c = '\x60' := by
      intro c member
      have became : f c ∈ fence := same ▸ List.mem_map_of_mem member
      exact tick (by simpa [fence] using became)
    have three : ticks.length = 3 := by simpa [fence] using (congrArg List.length same).symm
    rw [List.eq_replicate_iff.2 ⟨three, each⟩]
    rfl
  rwa [kept] at inside

theorem eachWritten_of_shows {P Q : Text → Prop} {g : Graph} (labels : g.Shows Q) (node : ∀ t, Q t → P (labelText t))
    (link : ∀ t, Q t → P (linkText t)) : g.EachWritten P :=
  ⟨fun n member => node _ (labels.nodes n member),
    fun e member label inside => link _ (labels.edges e member label inside)⟩

theorem single_of_spaced {g : Graph} (labels : g.Shows Spaced) : g.EachWritten (¬ [' ', ' '] <:+: ·) := by
  refine eachWritten_of_shows labels ?_ ?_
  · exact fun t spaced => single_map labelChar_space (spaced_part spaced (trim_isInfix t))
  · exact fun t spaced => single_map linkChar_space (spaced_part spaced (trim_isInfix t))

/-! ### Labels of repaired texts -/

theorem fenceless_of_repaired {t : Text} {g : Graph} (read : parse (repair t) = .ok g) :
    g.EachWritten (¬ fence <:+: ·) := by
  have clean : ¬ fence <:+: repair t := by
    intro found
    have shorter := dropFences_length found
    rw [(repair_repaired t).fences] at shorter
    exact Nat.lt_irrefl _ shorter
  have whole : ∀ label, (∃ row ∈ rows (repair t), label <:+: row) → ¬ fence <:+: trim label := by
    rintro label ⟨row, member, inside⟩ found
    exact clean ((infix_rows (by decide) _).2 ⟨row, member, found.trans ((trim_isInfix label).trans inside)⟩)
  refine eachWritten_of_shows (Graph.parse_shows read) ?_ ?_
  · exact fun label row found => whole label row (fence_of_map labelChar_tick found)
  · exact fun label row found => whole label row (fence_of_map linkChar_tick found)

theorem spaced_of_repaired {t : Text} {g : Graph} (read : parse (repair t) = .ok g) (returnless : '\r' ∉ repair t) :
    g.Shows Spaced := by
  have spaced : ∀ label, (∃ row ∈ rows (repair t), label <:+: row) → Spaced label := by
    rintro label ⟨row, member, inside⟩
    refine spaced_part ⟨collapse_row (repair_repaired t).blanks member, newline_not_mem_rows member, ?_⟩ inside
    exact fun found => returnless (mem_of_mem_rows member found).1
  have labels := Graph.parse_shows read
  exact ⟨fun n member => spaced _ (labels.nodes n member),
    fun e member l inside => spaced _ (labels.edges e member l inside)⟩

theorem spaced_collapse {t : Text} (oneLine : '\n' ∉ t) (returnless : '\r' ∉ t) : Spaced (collapseBlanks t) := by
  refine ⟨collapse_idem t, fun member => ?_, fun member => ?_⟩
  · exact oneLine ((mem_collapse_iff (by decide)).1 member)
  · exact returnless ((mem_collapse_iff (by decide)).1 member)

theorem spaced_collapsed {g h : Graph} (back : ReadBack g h) : h.collapsed.Shows Spaced := by
  refine ⟨fun n member => ?_, fun e member label found => ?_⟩
  · obtain ⟨m, inside, rfl⟩ := List.mem_map.1 member
    obtain ⟨k, -, rfl⟩ := List.mem_map.1 (back.nodes.mem_iff.1 inside)
    exact spaced_collapse (labelText_apart (by decide) k.label) (labelText_apart (by decide) k.label)
  · obtain ⟨f, inside, rfl⟩ := List.mem_map.1 member
    obtain ⟨k, -, same⟩ := List.mem_map.1 (back.edges ▸ List.mem_map_of_mem inside)
    obtain ⟨text, stated, rfl⟩ := Option.map_eq_some_iff.1 found
    have label : writtenLabel k = some text := by
      simp only [writtenContent, Edge.content, Prod.mk.injEq] at same
      rw [same.2.2.1, stated]
    obtain ⟨-, -, clean⟩ := writtenLabel_eq_some label
    exact spaced_collapse (clean '\n' (by decide)) (clean '\r' (by decide))

end Writer

open Repair Writer

namespace Graph

/-- A written graph is read as one that is written as the same text. -/
theorem toText_parse_toText {g : Graph} (reachable : Reachable g) (filled : g.nodes ≠ []) :
    ∃ h, Flowchart.parse g.toText = .ok h ∧ h.toText = g.toText := by
  obtain ⟨h, read, -⟩ := parse_toText reachable.wellFormed filled
  exact ⟨h, read, toText_readBack reachable.wellFormed read⟩

/-- A graph whose nodes come back in another order: orphans stand between its other nodes, and a node with the id of a
    directive starts two of its lines. -/
def shuffled : Graph :=
  ⟨[⟨['Q'], "lone [x]".toList, .hexagon⟩, ⟨['B'], [], .circle⟩, ⟨"class".toList, " a\tb ".toList, .rectangle⟩,
     ⟨['P'], "\"q\" / r".toList, .parallelogram⟩],
    [⟨['x'], "class".toList, ['B'], some "a|b".toList, true⟩,
      ⟨['y'], "class".toList, "class".toList, some " ".toList, false⟩]⟩

theorem shuffled_toText :
    Reachable shuffled ∧
      shuffled.toText.lines =
        ["flowchart TD".toList,
         "    class[a b] -.->|a/b| B(())".toList,
         "    class[a b] --> class".toList,
         "    Q\x7b\x7b\"lone (x)\"\x7d\x7d".toList,
         "    P[/\"'q' / r\"/]".toList] ∧
      ∃ h, Flowchart.parse shuffled.toText = .ok h ∧ h.toText = shuffled.toText := by
  have made : ofParts shuffled.nodes shuffled.edges = .ok shuffled := by decide +kernel
  have reachable : Reachable shuffled := .built (.parts made)
  exact ⟨reachable, by decide +kernel, toText_parse_toText reachable (by decide)⟩

end Graph

/-- The graph of a repaired text is written as a text that can be repaired and read
    again. It is then written as the same text just when no written label has two
    spaces side by side, which holds when the repaired text has no carriage return. -/
theorem toText_repair_fixed {t : Text} {g : Graph} (read : parse (repair t) = .ok g) :
    ∃ h, parse (repair g.toText) = .ok h ∧ (h.toText = g.toText ↔ g.EachWritten (¬ [' ', ' '] <:+: ·)) ∧
      ('\r' ∉ repair t → h.toText = g.toText) := by
  have good := Graph.parse_wellFormed read
  obtain ⟨-, -, filled⟩ := Graph.parse_eq_ok.1 read
  obtain ⟨k, plain, back⟩ := parse_toText good filled
  have again := parse_of_kept (kept_repair_toText good (fenceless_of_repaired read)) (repair_repaired _).blanks plain
  have same : k.collapsed.toText = g.toText ↔ g.EachWritten (¬ [' ', ' '] <:+: ·) := by
    constructor
    · intro fixed
      -- Read back from the same text, `k` has the labels of its collapsed form, and these are written with
      -- single spaces.
      obtain ⟨k', plain', back'⟩ := parse_toText (Graph.parse_wellFormed again) (Graph.parse_eq_ok.1 again).2.2
      rw [fixed, plain] at plain'
      obtain rfl := Except.ok.inj plain'
      exact (readBack_collapsed back).1 ((readBack_collapsed back').2 (single_of_spaced (spaced_collapsed back)))
    · intro single
      rw [(readBack_collapsed back).2 single, toText_readBack good plain]
  exact ⟨k.collapsed, again, same, fun returnless => same.2 (single_of_spaced (spaced_of_repaired read returnless))⟩

/-- A text with an aside, tabs, runs of blanks, a leftover token and carriage returns in front of newlines. -/
def untidy : Text :=
  "graph LR\r\nA[Load (raw) new\tdata]   TOP\r\n  A --  go | on --> B((x  \"y\"))\n%% note\nC\x7b?\x7d".toList

/-- The graph that is read of that text when it is repaired. -/
def tidied : Graph :=
  ⟨[⟨['A'], "Load new\tdata - raw".toList, .rectangle⟩, ⟨['B'], "x \"y\"".toList, .circle⟩,
      ⟨['C'], ['?'], .diamond⟩],
    [⟨edgeId 0 ['A'] ['B'], ['A'], ['B'], some "go | on".toList, false⟩]⟩

theorem untidy_repair_fixed :
    parse (repair untidy) = .ok tidied ∧ '\r' ∉ repair untidy ∧
      tidied.toText = "flowchart TD\n    A[Load new data - raw] -->|go / on| B((x 'y'))\n    C\x7b?\x7d\n".toList ∧
      ∃ h, parse (repair tidied.toText) = .ok h ∧ h.toText = tidied.toText := by
  have repaired : repair untidy =
      "graph LR\nA[Load new\tdata - raw]\n A -- go | on --> B((x \"y\"))\n%% note\nC\x7b?\x7d".toList := by
    decide +kernel
  have read : parse (repair untidy) = .ok tidied := by
    rw [repaired]
    decide +kernel
  have returnless : '\r' ∉ repair untidy := by
    rw [repaired]
    decide +kernel
  obtain ⟨h, again, -, fixed⟩ := toText_repair_fixed read
  exact ⟨read, returnless, by decide +kernel, h, again, fixed returnless⟩

/-- A carriage return that stands behind a space in a label. -/
def loneReturn : Text := "A[x \ry]".toList

/-- Not every graph of a repaired text is written as the same text after that text is repaired and read: a carriage
    return is written as a space, and the run of blanks that it then belongs to is collapsed. -/
theorem loneReturn_not_fixed :
    ¬ ∀ t g, parse (repair t) = .ok g → ∃ h, parse (repair g.toText) = .ok h ∧ h.toText = g.toText := by
  intro all
  let read : Graph := ⟨[⟨['A'], "x \ry".toList, .rectangle⟩], []⟩
  let again : Graph := ⟨[⟨['A'], "x y".toList, .rectangle⟩], []⟩
  obtain ⟨h, found, fixed⟩ := all loneReturn read (by decide +kernel)
  have second : parse (repair read.toText) = .ok again := by decide +kernel
  rw [second] at found
  obtain rfl := Except.ok.inj found
  exact absurd fixed (by decide +kernel)

end Flowchart
