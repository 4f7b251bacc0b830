import Flowchart.Proofs.Repair.NormalForm
import Flowchart.Proofs.Text.Punctuation

/-!
Taking the diagram out of a whole reply. The opening fence is searched from the left and the closing one from the
right, and each is found where it was put, though the texts around it may end or start with a backtick
(`openingFence_first`, `fence_last`). What is taken out has no fence left, so that taking out again changes nothing.
-/
namespace Flowchart.Repair
open Text

/-! ### Fences -/

theorem dropOpeningFence_eq_self {t : Text} (clean : ¬ fence <:+: t) : dropOpeningFence t = t := by
  have absent : ¬ openingFence <:+: t := fun found => clean ((List.prefix_append fence _).isInfix.trans found)
  rw [dropOpeningFence, cut_eq_none absent]

theorem beforeLastFence_eq_self {t : Text} (clean : ¬ fence <:+: t) : beforeLastFence t = t := by
  rw [beforeLastFence, cutLast_eq_none clean]

/-- Behind a text without a fence, no opening fence comes before the one that is put
    there: of its backticks, only the first can start one. -/
theorem openingFence_first {p : Text} (clean : ¬ fence <:+: p) : ¬ openingFence <:+: p ++ openingFence.dropLast := by
  have starts : fence <+: openingFence := List.prefix_append fence _
  have shifted : ∀ k < fence.length, ¬ openingFence.drop k <+: openingFence.dropLast := by decide
  intro found
  rcases List.infix_append_iff.1 found with inside | inside | ⟨first, second, split, final, initial⟩
  · exact clean (starts.isInfix.trans inside)
  · exact absurd inside.length_le (by decide)
  · have front : first <+: openingFence := ⟨second, split.symm⟩
    rcases Nat.lt_or_ge first.length fence.length with short | long
    · have rest : openingFence.drop first.length = second := by rw [split, List.drop_left]
      exact shifted first.length short (rest ▸ initial)
    · exact clean ((List.prefix_of_prefix_length_le starts front long).isInfix.trans final.isInfix)

/-- In front of a text without a fence, and without a backtick at its start, no fence
    comes after the one that is put there. -/
theorem fence_last {s : Text} (clean : ¬ fence <:+: s) (apart : s.head? ≠ some '\x60') :
    ¬ fence <:+: fence.tail ++ s := by
  cases s with
  | nil => decide
  | cons c s =>
    have other : c ∉ fence := by
      intro tick
      obtain rfl : c = '\x60' := by simpa [fence] using tick
      exact apart rfl
    rw [infix_append_cons other]
    rintro (inside | behind)
    · exact absurd inside.length_le (by decide)
    · exact clean (behind.trans (List.suffix_cons c s).isInfix)

/-! ### Replies -/

theorem extractDiagram_of_clean {t : Text} (clean : ¬ fence <:+: t) : extractDiagram t = repair t.trim := by
  rw [extractDiagram, dropOpeningFence_eq_self clean, beforeLastFence_eq_self clean]

/-- Taking the diagram out twice is taking it out once, and leaves no fence. Of a reply with a diagram between
    fences, the diagram is taken out with what stands before it, and nothing of what follows, if the text in front
    holds no fence and the text behind holds none and does not start with a backtick. -/
theorem extractDiagram_reply (reply : Text) :
    extractDiagram (extractDiagram reply) = extractDiagram reply ∧ ¬ fence <:+: extractDiagram reply ∧
      ∀ p d s : Text, ¬ fence <:+: p → ¬ fence <:+: s → s.head? ≠ some '\x60' →
        extractDiagram (p ++ openingFence ++ d ++ fence ++ s) = repair (p ++ d).trim := by
  have clean : ¬ fence <:+: extractDiagram reply := repair_no_fence _
  refine ⟨?_, clean, ?_⟩
  · rw [extractDiagram_of_clean clean, extractDiagram, (repair_repaired _).trimmed, repair_repair]
  · intro p d s front behind apart
    have opened : dropOpeningFence (p ++ openingFence ++ d ++ fence ++ s) = p ++ d ++ fence ++ s := by
      have found := cut_of_first (openingFence_first front) (d ++ fence ++ s)
      simp only [List.append_assoc] at found ⊢
      rw [dropOpeningFence, found]
    have closed : beforeLastFence (p ++ d ++ fence ++ s) = p ++ d := by
      rw [beforeLastFence, cutLast_of_last (fence_last behind apart)]
    rw [extractDiagram, opened, closed]

/-- A front that ends with backticks. -/
def tickedFront : Text := "Sure`:\n``".toList

/-- A diagram that starts with a backtick, and holds a fence of its own. -/
def tickedDiagram : Text := "`A[x (y)]\n```B --> A\n`".toList

/-- A text behind the closing fence, with backticks behind a space. -/
def tickedEnd : Text := " ``Done``".toList

theorem tickedReply_extracted :
    ¬ fence <:+: tickedFront ∧ ¬ fence <:+: tickedEnd ∧ tickedEnd.head? ≠ some '\x60' ∧
      extractDiagram (tickedFront ++ openingFence ++ tickedDiagram ++ fence ++ tickedEnd) =
        repair (trim (tickedFront ++ tickedDiagram)) ∧
      repair (trim (tickedFront ++ tickedDiagram)) = "Sure`:\nA[x - y]\nB --> A".toList := by
  have front : ¬ fence <:+: tickedFront := by decide +kernel
  have behind : ¬ fence <:+: tickedEnd := by decide +kernel
  have apart : tickedEnd.head? ≠ some '\x60' := by decide +kernel
  have repaired : repair (trim (tickedFront ++ tickedDiagram)) = "Sure`:\nA[x - y]\nB --> A".toList := by
    decide +kernel
  exact ⟨front, behind, apart, (extractDiagram_reply []).2.2 _ _ _ front behind apart, repaired⟩

end Flowchart.Repair
