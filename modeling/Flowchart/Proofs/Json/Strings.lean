import Mathlib.Tactic.Common
import Flowchart.Json.Decode

/-!
Strings in JSON. A character is written as it is, behind a backslash, or by its code point (`escapeChar_cases`), and
each of these is read back, so that every string is read up to its closing quote (`readQuoted_escape`) and stands
for the text that was written (`value_ofText`).
-/
namespace Flowchart.Json

theorem hexValue?_hexDigit : ∀ n < 16, hexValue? (hexDigit n) = some n := by decide

/-- A character below U+0020 is written by its code point in two digits. -/
theorem hexCode?_control {c : Char} (control : c.toNat < 0x20) :
    hexCode? '0' '0' (hexDigit (c.toNat / 16)) (hexDigit (c.toNat % 16)) = some c.toNat := by
  have zero : hexValue? '0' = some 0 := by decide
  have high := hexValue?_hexDigit (c.toNat / 16) (by omega)
  have low := hexValue?_hexDigit (c.toNat % 16) (by omega)
  simp only [hexCode?, zero, high, low]
  show some _ = some _
  congr 1
  omega

/-- A character is written as it is, by a letter behind a backslash, or by its code point. -/
theorem escapeChar_cases (c : Char) :
    (escapeChar c = [c] ∧ c ≠ '"' ∧ c ≠ '\\' ∧ ¬ c.toNat < 0x20) ∨
      (∃ e, escapeChar c = ['\\', e] ∧ e ≠ 'u' ∧ simpleEscape? e = some c) ∨
      (escapeChar c = ['\\', 'u', '0', '0', hexDigit (c.toNat / 16), hexDigit (c.toNat % 16)] ∧ c.toNat < 0x20) := by
  unfold escapeChar
  split
  case h_8 _ noQuote noSlash _ _ _ _ _ =>
    split
    · next control => exact .inr (.inr ⟨rfl, control⟩)
    · next above => exact .inl ⟨rfl, noQuote, noSlash, above⟩
  all_goals exact .inr (.inl ⟨_, rfl, by decide, rfl⟩)

/-! ### Reading -/

theorem readQuoted_plain {c : Char} (noQuote : c ≠ '"') (noSlash : c ≠ '\\') (above : ¬ c.toNat < 0x20) (t : Text) :
    readQuoted (c :: t) = prepend [c] (readQuoted t) := by
  rw [readQuoted.eq_def]
  split
  case h_7 same =>
    obtain ⟨rfl, rfl⟩ := List.cons.inj same
    rw [if_neg above]
  all_goals simp_all

theorem readQuoted_letter {e c : Char} (other : e ≠ 'u') (known : simpleEscape? e = some c) (t : Text) :
    readQuoted ('\\' :: e :: t) = prepend ['\\', e] (readQuoted t) := by
  rw [readQuoted.eq_def]
  split
  case h_6 same =>
    obtain ⟨rfl, rfl⟩ := List.cons.inj (List.cons.inj same).2
    rw [known]
    rfl
  case h_7 noLetter same =>
    obtain ⟨rfl, rfl⟩ := List.cons.inj same
    exact absurd rfl (noLetter _ _ rfl)
  all_goals simp_all

theorem readQuoted_code {a b c d : Char} {n : Nat} (code : hexCode? a b c d = some n) (t : Text) :
    readQuoted ('\\' :: 'u' :: a :: b :: c :: d :: t) = prepend ['\\', 'u', a, b, c, d] (readQuoted t) := by
  rw [readQuoted, code]
  rfl

/-- A written string is read up to its closing quote. -/
theorem readQuoted_escape (t rest : Text) : readQuoted (escape t ++ '"' :: rest) = (Quoted.ofText t, some rest) := by
  induction t with
  | nil => rfl
  | cons c t ih =>
    have split : escape (c :: t) ++ '"' :: rest = escapeChar c ++ (escape t ++ '"' :: rest) := by simp [escape]
    have whole : Quoted.ofText (c :: t) = ⟨escapeChar c ++ escape t, none⟩ := by simp [Quoted.ofText, escape]
    rw [split, whole]
    obtain ⟨plain, noQuote, noSlash, above⟩ | ⟨e, letter, other, known⟩ | ⟨code, control⟩ := escapeChar_cases c
    · rw [plain, List.singleton_append, readQuoted_plain noQuote noSlash above, ih]
      rfl
    · rw [letter, List.cons_append, List.singleton_append, readQuoted_letter other known, ih]
      rfl
    · rw [code]
      simp only [List.cons_append, List.nil_append]
      rw [readQuoted_code (hexCode?_control control), ih]
      rfl

/-! ### Resolving -/

theorem unescape_plain {c : Char} (noSlash : c ≠ '\\') (t : Text) : unescape (c :: t) = (unescape t).push c := by
  rw [unescape.eq_def]
  split <;> simp_all

theorem unescape_letter {e c : Char} (other : e ≠ 'u') (known : simpleEscape? e = some c) (t : Text) :
    unescape ('\\' :: e :: t) = (unescape t).push c := by
  rw [unescape.eq_def]
  split
  case h_4 noLetter same =>
    obtain ⟨rfl, rfl⟩ := List.cons.inj same
    exact absurd rfl (noLetter _ _ rfl)
  all_goals simp_all

theorem unescape_code {a b c d : Char} {n : Nat} (code : hexCode? a b c d = some n) (low : n < 0xD800) (t : Text) :
    unescape ('\\' :: 'u' :: a :: b :: c :: d :: t) = (unescape t).push (Char.ofNat n) := by
  rw [unescape.eq_def]
  simp only [code, Option.getD_some, low, decide_true, Bool.true_or, if_true]

/-- A written string stands for the text that was written. -/
theorem unescape_escape (t : Text) : unescape (escape t) = .value t := by
  induction t with
  | nil => rfl
  | cons c t ih =>
    have split : escape (c :: t) = escapeChar c ++ escape t := by simp [escape]
    rw [split]
    obtain ⟨plain, -, noSlash, -⟩ | ⟨e, letter, other, known⟩ | ⟨code, control⟩ := escapeChar_cases c
    · rw [plain, List.singleton_append, unescape_plain noSlash, ih]
      rfl
    · rw [letter, List.cons_append, List.singleton_append, unescape_letter other known, ih]
      rfl
    · rw [code]
      simp only [List.cons_append, List.nil_append]
      rw [unescape_code (hexCode?_control control) (by omega), ih, Char.ofNat_toNat]
      rfl

@[simp] theorem value_ofText (t : Text) : (Quoted.ofText t).value = .ok t := by
  simp [Quoted.value, Quoted.ofText, unescape_escape]

end Flowchart.Json
