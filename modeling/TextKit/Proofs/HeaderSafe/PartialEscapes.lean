import TextKit.Proofs.HeaderSafe.Image
import TextKit.Proofs.HeaderSafe.Tokens

/-!
# Texts that are escaped in part

A separator may be left as it is in a header-safe text, or replaced by its code, each
occurrence on its own. The reader cannot tell afterwards, as long as no character of the
original could be taken for a code, that is, for a substitute or for the escape character.
So it reads the same bytes from all these texts, or finds the same fault, which is placed in
the text without escapes.

Ascii85 texts have no such characters. They are read alike with all of their separators
replaced, with some of them, and with none.
-/

namespace TextKit.HeaderSafe

/-- The substitutes and the escape character. -/
def codeStarts : List Char := ['v', 'w', 'x', 'y', '|', '~']

/-- The second text is the first one with some occurrences of separators replaced by their
codes, possibly all of them or none. -/
inductive PartlyEscaped : Text → Text → Prop where
  | nil : PartlyEscaped [] []
  | keep (c : Char) {s t : Text} (rest : PartlyEscaped s t) : PartlyEscaped (c :: s) (c :: t)
  | replace {c : Char} {s t : Text} (separator : c ∈ separators) (rest : PartlyEscaped s t) :
      PartlyEscaped (c :: s) (escapeOne c ++ t)

theorem PartlyEscaped.refl (s : Text) : PartlyEscaped s s := by
  induction s with
  | nil => exact .nil
  | cons c s ih => exact .keep c ih

/-- A character with which no code begins is read as itself. -/
theorem copied_of_not_mem_codeStarts {c : Char} (h : c ∉ codeStarts) :
    c ≠ escapeChar ∧ separator? substitutes c = none := by
  constructor
  · rintro rfl
    exact h (by decide)
  · have hall : ∀ p ∈ substitutes, p.2 ∈ codeStarts := by decide
    rw [separator?, Option.map_eq_none_iff, List.find?_eq_none]
    intro p hp heq
    exact h (beq_iff_eq.mp heq ▸ hall p hp)

theorem not_mem_codeStarts_of_isEscapable {c : Char} (h : isEscapable c = true) :
    c ∉ codeStarts := by
  have hall : codeStarts.all (fun c => ! isEscapable c) = true := by decide
  intro hc
  have hnot := List.all_eq_true.mp hall c hc
  rw [h] at hnot
  cases hnot

/-- The characters that are replaced are told from those that are kept. -/
theorem PartlyEscaped.spells {s t : Text} (h : PartlyEscaped s t)
    (hs : ∀ c ∈ s, c ∉ codeStarts) : Spells t s := by
  induction h with
  | nil => exact .nil
  | keep c _ ih =>
      obtain ⟨hc, hs⟩ := List.forall_mem_cons.mp hs
      obtain ⟨hne, hnone⟩ := copied_of_not_mem_codeStarts hc
      exact .copy hne hnone (ih hs)
  | @replace c s t separator _ ih =>
      have hrest := ih (List.forall_mem_cons.mp hs).2
      obtain ⟨code, hcode, heq⟩ | ⟨letter, hletter, heq⟩ | ⟨hc, -⟩ := escapeOne_cases c
      · rw [heq]
        exact .substitute hcode hrest
      · rw [heq]
        exact .letter hletter hrest
      · exact absurd separator hc

/-- Bytes are read from the text without escapes, whatever is found there. -/
theorem decode_of_unescape {s t : Text} (h : unescape t = .ok s) :
    decode t = Ascii85.decode s := by
  change (unescape t).bind Ascii85.decode = Ascii85.decode s
  rw [h, bind_ok]

theorem unescape_of_partlyEscaped {s t : Text} (h : PartlyEscaped s t)
    (hs : ∀ c ∈ s, c ∉ codeStarts) : unescape t = .ok s :=
  unescape_eq_ok_iff.mpr (h.spells hs)

/-- Reading does not depend on which separators were replaced by their codes: it gives what
Ascii85 gives for the original, the same bytes or the same error. In particular it gives the
same bytes as Ascii85 for every text that Ascii85 accepts, and it gives for an escaped text
what Ascii85 gives for the text that was escaped. -/
theorem decode_of_partlyEscaped :
    (∀ s t, (∀ c ∈ s, c ∉ codeStarts) → PartlyEscaped s t →
      unescape t = .ok s ∧ decode t = Ascii85.decode s) ∧
    (∀ s bytes, Ascii85.decode s = .ok bytes → decode s = .ok bytes) ∧
    ∀ s t, escape s = .ok t → decode t = Ascii85.decode s := by
  refine ⟨?_, ?_, ?_⟩
  · intro s t hs h
    have hunescape := unescape_of_partlyEscaped h hs
    exact ⟨hunescape, decode_of_unescape hunescape⟩
  · intro s bytes hbytes
    have halphabet := (Ascii85.decode_eq_ok_iff.mp hbytes).inAlphabet
    have hunescape : unescape s = .ok s := unescape_of_partlyEscaped (.refl s) fun c hc =>
      not_mem_codeStarts_of_isEscapable (isEscapable_of_inAlphabet (halphabet c hc))
    rw [decode_of_unescape hunescape, hbytes]
  · intro s t ht
    exact decode_of_unescape (escape_eq_ok_iff_unescape.mp ht).1

/-- Of two commas one is replaced. The character at fault is the fourth of the original, and
that is where the error places it, although it is the fifth here. -/
theorem decode_of_partlyEscaped_of_two_commas :
    PartlyEscaped [',', '(', ',', '€'] ['~', 'a', '(', ',', '€'] ∧
    decode ['~', 'a', '(', ',', '€'] = .error (.invalidCharacter '€' 3) ∧
    decode ['~', 'a', 'v'] = .ok [34] := by
  have hpart : PartlyEscaped [',', '(', ',', '€'] ['~', 'a', '(', ',', '€'] :=
    .replace (by decide) (.keep '(' (.keep ',' (.keep '€' .nil)))
  have hfault : Ascii85.decode [',', '(', ',', '€'] = .error (.invalidCharacter '€' 3) := by rfl
  obtain ⟨hread, -, hescaped⟩ := decode_of_partlyEscaped
  refine ⟨hpart, ?_, ?_⟩
  · rw [(hread _ _ (by simp [codeStarts]) hpart).2, hfault]
  · rw [hescaped [',', '('] ['~', 'a', 'v'] rfl]
    rfl

end TextKit.HeaderSafe
