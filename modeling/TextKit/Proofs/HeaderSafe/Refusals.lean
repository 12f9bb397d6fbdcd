import TextKit.Proofs.HeaderSafe.Places

/-!
# Which texts cannot be unescaped

A text is refused for its first escape character that is not followed by one of the letters. What
stands before it can be unescaped by itself, and it is this that tells an escape character that
begins an escape from one that stands where a letter is expected. Any other characters are accepted,
so a text without such a place is never refused.

The place in the error is that of the character behind the escape character. It counts bytes, and
those in front of it may belong to characters of any length.
-/

namespace TextKit.HeaderSafe

/-- An escape character ends the text, behind a text that can be unescaped. -/
def EndsInEscape (t : Text) : Prop := ∃ u s, t = u ++ ['~'] ∧ unescape u = .ok s

/-- An escape character is followed by `ch`, which is no letter of an escape and stands at byte
offset `position`. What is in front can be unescaped. -/
def EscapesOther (t : Text) (ch : Char) (position : Nat) : Prop :=
  ∃ u w s, t = u ++ '~' :: ch :: w ∧ unescape u = .ok s ∧ ¬ ('a' ≤ ch ∧ ch ≤ 'j') ∧
    position = Text.byteLength u + 1

/-- The letters of the escapes are the first ten. -/
theorem separator?_escapeLetters_eq_none_iff {c : Char} :
    separator? escapeLetters c = none ↔ ¬ ('a' ≤ c ∧ c ≤ 'j') := by
  constructor
  · rintro hnone ⟨hlow, hhigh⟩
    have hall : ∀ n < 10, separator? escapeLetters (Char.ofNat (97 + n)) ≠ none := by decide
    have hlow' : 97 ≤ c.toNat := hlow
    have hhigh' : c.toNat ≤ 106 := hhigh
    have hc := hall (c.toNat - 97) (by omega)
    rw [Nat.add_sub_cancel' hlow', Char.ofNat_toNat] at hc
    exact hc hnone
  · intro hc
    rw [Option.eq_none_iff_forall_ne_some]
    intro plain hplain
    obtain ⟨-, hlow, hhigh, -⟩ := escapeLetters_spec (mem_of_separator? hplain)
    exact hc ⟨hlow, hhigh⟩

variable {t : Text}

theorem unescape_of_endsInEscape (h : EndsInEscape t) : unescape t = .error .danglingEscape := by
  obtain ⟨u, s, rfl, hu⟩ := h
  rw [unescape, (unescape_eq_ok_iff.mp hu).unescapeFrom_append]
  rfl

theorem unescape_of_escapesOther {ch : Char} {position : Nat} (h : EscapesOther t ch position) :
    unescape t = .error (.unexpectedEscape ch position) := by
  obtain ⟨u, w, s, rfl, hu, hch, rfl⟩ := h
  have hnone := separator?_escapeLetters_eq_none_iff.mpr hch
  rw [unescape, (unescape_eq_ok_iff.mp hu).unescapeFrom_append, Nat.zero_add]
  simp only [unescapeFrom, hnone]
  rfl

/-- There is no other reason to refuse a text. -/
theorem malformed_of_unescape_eq_error {e : FormatError} (h : unescape t = .error e) :
    e = .danglingEscape ∧ EndsInEscape t ∨
      ∃ ch position, e = .unexpectedEscape ch position ∧ EscapesOther t ch position := by
  obtain ⟨u, s, hspells, ⟨rfl, rfl⟩ | ⟨letter, w, rfl, hnone, rfl⟩⟩ := unescapeFrom_eq_error h
  · exact .inl ⟨rfl, u, s, rfl, unescape_eq_ok_iff.mpr hspells⟩
  · rw [Nat.zero_add]
    exact .inr ⟨letter, _, rfl, u, w, s, rfl, unescape_eq_ok_iff.mpr hspells,
      separator?_escapeLetters_eq_none_iff.mp hnone, rfl⟩

/-- A text is refused exactly where an escape is malformed: at its end, if the escape character is
the last one, or else at the character in place of a letter. All other texts can be unescaped. -/
theorem unescape_refusals (t : Text) :
    (unescape t = .error .danglingEscape ↔ EndsInEscape t) ∧
    (∀ ch position, unescape t = .error (.unexpectedEscape ch position) ↔
      EscapesOther t ch position) ∧
    ((∃ s, unescape t = .ok s) ↔
      ¬ EndsInEscape t ∧ ∀ ch position, ¬ EscapesOther t ch position) := by
  refine ⟨⟨?_, unescape_of_endsInEscape⟩, ?_, ?_, ?_⟩
  · intro h
    obtain ⟨-, hends⟩ | ⟨ch, position, he, -⟩ := malformed_of_unescape_eq_error h
    · exact hends
    · cases he
  · intro ch position
    refine ⟨?_, unescape_of_escapesOther⟩
    intro h
    obtain ⟨he, -⟩ | ⟨ch', position', he, hother⟩ := malformed_of_unescape_eq_error h
    · cases he
    · cases he
      exact hother
  · rintro ⟨s, hs⟩
    constructor
    · intro hends
      rw [unescape_of_endsInEscape hends] at hs
      cases hs
    · intro ch position hother
      rw [unescape_of_escapesOther hother] at hs
      cases hs
  · rintro ⟨hends, hother⟩
    cases hresult : unescape t with
    | ok s => exact ⟨s, rfl⟩
    | error e =>
        obtain ⟨-, h⟩ | ⟨ch, position, -, h⟩ := malformed_of_unescape_eq_error hresult
        · exact absurd h hends
        · exact absurd h (hother ch position)

/-- The letter of an escape does not serve the next one, and an escape character is no letter
itself. A character of three bytes is in front of the second text. -/
theorem unescape_refusals_of_escape_characters :
    EndsInEscape ['~', 'a', '~'] ∧ unescape ['~', 'a', '~'] = .error .danglingEscape ∧
    EscapesOther ['€', '~', '~', 'a'] '~' 4 ∧
    unescape ['€', '~', '~', 'a'] = .error (.unexpectedEscape '~' 4) ∧
    ¬ EndsInEscape ['a', '~', 'j'] := by
  have hends : EndsInEscape ['~', 'a', '~'] := ⟨['~', 'a'], [','], rfl, rfl⟩
  have hother : EscapesOther ['€', '~', '~', 'a'] '~' 4 :=
    ⟨['€'], ['a'], ['€'], rfl, rfl, by decide, rfl⟩
  exact ⟨hends, (unescape_refusals _).1.mpr hends, hother,
    ((unescape_refusals _).2.1 _ _).mpr hother, ((unescape_refusals _).2.2.mp ⟨_, rfl⟩).1⟩

end TextKit.HeaderSafe
