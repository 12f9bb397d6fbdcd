import TextKit.Proofs.HeaderSafe.Escaping

/-!
# The texts that escaping writes

Unescaping is lenient. It takes a text apart into codes, and a character that begins no
code stands for itself, whether or not it may be escaped. The only texts it refuses are
those in which an escape character is not followed by one of its letters.

Escaping writes only some of the texts that can be unescaped. They are told from the others
by their characters alone: no separator is left in them, and nothing else that may not be
escaped except for the substitutes and the escape character. That a letter may be a digit
in one place and belong to a code in another does no harm, since a text has only one way
to be taken apart.
-/

namespace TextKit.HeaderSafe

/-- The codes of a text and the characters they stand for. What is neither the escape
character nor a substitute stands for itself. -/
inductive Spells : Text → Text → Prop where
  | nil : Spells [] []
  | substitute {plain code : Char} {t s : Text} (entry : (plain, code) ∈ substitutes)
      (rest : Spells t s) : Spells (code :: t) (plain :: s)
  | letter {plain letter : Char} {t s : Text} (entry : (plain, letter) ∈ escapeLetters)
      (rest : Spells t s) : Spells (escapeChar :: letter :: t) (plain :: s)
  | copy {c : Char} {t s : Text} (ne : c ≠ escapeChar) (none : separator? substitutes c = none)
      (rest : Spells t s) : Spells (c :: t) (c :: s)

theorem mem_of_separator? {table : List (Char × Char)} {plain code : Char}
    (h : separator? table code = some plain) : (plain, code) ∈ table := by
  obtain ⟨⟨plain', code'⟩, hfind, rfl⟩ := Option.map_eq_some_iff.mp h
  have hcode : code' = code := beq_iff_eq.mp (List.find?_some hfind :)
  exact hcode ▸ List.mem_of_find?_eq_some hfind

/-- Codes are read one by one, whatever stands behind them. -/
theorem Spells.unescapeFrom_append {t s : Text} (h : Spells t s) (done : Array Char)
    (position : Nat) (rest : Text) :
    unescapeFrom done position (t ++ rest) =
      unescapeFrom (done ++ s) (position + Text.byteLength t) rest := by
  induction h generalizing done position with
  | nil => simp
  | substitute entry _ ih =>
      rw [List.cons_append, unescapeFrom_substitute _ _ _ entry, ih]
      simp [Nat.add_assoc]
  | letter entry _ ih =>
      rw [List.cons_append, List.cons_append, unescapeFrom_letter _ _ _ entry, ih]
      simp [Nat.add_assoc]
  | copy ne none _ ih =>
      rw [List.cons_append, unescapeFrom_copy _ _ _ ne none, ih]
      simp [Nat.add_assoc]

theorem Spells.unescapeFrom_eq {t s : Text} (h : Spells t s) (done : Array Char)
    (position : Nat) : unescapeFrom done position t = .ok (done.toList ++ s) := by
  have hread := h.unescapeFrom_append done position []
  rw [List.append_nil] at hread
  rw [hread, unescapeFrom]
  simp

/-- A character other than the escape character is a code by itself. -/
theorem Spells.single {t s : Text} {c : Char} (hne : c ≠ escapeChar) (h : Spells t s) :
    Spells (c :: t) ((separator? substitutes c).getD c :: s) := by
  cases hplain : separator? substitutes c with
  | none => exact .copy hne hplain h
  | some plain => exact .substitute (mem_of_separator? hplain) h

/-- A text that is read to its end is made of codes. -/
theorem spells_of_unescapeFrom {done : Array Char} {position : Nat} {t r : Text}
    (h : unescapeFrom done position t = .ok r) : ∃ s, Spells t s ∧ r = done.toList ++ s := by
  fun_induction unescapeFrom done position t with
  | case1 done position =>
      cases h
      exact ⟨[], .nil, by simp⟩
  | case2 => cases h
  | case3 done position letter rest plain hletter ih =>
      obtain ⟨s, hs, rfl⟩ := ih h
      exact ⟨plain :: s, .letter (mem_of_separator? hletter) hs, by simp⟩
  | case4 => cases h
  | case5 done position c cs hne ih =>
      obtain ⟨s, hs, rfl⟩ := ih h
      exact ⟨_, hs.single hne, by simp⟩

/-- Unescaping gives what the codes of a text stand for. -/
theorem unescape_eq_ok_iff {t s : Text} : unescape t = .ok s ↔ Spells t s := by
  constructor
  · intro h
    obtain ⟨s', hs', rfl⟩ := spells_of_unescapeFrom h
    exact hs'
  · intro h
    exact h.unescapeFrom_eq #[] 0

/-- The characters of escaped texts: the digits that are no separators, the short form of a
zero group, white space, the substitutes and the escape character. -/
def CodeChar (c : Char) : Prop :=
  ('!' ≤ c ∧ c ≤ 'u' ∧ c ∉ separators) ∨
    c ∈ ['z', ' ', '\n', '\r', '\t', 'v', 'w', 'x', 'y', '|', '~']

instance (c : Char) : Decidable (CodeChar c) :=
  inferInstanceAs (Decidable (_ ∨ _))

/-- Only separators have a code other than themselves. -/
theorem escapeOne_of_not_mem_separators {c : Char} (h : c ∉ separators) : escapeOne c = [c] := by
  have hsubstitutes : ∀ p ∈ substitutes, p.1 ∈ separators := by decide
  have hletters : ∀ p ∈ escapeLetters, p.1 ∈ separators := by decide
  obtain ⟨code, hcode, -⟩ | ⟨letter, hletter, -⟩ | ⟨-, heq⟩ := escapeOne_cases c
  · exact absurd (hsubstitutes _ hcode) h
  · exact absurd (hletters _ hletter) h
  · exact heq

/-- A separator that has a substitute may be escaped, and is written as the substitute. -/
theorem escapeOne_of_mem_substitutes {plain code : Char} (h : (plain, code) ∈ substitutes) :
    isEscapable plain = true ∧ escapeOne plain = [code] := by
  have hall : ∀ p ∈ substitutes, isEscapable p.1 = true ∧ escapeOne p.1 = [p.2] := by decide
  exact hall _ h

theorem escapeOne_of_mem_escapeLetters {plain letter : Char}
    (h : (plain, letter) ∈ escapeLetters) :
    isEscapable plain = true ∧ escapeOne plain = [escapeChar, letter] := by
  have hall : ∀ p ∈ escapeLetters, isEscapable p.1 = true ∧
      escapeOne p.1 = [escapeChar, p.2] := by decide
  exact hall _ h

/-- A code character that stands for itself may be escaped. -/
theorem CodeChar.isEscapable {c : Char} (h : CodeChar c) (ne : c ≠ escapeChar)
    (none : separator? substitutes c = none) :
    isEscapable c = true ∧ escapeOne c = [c] := by
  obtain ⟨hlow, hhigh, hc⟩ | hc := h
  · exact ⟨(isEscapable_iff c).mpr (.inl ⟨hlow, hhigh⟩), escapeOne_of_not_mem_separators hc⟩
  · simp only [List.mem_cons, List.not_mem_nil, or_false] at hc
    obtain hblank | hsubstitute | rfl :
        (c = 'z' ∨ c = ' ' ∨ c = '\n' ∨ c = '\r' ∨ c = '\t') ∨
          (c = 'v' ∨ c = 'w' ∨ c = 'x' ∨ c = 'y' ∨ c = '|') ∨ c = '~' := by
      simpa only [or_assoc] using hc
    · obtain rfl | rfl | rfl | rfl | rfl := hblank <;> decide
    · obtain rfl | rfl | rfl | rfl | rfl := hsubstitute <;> cases none
    · exact absurd rfl ne

/-- The codes of escapable characters hold nothing but code characters. -/
theorem codeChar_of_mem_escapeOne {c d : Char} (h : isEscapable c = true)
    (hd : d ∈ escapeOne c) : CodeChar d := by
  obtain ⟨code, hcode, heq⟩ | ⟨letter, hletter, heq⟩ | ⟨hc, heq⟩ := escapeOne_cases c
  · have hall : ∀ p ∈ substitutes, CodeChar p.2 := by decide
    rw [heq, List.mem_singleton] at hd
    exact hd ▸ hall _ hcode
  · have hall : ∀ p ∈ escapeLetters, CodeChar p.2 := by decide
    rw [heq, List.mem_cons, List.mem_singleton] at hd
    obtain rfl | rfl := hd
    · decide
    · exact hall _ hletter
  · rw [heq, List.mem_singleton] at hd
    subst hd
    obtain ⟨hlow, hhigh⟩ | hother := (isEscapable_iff d).mp h
    · exact .inl ⟨hlow, hhigh, hc⟩
    · obtain rfl | rfl | rfl | rfl | rfl := hother <;> decide

/-- Made of code characters, a text is the escaped form of what its codes stand for. -/
theorem Spells.escape_eq {t s : Text} (h : Spells t s) (ht : ∀ c ∈ t, CodeChar c) :
    (∀ c ∈ s, isEscapable c = true) ∧ t = s.flatMap escapeOne := by
  induction h with
  | nil => exact ⟨fun c hc => absurd hc List.not_mem_nil, rfl⟩
  | substitute entry _ ih =>
      obtain ⟨hs, heq⟩ := ih (List.forall_mem_cons.mp ht).2
      obtain ⟨hplain, hone⟩ := escapeOne_of_mem_substitutes entry
      refine ⟨List.forall_mem_cons.mpr ⟨hplain, hs⟩, ?_⟩
      rw [List.flatMap_cons, hone, ← heq, List.singleton_append]
  | letter entry _ ih =>
      obtain ⟨hs, heq⟩ := ih (List.forall_mem_cons.mp (List.forall_mem_cons.mp ht).2).2
      obtain ⟨hplain, hone⟩ := escapeOne_of_mem_escapeLetters entry
      refine ⟨List.forall_mem_cons.mpr ⟨hplain, hs⟩, ?_⟩
      rw [List.flatMap_cons, hone, ← heq]
      rfl
  | copy ne none _ ih =>
      obtain ⟨hc, ht⟩ := List.forall_mem_cons.mp ht
      obtain ⟨hs, heq⟩ := ih ht
      obtain ⟨hself, hone⟩ := hc.isEscapable ne none
      refine ⟨List.forall_mem_cons.mpr ⟨hself, hs⟩, ?_⟩
      rw [List.flatMap_cons, hone, ← heq, List.singleton_append]

/-- Escaping undoes unescaping just on texts of code characters. -/
theorem escape_eq_ok_iff_unescape {s t : Text} :
    escape s = .ok t ↔ unescape t = .ok s ∧ ∀ c ∈ t, CodeChar c := by
  rw [escape_eq_ok_iff]
  constructor
  · rintro ⟨hs, rfl⟩
    refine ⟨unescape_flatMap hs, ?_⟩
    intro c hc
    obtain ⟨d, hd, hmem⟩ := List.mem_flatMap.mp hc
    exact codeChar_of_mem_escapeOne (hs d hd) hmem
  · rintro ⟨hunescape, ht⟩
    exact (unescape_eq_ok_iff.mp hunescape).escape_eq ht

/-- A text is the escaped form of some text just when it can be unescaped and has only code
characters. What it is unescaped to is then escaped to the same text again. -/
theorem escape_image (t : Text) :
    ((∃ s, escape s = .ok t) ↔ (∃ s, unescape t = .ok s) ∧ ∀ c ∈ t, CodeChar c) ∧
    ((∃ s, escape s = .ok t) → ∀ s, unescape t = .ok s → escape s = .ok t) := by
  constructor
  · simp only [escape_eq_ok_iff_unescape, exists_and_right]
  · rintro ⟨r, hr⟩ s hs
    exact escape_eq_ok_iff_unescape.mpr ⟨hs, (escape_eq_ok_iff_unescape.mp hr).2⟩

/-- The letter `a` stands for itself and, after the escape character, for a comma. A
separator is unescaped to itself, but it is not written. -/
theorem escape_image_of_both_readings :
    escape ['a', ',', '@'] = .ok ['a', '~', 'a', '|'] ∧
    unescape ['a', '~', 'a', '|'] = .ok ['a', ',', '@'] ∧
    unescape [','] = .ok [','] ∧ ¬ ∃ s, escape s = .ok [','] := by
  have hread : unescape ['a', '~', 'a', '|'] = .ok ['a', ',', '@'] := rfl
  have hcodes : ∀ c ∈ ['a', '~', 'a', '|'], CodeChar c := by
    simp only [List.forall_mem_cons, List.not_mem_nil, false_implies, implies_true]
    decide
  obtain ⟨himage, hback⟩ := escape_image ['a', '~', 'a', '|']
  refine ⟨hback (himage.mpr ⟨⟨_, hread⟩, hcodes⟩) _ hread, hread, rfl, ?_⟩
  intro hwritten
  exact absurd (((escape_image [',']).1.mp hwritten).2 ',' (by simp)) (by decide)

end TextKit.HeaderSafe
