import TextKit.HeaderSafe
import TextKit.Proofs.Outcome

/-!
# Escaping is undone by unescaping

The header-safe form of a character is its code: a substitute, the escape character
with a letter, or the character itself. No code begins like another one, because
substitutes and the escape character may not be escaped themselves. A text is therefore
read back code by code, and the letters of the escapes are never taken for digits.

Escaping goes on as long as it finds characters that it accepts. The first other one
is its error, with the byte offset of that character.
-/

namespace TextKit.HeaderSafe

/-- The separators that are Ascii85 digits. -/
def separators : List Char :=
  ['(', ')', '<', '>', '@', ',', ';', ':', '\\', '"', '/', '[', ']', '?', '=']

/-- The characters of Ascii85 texts, and white space. -/
def Escapable (c : Char) : Prop :=
  ('!' ≤ c ∧ c ≤ 'u') ∨ c = ' ' ∨ c = '\n' ∨ c = '\r' ∨ c = '\t' ∨ c = 'z'

theorem isEscapable_iff (c : Char) : isEscapable c = true ↔ Escapable c := by
  have hdigit : Ascii85.isDigit c = true ↔ '!' ≤ c ∧ c ≤ 'u' := by
    rw [Ascii85.isDigit, Bool.and_eq_true, decide_eq_true_eq, decide_eq_true_eq]
    rfl
  have hcopied : copied.contains c = true ↔ c = ' ' ∨ c = '\n' ∨ c = '\r' ∨ c = '\t' ∨ c = 'z' := by
    simp [copied, Ascii85.zeroGroup]
  rw [isEscapable, Bool.or_eq_true, hdigit, hcopied]
  exact or_comm

/-- The three kinds of codes. -/
theorem escapeOne_cases (c : Char) :
    (∃ code, (c, code) ∈ substitutes ∧ escapeOne c = [code]) ∨
    (∃ letter, (c, letter) ∈ escapeLetters ∧ escapeOne c = [escapeChar, letter]) ∨
    c ∉ separators ∧ escapeOne c = [c] := by
  unfold escapeOne
  split
  · rename_i code hcode
    obtain ⟨front, back, htable, -⟩ := List.lookup_eq_some_iff.mp hcode
    exact .inl ⟨code, by simp [htable], rfl⟩
  · rename_i hsubstitutes
    split
    · rename_i letter hletter
      obtain ⟨front, back, htable, -⟩ := List.lookup_eq_some_iff.mp hletter
      exact .inr (.inl ⟨letter, by simp [htable], rfl⟩)
    · rename_i hletters
      refine .inr (.inr ⟨?_, rfl⟩)
      intro hc
      have hkeys : c ∈ substitutes.map (·.1) ++ escapeLetters.map (·.1) := hc
      rw [List.mem_append, List.mem_map, List.mem_map] at hkeys
      rcases hkeys with ⟨p, hp, rfl⟩ | ⟨p, hp, rfl⟩
      · simpa using List.lookup_eq_none_iff.mp hsubstitutes p hp
      · simpa using List.lookup_eq_none_iff.mp hletters p hp

/-- A substitute stands for one separator. It may not be escaped, and is none itself. -/
theorem substitutes_spec {plain code : Char} (h : (plain, code) ∈ substitutes) :
    separator? substitutes code = some plain ∧ code ≠ escapeChar ∧ code ∉ separators := by
  have hall : ∀ p ∈ substitutes,
      separator? substitutes p.2 = some p.1 ∧ p.2 ≠ escapeChar ∧ p.2 ∉ separators := by decide
  exact hall _ h

/-- An escape letter stands for one separator. -/
theorem escapeLetters_spec {plain letter : Char} (h : (plain, letter) ∈ escapeLetters) :
    separator? escapeLetters letter = some plain ∧ 'a' ≤ letter ∧ letter ≤ 'j' ∧
      letter ≠ escapeChar ∧ letter ∉ separators := by
  have hall : ∀ p ∈ escapeLetters, separator? escapeLetters p.2 = some p.1 ∧ 'a' ≤ p.2 ∧
      p.2 ≤ 'j' ∧ p.2 ≠ escapeChar ∧ p.2 ∉ separators := by decide
  exact hall _ h

/-- What may be escaped is neither the escape character nor a substitute. -/
theorem ne_escapeChar_of_isEscapable {c : Char} (h : isEscapable c = true) : c ≠ escapeChar := by
  rintro rfl
  revert h
  decide

theorem separator?_eq_none_of_isEscapable {c : Char} (h : isEscapable c = true) :
    separator? substitutes c = none := by
  have hall : ∀ p ∈ substitutes, isEscapable p.2 = false := by decide
  rw [separator?, Option.map_eq_none_iff, List.find?_eq_none]
  intro p hp heq
  rw [← beq_iff_eq.mp heq, hall p hp] at h
  cases h

section Unescape

variable (done : Array Char) (position : Nat) (t : Text)

theorem unescapeFrom_substitute {plain code : Char} (h : (plain, code) ∈ substitutes) :
    unescapeFrom done position (code :: t) =
      unescapeFrom (done.push plain) (position + code.utf8Size) t := by
  obtain ⟨hplain, hne, -⟩ := substitutes_spec h
  rw [unescapeFrom.eq_def]
  simp only [if_neg hne, hplain, Option.getD_some]

theorem unescapeFrom_letter {plain letter : Char} (h : (plain, letter) ∈ escapeLetters) :
    unescapeFrom done position (escapeChar :: letter :: t) =
      unescapeFrom (done.push plain) (position + escapeChar.utf8Size + letter.utf8Size) t := by
  obtain ⟨hplain, -⟩ := escapeLetters_spec h
  simp only [unescapeFrom, if_true, hplain]

theorem unescapeFrom_copy {c : Char} (hne : c ≠ escapeChar)
    (hnone : separator? substitutes c = none) :
    unescapeFrom done position (c :: t) =
      unescapeFrom (done.push c) (position + c.utf8Size) t := by
  rw [unescapeFrom.eq_def]
  simp only [if_neg hne, hnone, Option.getD_none]

/-- A code is read back as its character, whatever follows it. -/
theorem unescapeFrom_escapeOne {c : Char} (h : isEscapable c = true) :
    unescapeFrom done position (escapeOne c ++ t) =
      unescapeFrom (done.push c) (position + Text.byteLength (escapeOne c)) t := by
  rcases escapeOne_cases c with ⟨code, hcode, heq⟩ | ⟨letter, hletter, heq⟩ | ⟨-, heq⟩
  · rw [heq]
    exact unescapeFrom_substitute done position t hcode
  · rw [heq]
    have hread := unescapeFrom_letter done position t hletter
    rwa [Nat.add_assoc] at hread
  · rw [heq]
    exact unescapeFrom_copy done position t (ne_escapeChar_of_isEscapable h)
      (separator?_eq_none_of_isEscapable h)

end Unescape

/-- The codes of a text are read back as the text. -/
theorem unescapeFrom_flatMap (done : Array Char) (position : Nat) {s : Text}
    (h : ∀ c ∈ s, isEscapable c = true) :
    unescapeFrom done position (s.flatMap escapeOne) = .ok (done.toList ++ s) := by
  induction s generalizing done position with
  | nil => simp [unescapeFrom]
  | cons c s ih =>
      obtain ⟨hc, hs⟩ := List.forall_mem_cons.mp h
      rw [List.flatMap_cons, unescapeFrom_escapeOne _ _ _ hc, ih _ _ hs]
      simp

theorem unescape_flatMap {s : Text} (h : ∀ c ∈ s, isEscapable c = true) :
    unescape (s.flatMap escapeOne) = .ok s := by
  exact unescapeFrom_flatMap #[] 0 h

/-- Escaping succeeds on the characters that it accepts, and writes their codes. -/
theorem escapeFrom_eq_ok_iff {done : Array Char} {position : Nat} {s t : Text} :
    escapeFrom done position s = .ok t ↔
      (∀ c ∈ s, isEscapable c = true) ∧ t = done.toList ++ s.flatMap escapeOne := by
  induction s generalizing done position with
  | nil =>
      simp only [escapeFrom, Except.ok.injEq, List.not_mem_nil, false_implies, implies_true,
        true_and, List.flatMap_nil, List.append_nil]
      exact eq_comm
  | cons c s ih =>
      rw [escapeFrom]
      split
      · rename_i hc
        rw [ih]
        simp [hc]
      · rename_i hc
        simp [hc]

theorem escape_eq_ok_iff {s t : Text} :
    escape s = .ok t ↔ (∀ c ∈ s, isEscapable c = true) ∧ t = s.flatMap escapeOne := by
  rw [escape, escapeFrom_eq_ok_iff]
  rfl

/-- The first character that is not accepted ends the escaping, whatever follows it. -/
theorem escapeFrom_append_cons {front back : Text} {c : Char}
    (hfront : ∀ d ∈ front, isEscapable d = true) (hc : isEscapable c ≠ true)
    (done : Array Char) (position : Nat) :
    escapeFrom done position (front ++ c :: back) =
      .error (.invalidCharacter c (position + Text.byteLength front)) := by
  induction front generalizing done position with
  | nil => rw [List.nil_append, escapeFrom, if_neg hc, Text.byteLength_nil, Nat.add_zero]
  | cons d front ih =>
      obtain ⟨hd, hfront⟩ := List.forall_mem_cons.mp hfront
      rw [List.cons_append, escapeFrom, if_pos hd, ih hfront, Text.byteLength_cons, Nat.add_assoc]

/-- The error names the first character that is not accepted, and its place. -/
theorem escape_eq_error_iff {s : Text} {e : FormatError} :
    escape s = .error e ↔
      ∃ front c back, s = front ++ c :: back ∧ (∀ d ∈ front, isEscapable d = true) ∧
        isEscapable c ≠ true ∧ e = .invalidCharacter c (Text.byteLength front) := by
  have herror : ∀ {front back c}, (∀ d ∈ front, isEscapable d = true) → isEscapable c ≠ true →
      escape (front ++ c :: back) = .error (.invalidCharacter c (Text.byteLength front)) := by
    intro front back c hfront hc
    rw [escape, escapeFrom_append_cons hfront hc, Nat.zero_add]
  constructor
  · intro h
    cases hfind : s.find? fun c => !isEscapable c with
    | none =>
        have hall : ∀ c ∈ s, isEscapable c = true := by simpa using hfind
        rw [escape_eq_ok_iff.mpr ⟨hall, rfl⟩] at h
        cases h
    | some c =>
        obtain ⟨hc, front, back, rfl, hfront⟩ := List.find?_eq_some_iff_append.mp hfind
        have hfront' : ∀ d ∈ front, isEscapable d = true := by simpa using hfront
        have hc' : isEscapable c ≠ true := by simpa using hc
        rw [herror hfront' hc'] at h
        cases h
        exact ⟨front, c, back, rfl, hfront', hc', rfl⟩
  · rintro ⟨front, c, back, rfl, hfront, hc, rfl⟩
    exact herror hfront hc

/-- No code holds a separator. -/
theorem not_mem_separators_of_mem_escapeOne {c d : Char} (h : d ∈ escapeOne c) :
    d ∉ separators := by
  rcases escapeOne_cases c with ⟨code, hcode, heq⟩ | ⟨letter, hletter, heq⟩ | ⟨hc, heq⟩
  · rw [heq, List.mem_singleton] at h
    exact h ▸ (substitutes_spec hcode).2.2
  · rw [heq, List.mem_cons, List.mem_singleton] at h
    rcases h with rfl | rfl
    · decide
    · exact (escapeLetters_spec hletter).2.2.2.2
  · rw [heq, List.mem_singleton] at h
    exact h ▸ hc

/-- Wherever the escape character stands among codes, an escape letter follows. -/
theorem letter_of_flatMap_eq {s front back : Text} (h : ∀ c ∈ s, isEscapable c = true)
    (heq : s.flatMap escapeOne = front ++ escapeChar :: back) :
    ∃ letter rest, back = letter :: rest ∧ 'a' ≤ letter ∧ letter ≤ 'j' := by
  induction s generalizing front with
  | nil => simp at heq
  | cons c s ih =>
      obtain ⟨hc, hs⟩ := List.forall_mem_cons.mp h
      -- A code of one character is passed over, since it is not the escape character.
      have hpass : ∀ d, d ≠ escapeChar → d :: s.flatMap escapeOne = front ++ escapeChar :: back →
          ∃ letter rest, back = letter :: rest ∧ 'a' ≤ letter ∧ letter ≤ 'j' := by
        intro d hd hfront
        cases front with
        | nil => exact absurd (List.cons.inj hfront).1 hd
        | cons b front => exact ih hs (List.cons.inj hfront).2
      rw [List.flatMap_cons] at heq
      rcases escapeOne_cases c with ⟨code, hcode, hone⟩ | ⟨letter, hletter, hone⟩ | ⟨-, hone⟩
      · rw [hone] at heq
        exact hpass code (substitutes_spec hcode).2.1 heq
      · rw [hone] at heq
        obtain ⟨-, hlow, hhigh, hne, -⟩ := escapeLetters_spec hletter
        cases front with
        | nil => exact ⟨letter, s.flatMap escapeOne, (List.cons.inj heq).2.symm, hlow, hhigh⟩
        | cons b front =>
            obtain ⟨rfl, htail⟩ := List.cons.inj heq
            cases front with
            | nil => exact absurd (List.cons.inj htail).1 hne
            | cons b front => exact ih hs (List.cons.inj htail).2
      · rw [hone] at heq
        exact hpass c (ne_escapeChar_of_isEscapable hc) heq

/-- Escaping accepts exactly the texts of escapable characters, and its error names the
first other character and where it stands. What it writes is unescaped to the same text,
holds no separator, and has an escape letter after every escape character. -/
theorem escape_lossless (s : Text) :
    ((∃ t, escape s = .ok t) ↔ ∀ c ∈ s, Escapable c) ∧
    (∀ e, escape s = .error e ↔ ∃ front c back, s = front ++ c :: back ∧
      (∀ d ∈ front, Escapable d) ∧ ¬ Escapable c ∧
      e = .invalidCharacter c (Text.byteLength front)) ∧
    ∀ t, escape s = .ok t → unescape t = .ok s ∧ (∀ c ∈ t, c ∉ separators) ∧
      ∀ front back, t = front ++ '~' :: back →
        ∃ letter rest, back = letter :: rest ∧ 'a' ≤ letter ∧ letter ≤ 'j' := by
  simp only [← isEscapable_iff]
  refine ⟨?_, ?_, ?_⟩
  · simp only [escape_eq_ok_iff, exists_and_left, exists_eq, and_true]
  · intro e
    exact escape_eq_error_iff
  · intro t ht
    obtain ⟨hs, rfl⟩ := escape_eq_ok_iff.mp ht
    refine ⟨unescape_flatMap hs, ?_, ?_⟩
    · intro c hc
      obtain ⟨d, -, hd⟩ := List.mem_flatMap.mp hc
      exact not_mem_separators_of_mem_escapeOne hd
    · intro front back heq
      exact letter_of_flatMap_eq hs heq

/-- A text with both kinds of codes, one without any, and one that is not accepted. -/
theorem escape_lossless_of_mixed_text :
    escape ['(', ',', 'a', 'z'] = .ok ['v', '~', 'a', 'a', 'z'] ∧
    unescape ['v', '~', 'a', 'a', 'z'] = .ok ['(', ',', 'a', 'z'] ∧
    (∃ letter rest, ['a', 'a', 'z'] = letter :: rest ∧ 'a' ≤ letter ∧ letter ≤ 'j') ∧
    ¬ Escapable '€' ∧ escape ['a', '€', 'v'] = .error (.invalidCharacter '€' 1) := by
  have hok : escape ['(', ',', 'a', 'z'] = .ok ['v', '~', 'a', 'a', 'z'] := rfl
  have hbad : ¬ Escapable '€' := by
    rw [← isEscapable_iff]
    decide
  obtain ⟨hback, -, hletter⟩ := (escape_lossless ['(', ',', 'a', 'z']).2.2 _ hok
  refine ⟨hok, hback, hletter ['v'] _ rfl, hbad, ?_⟩
  refine ((escape_lossless ['a', '€', 'v']).2.1 _).mpr ⟨['a'], '€', ['v'], rfl, ?_, hbad, rfl⟩
  intro d hd
  rw [List.mem_singleton.mp hd, ← isEscapable_iff]
  decide

end TextKit.HeaderSafe
