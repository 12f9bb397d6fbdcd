import TextKit.Proofs.HeaderSafe.PartialEscapes
import TextKit.Proofs.Text.Trimming

/-!
# Cutting texts between codes

What the parts of a text stand for, put together, is what the text stands for. The other way
round, every division of what a text stands for comes from a division of the text between two of
its codes. A division of the text itself can only miss the codes by parting the escape character
from its letter.

Blank characters belong to no code but their own. So blanks around a text are blanks around what
it stands for, and it makes no difference whether they are dropped before the codes are read or
after that. An escape adds one byte to a text, and all other codes are as long as their characters.
-/

namespace TextKit.HeaderSafe

namespace Spells

variable {t t₁ t₂ s s₁ s₂ : Text}

theorem append (h₁ : Spells t₁ s₁) (h₂ : Spells t₂ s₂) : Spells (t₁ ++ t₂) (s₁ ++ s₂) := by
  induction h₁ with
  | nil => exact h₂
  | substitute entry _ ih => exact .substitute entry ih
  | letter entry _ ih => exact .letter entry ih
  | copy ne none _ ih => exact .copy ne none ih

/-- A text stands for only one other. -/
theorem unique (h₁ : Spells t s₁) (h₂ : Spells t s₂) : s₁ = s₂ :=
  Except.ok.inj ((unescape_eq_ok_iff.mpr h₁).symm.trans (unescape_eq_ok_iff.mpr h₂))

/-- What stands for two parts in a row is two parts in a row. -/
theorem of_append (h : Spells t (s₁ ++ s₂)) :
    ∃ t₁ t₂, t = t₁ ++ t₂ ∧ Spells t₁ s₁ ∧ Spells t₂ s₂ := by
  induction s₁ generalizing t with
  | nil => exact ⟨[], t, rfl, .nil, h⟩
  | cons c s₁ ih =>
      cases h with
      | @substitute _ code _ _ entry rest =>
          obtain ⟨t₁, t₂, rfl, h₁, h₂⟩ := ih rest
          exact ⟨code :: t₁, t₂, rfl, .substitute entry h₁, h₂⟩
      | @letter _ letter _ _ entry rest =>
          obtain ⟨t₁, t₂, rfl, h₁, h₂⟩ := ih rest
          exact ⟨escapeChar :: letter :: t₁, t₂, rfl, .letter entry h₁, h₂⟩
      | copy ne none rest =>
          obtain ⟨t₁, t₂, rfl, h₁, h₂⟩ := ih rest
          exact ⟨c :: t₁, t₂, rfl, .copy ne none h₁, h₂⟩

/-- A character that is no separator comes from the same character in the text. -/
theorem of_cons {c : Char} (hc : c ∉ separators) (h : Spells t (c :: s)) :
    ∃ rest, t = c :: rest ∧ Spells rest s := by
  have htables : ∀ p ∈ substitutes ++ escapeLetters, p.1 ∈ separators := by decide
  cases h with
  | substitute entry _ => exact absurd (htables _ (List.mem_append_left _ entry)) hc
  | letter entry _ => exact absurd (htables _ (List.mem_append_right _ entry)) hc
  | copy ne none rest => exact ⟨_, rfl, rest⟩

/-- Two parts in a row stand for two parts in a row, or else an escape is cut in two. -/
theorem append_inv (h : Spells (t₁ ++ t₂) s) :
    (∃ s₁ s₂, s = s₁ ++ s₂ ∧ Spells t₁ s₁ ∧ Spells t₂ s₂) ∨
      ∃ u plain letter w, t₁ = u ++ [escapeChar] ∧ t₂ = letter :: w ∧
        (plain, letter) ∈ escapeLetters := by
  generalize hu : t₁ ++ t₂ = t at h
  induction h generalizing t₁ with
  | nil =>
      obtain ⟨rfl, rfl⟩ := List.append_eq_nil_iff.mp hu
      exact .inl ⟨[], [], rfl, .nil, .nil⟩
  | @substitute plain code t s entry rest ih =>
      obtain ⟨rfl, rfl⟩ | ⟨t₁, rfl, ht⟩ := List.append_eq_cons_iff.mp hu
      · exact .inl ⟨[], _, rfl, .nil, .substitute entry rest⟩
      · obtain ⟨s₁, s₂, rfl, h₁, h₂⟩ | ⟨u, plain', letter, w, rfl, hw⟩ := ih ht.symm
        · exact .inl ⟨plain :: s₁, s₂, rfl, .substitute entry h₁, h₂⟩
        · exact .inr ⟨code :: u, plain', letter, w, rfl, hw⟩
  | @letter plain letter t s entry rest ih =>
      obtain ⟨rfl, rfl⟩ | ⟨t₁, rfl, ht⟩ := List.append_eq_cons_iff.mp hu
      · exact .inl ⟨[], _, rfl, .nil, .letter entry rest⟩
      · obtain ⟨rfl, rfl⟩ | ⟨t₁, rfl, hrest⟩ := List.append_eq_cons_iff.mp ht.symm
        · exact .inr ⟨[], plain, letter, t, rfl, rfl, entry⟩
        · obtain ⟨s₁, s₂, rfl, h₁, h₂⟩ | ⟨u, plain', letter', w, rfl, hw⟩ := ih hrest.symm
          · exact .inl ⟨plain :: s₁, s₂, rfl, .letter entry h₁, h₂⟩
          · exact .inr ⟨escapeChar :: letter :: u, plain', letter', w, rfl, hw⟩
  | @copy c t s ne none rest ih =>
      obtain ⟨rfl, rfl⟩ | ⟨t₁, rfl, ht⟩ := List.append_eq_cons_iff.mp hu
      · exact .inl ⟨[], _, rfl, .nil, .copy ne none rest⟩
      · obtain ⟨s₁, s₂, rfl, h₁, h₂⟩ | ⟨u, plain, letter, w, rfl, hw⟩ := ih ht.symm
        · exact .inl ⟨c :: s₁, s₂, rfl, .copy ne none h₁, h₂⟩
        · exact .inr ⟨c :: u, plain, letter, w, rfl, hw⟩

/-- Every escape takes one byte more than its character. -/
theorem byteLength_eq (h : Spells t s) :
    Text.byteLength t = Text.byteLength s + t.count escapeChar := by
  have hsubstitutes : ∀ p ∈ substitutes, p.2.utf8Size = p.1.utf8Size ∧ p.2 ≠ escapeChar := by
    decide
  have hletters : ∀ p ∈ escapeLetters,
      escapeChar.utf8Size + p.2.utf8Size = p.1.utf8Size + 1 ∧ p.2 ≠ escapeChar := by decide
  induction h with
  | nil => rfl
  | substitute entry _ ih =>
      obtain ⟨hsize, hne⟩ := hsubstitutes _ entry
      dsimp only at hsize
      rw [Text.byteLength_cons, Text.byteLength_cons, List.count_cons_of_ne hne, ih]
      omega
  | letter entry _ ih =>
      obtain ⟨hsize, hne⟩ := hletters _ entry
      dsimp only at hsize
      rw [Text.byteLength_cons, Text.byteLength_cons, Text.byteLength_cons, List.count_cons_self,
        List.count_cons_of_ne hne, ih]
      omega
  | copy ne _ _ ih =>
      rw [Text.byteLength_cons, Text.byteLength_cons, List.count_cons_of_ne ne, ih, Nat.add_assoc]

end Spells

section Blank

open Text

variable {front back t s : Text}

/-- A blank is neither a separator nor the beginning of a code. -/
theorem not_mem_of_isBlank {c : Char} (h : isBlank c = true) :
    c ∉ separators ∧ c ∉ codeStarts := by
  have hall : (separators ++ codeStarts).all (fun c => ! isBlank c) = true := by decide
  rw [← not_or, ← List.mem_append]
  intro hc
  have hnot := List.all_eq_true.mp hall c hc
  rw [h] at hnot
  cases hnot

theorem isBlank_of_mem_escapeLetters {plain letter : Char}
    (h : (plain, letter) ∈ escapeLetters) : isBlank letter = false := by
  have hall : ∀ p ∈ escapeLetters, isBlank p.2 = false := by decide
  exact hall _ h

/-- Blanks stand for themselves. -/
theorem spells_blank (h : ∀ c ∈ t, isBlank c = true) : Spells t t :=
  (PartlyEscaped.refl t).spells fun c hc => (not_mem_of_isBlank (h c hc)).2

/-- A blank in what a text stands for is the same blank in the text. -/
theorem spells_cons_blank {c : Char} (hc : isBlank c ≠ false) (h : Spells t (c :: s)) :
    ∃ rest, t = c :: rest ∧ Spells rest s :=
  h.of_cons (not_mem_of_isBlank (Bool.eq_true_of_not_eq_false hc)).1

/-- Blanks around a text are blanks around what it stands for. -/
theorem spells_frame_iff (hfront : ∀ c ∈ front, isBlank c = true)
    (hback : ∀ c ∈ back, isBlank c = true) :
    Spells (front ++ (t ++ back)) s ↔ ∃ core, s = front ++ (core ++ back) ∧ Spells t core := by
  constructor
  · intro h
    obtain ⟨s₁, s₂, rfl, h₁, h⟩ | ⟨u, plain, letter, w, rfl, -⟩ := h.append_inv
    · obtain ⟨core, s₂, rfl, hcore, h₂⟩ | ⟨u, plain, letter, w, -, rfl, entry⟩ := h.append_inv
      · rw [h₁.unique (spells_blank hfront), h₂.unique (spells_blank hback)]
        exact ⟨core, rfl, hcore⟩
      · -- The letter of an escape is not blank.
        have hletter := isBlank_of_mem_escapeLetters entry
        rw [hback letter List.mem_cons_self] at hletter
        cases hletter
    · exact absurd (hfront escapeChar (by simp)) (by decide)
  · rintro ⟨core, rfl, hcore⟩
    exact (spells_blank hfront).append (hcore.append (spells_blank hback))

/-- A text ends in a blank just when what it stands for does. -/
theorem getLast?_eq_blank_iff {c : Char} (hc : isBlank c = true) (h : Spells t s) :
    t.getLast? = some c ↔ s.getLast? = some c := by
  constructor
  · intro hlast
    obtain ⟨before, rfl⟩ := List.getLast?_eq_some_iff.mp hlast
    have hframed : Spells ([] ++ (before ++ [c])) s := h
    obtain ⟨core, rfl, -⟩ := (spells_frame_iff (by simp) (by simpa using hc)).mp hframed
    simp
  · intro hlast
    obtain ⟨before, rfl⟩ := List.getLast?_eq_some_iff.mp hlast
    obtain ⟨t₁, t₂, rfl, -, h₂⟩ := h.of_append
    obtain ⟨rest, rfl, hrest⟩ := spells_cons_blank (by simp [hc]) h₂
    cases hrest with
    | nil => simp

/-- What a tight text stands for is tight. -/
theorem tight_of_spells (h : Spells t s) (ht : Tight isBlank t) : Tight isBlank s := by
  constructor
  · intro c hc
    by_contra hblank
    obtain ⟨rest, rfl⟩ := List.head?_eq_some_iff.mp hc
    obtain ⟨rest, rfl, -⟩ := spells_cons_blank hblank h
    exact hblank (ht.head c rfl)
  · intro c hc
    by_contra hblank
    have hlast := getLast?_eq_blank_iff (Bool.eq_true_of_not_eq_false hblank) h
    exact hblank (ht.last c (hlast.mpr hc))

/-- Trimming may be done before unescaping as well as after it. -/
theorem unescape_trim_eq_ok_iff :
    unescape (trim t) = .ok s ↔ ∃ r, unescape t = .ok r ∧ trim r = s := by
  obtain ⟨front, back, ht, hfront, hback, htight⟩ := exists_frame_trimWhile isBlank t
  simp only [unescape_eq_ok_iff]
  constructor
  · intro h
    have hframed := (spells_frame_iff hfront hback).mpr ⟨s, rfl, h⟩
    refine ⟨front ++ (s ++ back), ht ▸ hframed, ?_⟩
    exact (tight_of_spells h htight).trimWhile_frame hfront hback
  · rintro ⟨r, hr, rfl⟩
    rw [ht] at hr
    obtain ⟨core, rfl, hcore⟩ := (spells_frame_iff hfront hback).mp hr
    have htrim : trim (front ++ (core ++ back)) = core :=
      (tight_of_spells hcore htight).trimWhile_frame hfront hback
    rw [htrim]
    exact hcore

end Blank

end TextKit.HeaderSafe
