import Mathlib.Data.Nat.Notation
import TextKit.Text.Quoted

/-!
# Quoted characters are read back

A character between quotes appears in one of three forms, which are told apart by how they begin:
only escapes begin with a backslash, and only those in hexadecimal go on with the letter `u`. A
short escape is two characters long, and the digits of a code point end at the closing brace. So
the form of a character is found at the front of a text, whatever follows it.
-/

namespace TextKit.Text

section Digits

variable {b m n : Nat}

theorem digitChar_inj (hm : m < 16) (hn : n < 16) (h : m.digitChar = n.digitChar) : m = n := by
  have hall : ∀ m < 16, ∀ n < 16, Nat.digitChar m = Nat.digitChar n → m = n := by decide
  exact hall m hm n hn h

/-- A number is determined by its digits. There are enough of them for a base up to sixteen. -/
theorem toDigits_inj (hb : 1 < b) (hb' : b ≤ 16) (h : Nat.toDigits b m = Nat.toDigits b n) :
    m = n := by
  induction m using Nat.strongRecOn generalizing n with
  | ind m ih =>
      have hlast : ∀ k, k % b < 16 := fun k =>
        Nat.lt_of_lt_of_le (Nat.mod_lt k (Nat.zero_lt_of_lt hb)) hb'
      rw [Nat.toDigits_eq_if hb, Nat.toDigits_eq_if (n := n) hb] at h
      by_cases hm : m < b
      · by_cases hn : n < b
        · rw [if_pos hm, if_pos hn] at h
          exact digitChar_inj (by omega) (by omega) (List.singleton_inj.mp h)
        · rw [if_pos hm, if_neg hn] at h
          have hdigits : [] ++ [m.digitChar] = Nat.toDigits b (n / b) ++ [(n % b).digitChar] := h
          exact absurd (List.append_inj' hdigits rfl).1.symm Nat.toDigits_ne_nil
      · by_cases hn : n < b
        · rw [if_neg hm, if_pos hn] at h
          have hdigits : Nat.toDigits b (m / b) ++ [(m % b).digitChar] = [] ++ [n.digitChar] := h
          exact absurd (List.append_inj' hdigits rfl).1 Nat.toDigits_ne_nil
        · rw [if_neg hm, if_neg hn] at h
          obtain ⟨hfront, hdigit⟩ := List.append_inj' h rfl
          have hdiv : m / b = n / b := ih (m / b) (Nat.div_lt_self (by omega) hb) hfront
          have hmod : m % b = n % b :=
            digitChar_inj (hlast m) (hlast n) (List.singleton_inj.mp hdigit)
          rw [← Nat.div_add_mod m b, hdiv, hmod, Nat.div_add_mod]

theorem brace_not_mem_toDigits (hb : 1 < b) : '}' ∉ Nat.toDigits b n := by
  induction n using Nat.strongRecOn with
  | ind n ih =>
      rw [Nat.toDigits_eq_if hb]
      split
      · simp
      · rename_i hn
        have hfront := ih (n / b) (Nat.div_lt_self (by omega) hb)
        simp [hfront]

end Digits

/-- What stands in front of the first occurrence of a character is determined. -/
theorem append_cons_inj {c : Char} {s s' t t' : Text} (hs : c ∉ s) (hs' : c ∉ s')
    (h : s ++ c :: t = s' ++ c :: t') : s = s' ∧ t = t' := by
  induction s generalizing s' with
  | nil =>
      cases s' with
      | nil => exact ⟨rfl, List.tail_eq_of_cons_eq h⟩
      | cons d s' => exact absurd (List.head_eq_of_cons_eq h) (List.ne_of_not_mem_cons hs')
  | cons d s ih =>
      cases s' with
      | nil => exact absurd (List.head_eq_of_cons_eq h).symm (List.ne_of_not_mem_cons hs)
      | cons d' s' =>
          obtain ⟨rfl, htail⟩ := List.cons.inj h
          obtain ⟨rfl, rfl⟩ := ih (List.not_mem_of_not_mem_cons hs)
            (List.not_mem_of_not_mem_cons hs') htail
          exact ⟨rfl, rfl⟩

/-- The characters with a short escape, each with its letter. -/
def shortEscapes : List (Char × Char) :=
  [('\x00', '0'), ('\t', 't'), ('\r', 'r'), ('\n', 'n'), ('\'', '\''), ('\\', '\\')]

theorem shortEscape?_eq_some_iff {c e : Char} :
    shortEscape? c = some e ↔ (c, e) ∈ shortEscapes := by
  fun_cases shortEscape? c <;> simp_all [shortEscapes, eq_comm]

theorem shortEscapes_spec : (∀ p ∈ shortEscapes, p.2 ≠ 'u') ∧
    ∀ p ∈ shortEscapes, ∀ q ∈ shortEscapes, p.2 = q.2 → p.1 = q.1 := by
  decide

/-- The three forms in which a character appears between the quotes. -/
inductive Form (c : Char) : Text → Prop where
  | short {e : Char} (h : (c, e) ∈ shortEscapes) : Form c ['\\', e]
  | hexadecimal : Form c ('\\' :: 'u' :: '{' :: (Nat.toDigits 16 c.toNat ++ ['}']))
  | literal (h : c ≠ '\\') : Form c [c]

theorem form_escaped (c : Char) : Form c (escaped c) := by
  unfold escaped
  split
  · rename_i e he
    exact .short (shortEscape?_eq_some_iff.mp he)
  · rename_i hnone
    split
    · exact .hexadecimal
    · refine .literal ?_
      rintro rfl
      cases hnone

/-- A form at the front of a text determines its character and what follows it. -/
theorem Form.append_inj {c c' : Char} {f f' s s' : Text} (hf : Form c f) (hf' : Form c' f')
    (h : f ++ s = f' ++ s') : c = c' ∧ s = s' := by
  obtain ⟨hletter, hinj⟩ := shortEscapes_spec
  cases hf with
  | short he =>
      cases hf' with
      | short he' =>
          simp only [List.cons_append, List.nil_append, List.cons.injEq, true_and] at h
          exact ⟨hinj _ he _ he' h.1, h.2⟩
      | hexadecimal =>
          simp only [List.cons_append, List.nil_append, List.cons.injEq, true_and] at h
          exact absurd h.1 (hletter _ he)
      | literal hc' =>
          simp only [List.cons_append, List.nil_append, List.cons.injEq] at h
          exact absurd h.1.symm hc'
  | hexadecimal =>
      cases hf' with
      | short he' =>
          simp only [List.cons_append, List.nil_append, List.cons.injEq, true_and] at h
          exact absurd h.1.symm (hletter _ he')
      | hexadecimal =>
          simp only [List.cons_append, List.append_assoc, List.nil_append, List.cons.injEq,
            true_and] at h
          obtain ⟨hdigits, hrest⟩ := append_cons_inj (brace_not_mem_toDigits (by decide))
            (brace_not_mem_toDigits (by decide)) h
          exact ⟨Char.toNat_inj.mp (toDigits_inj (by decide) (by decide) hdigits), hrest⟩
      | literal hc' =>
          simp only [List.cons_append, List.nil_append, List.cons.injEq] at h
          exact absurd h.1.symm hc'
  | literal hc =>
      cases hf' with
      | short he' =>
          simp only [List.cons_append, List.nil_append, List.cons.injEq] at h
          exact absurd h.1 hc
      | hexadecimal =>
          simp only [List.cons_append, List.nil_append, List.cons.injEq] at h
          exact absurd h.1 hc
      | literal hc' => exact List.cons.inj h

/-- A quoted character at the front of a text determines the character and what follows. -/
theorem quoted_append_inj {c c' : Char} {s s' : Text} (h : quoted c ++ s = quoted c' ++ s') :
    c = c' ∧ s = s' := by
  simp only [quoted, List.cons_append, List.append_assoc, List.nil_append, List.cons.injEq,
    true_and] at h
  obtain ⟨hc, hrest⟩ := (form_escaped c).append_inj (form_escaped c') h
  exact ⟨hc, List.tail_eq_of_cons_eq hrest⟩

end TextKit.Text
