import Mathlib.Data.List.Basic
import TextKit.Command.SortKey

/-!
# Numerals and sort keys are read back

Reading a numeral keeps the value of the digits so far in a word and stops when the next value
does not fit. It succeeds just on digits whose value is that of a word, and the shortest
numeral of a word is such a text.

A sort key is read from the digits of its field and the flags behind them. Flags are no digits, so
there is only one way to take such a text apart. Zeros in front of the digits make no difference,
nor do the order of the flags and how often they are repeated. The written form of a key is one of
these texts, so the key is read back from it.
-/

namespace TextKit

namespace Numeral

/-- More digits never make a smaller number. -/
theorem le_ofDigitChars (t : Text) (value : Nat) : value ≤ Nat.ofDigitChars 10 t value := by
  induction t generalizing value with
  | nil => exact Nat.le_refl _
  | cons c t ih =>
      rw [Nat.ofDigitChars_cons]
      have hrest := ih (10 * value + (c.toNat - '0'.toNat))
      omega

/-- Reading on succeeds just when all that follows are digits and the value fits a word. -/
theorem readFrom_eq_ok_iff {value n : UInt64} {t : Text} :
    readFrom value t = .ok n ↔
      (∀ c ∈ t, c.isDigit = true) ∧ Nat.ofDigitChars 10 t value.toNat = n.toNat := by
  induction t generalizing value with
  | nil => simp [readFrom, UInt64.toNat_inj]
  | cons c t ih =>
      have hnext : 10 * value.toNat + (c.toNat - '0'.toNat) =
          value.toNat * 10 + (c.toNat - '0'.toNat) := by omega
      rw [readFrom, Nat.ofDigitChars_cons, List.forall_mem_cons, hnext]
      by_cases hc : c.isDigit = true
      · rw [if_pos hc]
        dsimp only
        by_cases hfits : value.toNat * 10 + (c.toNat - '0'.toNat) < UInt64.size
        · rw [dif_pos hfits, ih, UInt64.toNat_ofNatLT, and_iff_right hc]
        · -- What does not fit yet will not fit with more digits either.
          have hle := le_ofDigitChars t (value.toNat * 10 + (c.toNat - '0'.toNat))
          have hn : n.toNat < UInt64.size := n.toNat_lt
          rw [dif_neg hfits]
          simp only [reduceCtorEq, false_iff, not_and]
          omega
      · simp [hc]

/-- A text is a numeral just when it has digits, nothing else, and a value that fits. -/
theorem readDigits_eq_ok_iff {t : Text} {n : UInt64} :
    readDigits t = .ok n ↔
      t ≠ [] ∧ (∀ c ∈ t, c.isDigit = true) ∧ Nat.ofDigitChars 10 t 0 = n.toNat := by
  rw [readDigits]
  cases t with
  | nil => simp
  | cons c t => simp [readFrom_eq_ok_iff]

theorem isDigit_of_mem_write {n : UInt64} {c : Char} (h : c ∈ write n) : c.isDigit = true :=
  Nat.isDigit_of_mem_toDigits (by decide) (by decide) h

theorem readDigits_write (n : UInt64) : readDigits (write n) = .ok n :=
  readDigits_eq_ok_iff.mpr
    ⟨Nat.toDigits_ne_nil, fun _ => isDigit_of_mem_write, Nat.ofDigitChars_ten_toDigits⟩

/-- A shortest numeral has no sign. -/
theorem read_write (n : UInt64) : read (write n) = .ok n := by
  have hdigits := readDigits_write n
  have hdigit : ∀ c ∈ write n, c.isDigit = true := fun _ => isDigit_of_mem_write
  generalize write n = t at hdigits hdigit
  unfold read
  split
  · exact absurd (hdigit '+' (by simp)) (by decide)
  · exact absurd (hdigit '+' (by simp)) (by decide)
  · exact hdigits

end Numeral

namespace Command.SortKey

/-- The flags of a key in its written form. -/
def flags (key : SortKey) : Text :=
  (if key.numeric then ['n'] else []) ++ (if key.descending then ['r'] else [])

theorem print_eq (key : SortKey) : key.print = Numeral.write key.field ++ key.flags :=
  List.append_assoc ..

/-- The written form has just the flags that the key has. -/
theorem flags_spec (key : SortKey) : (∀ c ∈ key.flags, c = 'n' ∨ c = 'r') ∧
    (key.numeric = true ↔ 'n' ∈ key.flags) ∧ (key.descending = true ↔ 'r' ∈ key.flags) := by
  obtain ⟨field, numeric, descending, hpos⟩ := key
  cases numeric <;> cases descending <;> simp [flags]

section Grammar

variable {digits flags : Text} {key : SortKey}

/-- Texts of which the written form of a key is made: digits for the number of a field, and flags
in any order, repeated or not. -/
structure Grammatical (digits flags : Text) : Prop where
  ne_nil : digits ≠ []
  isDigit : ∀ c ∈ digits, c.isDigit = true
  one_le : 1 ≤ Nat.ofDigitChars 10 digits 0
  lt_size : Nat.ofDigitChars 10 digits 0 < UInt64.size
  isFlag : ∀ c ∈ flags, c = 'n' ∨ c = 'r'

/-- The digits and flags make up the key. -/
structure Composes (digits flags : Text) (key : SortKey) : Prop extends
    Grammatical digits flags where
  field_eq : key.field.toNat = Nat.ofDigitChars 10 digits 0
  numeric_iff : key.numeric = true ↔ 'n' ∈ flags
  descending_iff : key.descending = true ↔ 'r' ∈ flags

theorem Grammatical.exists_composes (h : Grammatical digits flags) :
    ∃ key, Composes digits flags key := by
  have hfield : (UInt64.ofNatLT _ h.lt_size).toNat = Nat.ofDigitChars 10 digits 0 :=
    UInt64.toNat_ofNatLT
  refine ⟨⟨UInt64.ofNatLT _ h.lt_size, flags.contains 'n', flags.contains 'r', ?_⟩,
    h, hfield, ?_, ?_⟩
  · rw [hfield]
    exact h.one_le
  · exact List.contains_iff_mem
  · exact List.contains_iff_mem

/-- Flags add to what a key has, and everything else is refused. -/
theorem addFlags_eq_ok_iff {result : SortKey} :
    addFlags key flags = .ok result ↔
      (∀ c ∈ flags, c = 'n' ∨ c = 'r') ∧ result.field = key.field ∧
        (result.numeric = true ↔ key.numeric = true ∨ 'n' ∈ flags) ∧
        (result.descending = true ↔ key.descending = true ∨ 'r' ∈ flags) := by
  induction flags generalizing key with
  | nil =>
      obtain ⟨field, numeric, descending, hpos⟩ := key
      obtain ⟨field', numeric', descending', hpos'⟩ := result
      simp [addFlags, eq_comm]
  | cons c flags ih =>
      rw [addFlags, List.forall_mem_cons]
      split
      · rename_i hn
        rw [ih]
        simp [hn]
      · rename_i hn
        split
        · rename_i hr
          rw [ih]
          simp [hr]
        · rename_i hr
          simp [hn, hr]

theorem isDigit_of_flag {c : Char} (h : c = 'n' ∨ c = 'r') : c.isDigit = false := by
  obtain rfl | rfl := h
  · rfl
  · rfl

/-- The digits end where the flags begin. -/
theorem Grammatical.span_eq (h : Grammatical digits flags) :
    (digits ++ flags).takeWhile Char.isDigit = digits ∧
      (digits ++ flags).dropWhile Char.isDigit = flags := by
  rw [List.takeWhile_append_of_pos h.isDigit, List.dropWhile_append_of_pos h.isDigit]
  cases flags with
  | nil => exact ⟨List.append_nil digits, rfl⟩
  | cons c flags =>
      have hc : ¬ c.isDigit = true := by simp [isDigit_of_flag (h.isFlag c List.mem_cons_self)]
      rw [List.takeWhile_cons_of_neg hc, List.dropWhile_cons_of_neg hc]
      exact ⟨List.append_nil digits, rfl⟩

/-- A key is read from the digits and flags that make it up, and from nothing else. -/
theorem parse_eq_ok_iff {t : Text} :
    parse t = .ok key ↔ ∃ digits flags, t = digits ++ flags ∧ Composes digits flags key := by
  constructor
  · intro h
    rw [parse] at h
    split at h
    · cases h
    · rename_i field hfield
      obtain ⟨hne, hdigits, hvalue⟩ := Numeral.readDigits_eq_ok_iff.mp hfield
      split at h
      · rename_i hpos
        obtain ⟨hflags, hkey, hnumeric, hdescending⟩ := addFlags_eq_ok_iff.mp h
        refine ⟨_, _, List.takeWhile_append_dropWhile.symm,
          ⟨hne, hdigits, ?_, ?_, hflags⟩, ?_, ?_, ?_⟩
        · exact hvalue ▸ hpos
        · exact hvalue ▸ field.toNat_lt
        · rw [hkey, hvalue]
        · simpa using hnumeric
        · simpa using hdescending
      · cases h
  · rintro ⟨digits, flags, rfl, h⟩
    obtain ⟨htake, hdrop⟩ := h.span_eq
    have hread : Numeral.readDigits digits = .ok key.field :=
      Numeral.readDigits_eq_ok_iff.mpr ⟨h.ne_nil, h.isDigit, h.field_eq.symm⟩
    rw [parse, htake, hdrop, hread]
    dsimp only
    rw [dif_pos key.field_pos, addFlags_eq_ok_iff]
    refine ⟨h.isFlag, rfl, ?_, ?_⟩
    · simpa using h.numeric_iff
    · simpa using h.descending_iff

end Grammar

theorem composes_print (key : SortKey) : Composes (Numeral.write key.field) key.flags key := by
  obtain ⟨hne, hdigits, hvalue⟩ :=
    Numeral.readDigits_eq_ok_iff.mp (Numeral.readDigits_write key.field)
  obtain ⟨hflags, hnumeric, hdescending⟩ := key.flags_spec
  refine ⟨⟨hne, hdigits, ?_, ?_, hflags⟩, hvalue.symm, hnumeric, hdescending⟩
  · exact hvalue ▸ key.field_pos
  · exact hvalue ▸ key.field.toNat_lt

/-- Every key is read back from its written form. -/
theorem parse_print (key : SortKey) : parse key.print = .ok key :=
  parse_eq_ok_iff.mpr ⟨_, _, key.print_eq, key.composes_print⟩

/-- A text is read as a key just when it is made of digits for the number of a field, which leading
zeros do not change, and of flags. The key has that field, and has each flag that occurs. Every key
is read back from its written form. -/
theorem parse_exact :
    (∀ t, (∃ key, parse t = .ok key) ↔
      ∃ digits flags, t = digits ++ flags ∧ Grammatical digits flags) ∧
    (∀ t key, parse t = .ok key ↔
      ∃ digits flags, t = digits ++ flags ∧ Composes digits flags key) ∧
    ∀ key : SortKey, parse key.print = .ok key := by
  refine ⟨?_, fun t key => parse_eq_ok_iff, parse_print⟩
  intro t
  constructor
  · rintro ⟨key, hkey⟩
    obtain ⟨digits, flags, ht, hcomposes⟩ := parse_eq_ok_iff.mp hkey
    exact ⟨digits, flags, ht, hcomposes.toGrammatical⟩
  · rintro ⟨digits, flags, ht, hgrammatical⟩
    obtain ⟨key, hcomposes⟩ := hgrammatical.exists_composes
    exact ⟨key, parse_eq_ok_iff.mpr ⟨digits, flags, ht, hcomposes⟩⟩

/-- Zeros in front of the digits do no harm, nor does a flag that is repeated. -/
example : parse ['0', '3', 'r', 'n', 'r'] = .ok ⟨3, true, true, by decide⟩ := rfl

end Command.SortKey

end TextKit
