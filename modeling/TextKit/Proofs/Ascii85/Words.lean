import Mathlib.Data.Nat.Digits.Lemmas
import TextKit.Ascii85.Reader

/-!
# Words written with digits and with bytes

Digits denote a number in base 85 and bytes one in base 256, both with the most
significant first. The two readings share their arithmetic: appending shifts the
number of the front part, and the number stays below the power of the base.

The machine words of the reader are related to these numbers at the end. A sum
that would not fit a word is refused, so no accepted sum is a wrapped one.
-/

namespace TextKit.Ascii85

/-- The distance of a character from the first digit. -/
def digitValue (c : Char) : Nat := c.toNat - firstChar.toNat

theorem isDigit_iff {c : Char} :
    isDigit c = true ↔ firstChar.toNat ≤ c.toNat ∧ c.toNat ≤ lastChar.toNat := by
  rw [isDigit, Bool.and_eq_true, decide_eq_true_eq, decide_eq_true_eq]
  exact Iff.rfl

theorem digitValue_lt {c : Char} (h : isDigit c = true) : digitValue c < 85 := by
  have hle : c.toNat ≤ 117 := (isDigit_iff.mp h).2
  change c.toNat - 33 < 85
  omega

theorem digitValue_inj {c d : Char} (hc : isDigit c = true) (hd : isDigit d = true)
    (h : digitValue c = digitValue d) : c = d := by
  have hc' := (isDigit_iff.mp hc).1
  have hd' := (isDigit_iff.mp hd).1
  unfold digitValue at h
  exact Char.toNat_inj.mp (by omega)

/-- Characters are ordered as their values are. -/
theorem lt_of_digitValue_lt {c d : Char} (h : digitValue c < digitValue d) : c < d := by
  have hlt : c.toNat < d.toNat := by
    unfold digitValue at h
    omega
  exact hlt

/-- The number that digits denote when the most significant comes first. -/
def numeral (t : Text) : Nat := t.foldl (fun value c => value * 85 + digitValue c) 0

private theorem foldl_base {α : Type} (base : Nat) (f : α → Nat) (xs : List α) :
    xs.foldl (fun value x => value * base + f x) 0 = Nat.ofDigits base (xs.map f).reverse := by
  induction xs using List.reverseRecOn with
  | nil => rfl
  | append_singleton xs x ih =>
      rw [List.foldl_append, ih, List.map_append, List.reverse_append]
      simp only [List.foldl_cons, List.foldl_nil, List.map_cons, List.map_nil,
        List.reverse_singleton, List.singleton_append, Nat.ofDigits_cons]
      rw [Nat.mul_comm, Nat.add_comm]

theorem numeral_eq_ofDigits (t : Text) :
    numeral t = Nat.ofDigits 85 (t.map digitValue).reverse := foldl_base 85 digitValue t

theorem wordOfBytes_eq_ofDigits (bytes : Bytes) :
    wordOfBytes bytes = Nat.ofDigits 256 (bytes.map UInt8.toNat).reverse :=
  foldl_base 256 UInt8.toNat bytes

private theorem ofDigits_append {α : Type} (base : Nat) (f : α → Nat) (xs ys : List α) :
    Nat.ofDigits base ((xs ++ ys).map f).reverse =
      Nat.ofDigits base (xs.map f).reverse * base ^ ys.length +
        Nat.ofDigits base (ys.map f).reverse := by
  rw [List.map_append, List.reverse_append, Nat.ofDigits_append, List.length_reverse,
    List.length_map, Nat.add_comm, Nat.mul_comm]

/-- Digits behind others shift what stands in front of them. -/
theorem numeral_append (s t : Text) :
    numeral (s ++ t) = numeral s * 85 ^ t.length + numeral t := by
  simp only [numeral_eq_ofDigits]
  exact ofDigits_append 85 digitValue s t

theorem numeral_cons (c : Char) (t : Text) :
    numeral (c :: t) = digitValue c * 85 ^ t.length + numeral t := by
  have happend := numeral_append [c] t
  rwa [show numeral [c] = digitValue c by simp [numeral]] at happend

theorem numeral_lt {t : Text} (h : ∀ c ∈ t, isDigit c = true) : numeral t < 85 ^ t.length := by
  have hdigits : ∀ d ∈ (t.map digitValue).reverse, d < 85 := by
    intro d hd
    obtain ⟨c, hc, rfl⟩ := List.mem_map.mp (List.mem_reverse.mp hd)
    exact digitValue_lt (h c hc)
  have hlt := Nat.ofDigits_lt_base_pow_length (by decide) hdigits
  rw [List.length_reverse, List.length_map] at hlt
  exact (numeral_eq_ofDigits t).trans_lt hlt

theorem wordOfBytes_append (a b : Bytes) :
    wordOfBytes (a ++ b) = wordOfBytes a * 256 ^ b.length + wordOfBytes b := by
  simp only [wordOfBytes_eq_ofDigits]
  exact ofDigits_append 256 UInt8.toNat a b

private theorem lt_of_mem_map_toNat (bytes : Bytes) :
    ∀ d ∈ (bytes.map UInt8.toNat).reverse, d < 256 := by
  intro d hd
  obtain ⟨b, -, rfl⟩ := List.mem_map.mp (List.mem_reverse.mp hd)
  exact b.toNat_lt

theorem wordOfBytes_lt (bytes : Bytes) : wordOfBytes bytes < 256 ^ bytes.length := by
  have hlt := Nat.ofDigits_lt_base_pow_length (by decide) (lt_of_mem_map_toNat bytes)
  rw [List.length_reverse, List.length_map] at hlt
  exact (wordOfBytes_eq_ofDigits bytes).trans_lt hlt

/-- Byte strings of the same length are told apart by their numbers. -/
theorem wordOfBytes_inj {a b : Bytes} (hlen : a.length = b.length)
    (hword : wordOfBytes a = wordOfBytes b) : a = b := by
  rw [wordOfBytes_eq_ofDigits, wordOfBytes_eq_ofDigits] at hword
  have hrev := Nat.ofDigits_inj_of_len_eq (by decide) (by simpa using hlen)
    (lt_of_mem_map_toNat a) (lt_of_mem_map_toNat b) hword
  exact List.map_injective_iff.mpr (fun _ _ => UInt8.toNat_inj.mp) (List.reverse_injective hrev)

/-- The bytes of a word denote it. -/
theorem wordOfBytes_bytesOfWord {word : Nat} (h : word < 2 ^ 32) :
    wordOfBytes (bytesOfWord word) = word := by
  simp only [wordOfBytes, bytesOfWord, List.foldl_cons, List.foldl_nil, UInt8.toNat_ofNat']
  omega

theorem bytesOfWord_eq_of_wordOfBytes {bytes : Bytes} {word : Nat} (hlen : bytes.length = 4)
    (hword : wordOfBytes bytes = word) : bytesOfWord word = bytes := by
  have hlt := wordOfBytes_lt bytes
  rw [hlen, hword] at hlt
  exact wordOfBytes_inj hlen.symm ((wordOfBytes_bytesOfWord hlt).trans hword.symm)

/-- The bytes in front of the last `k` lose what these contribute. -/
theorem wordOfBytes_take (bytes : Bytes) {k : Nat} (h : k ≤ bytes.length) :
    wordOfBytes (bytes.take (bytes.length - k)) = wordOfBytes bytes / 256 ^ k := by
  have hlen : (bytes.drop (bytes.length - k)).length = k := by simp; omega
  have hlt := wordOfBytes_lt (bytes.drop (bytes.length - k))
  rw [hlen] at hlt
  conv => rhs; rw [← List.take_append_drop (bytes.length - k) bytes, wordOfBytes_append, hlen]
  rw [Nat.mul_comm, Nat.mul_add_div (by positivity), Nat.div_eq_of_lt hlt, Nat.add_zero]

/-- The greatest digit in each of `k` places. -/
theorem numeral_replicate_lastChar (k : Nat) :
    numeral (List.replicate k lastChar) + 1 = 85 ^ k := by
  induction k with
  | zero => rfl
  | succ k ih =>
      rw [List.replicate_succ', numeral_append, Nat.pow_succ, ← ih]
      simp only [List.length_singleton, show numeral [lastChar] = 84 from rfl]
      omega

theorem toNat_weight (place : Fin 5) : (weights.get place).toNat = 85 ^ (4 - place.val) := by
  revert place
  decide

/-- Adding a weighted digit gives the exact sum, or nothing when that is no word. -/
theorem accumulate?_eq_some_iff {value digit word : UInt32} {place : Fin 5} :
    accumulate? value digit place = some word ↔
      word.toNat = value.toNat + digit.toNat * 85 ^ (4 - place.val) := by
  simp only [accumulate?, Option.bind_eq_some_iff, Word.product?_eq_some_iff,
    Word.sum?_eq_some_iff, Word.toNat_uint32, toNat_weight]
  rw [Nat.mul_comm digit.toNat]
  constructor
  · rintro ⟨weighted, hweighted, hword⟩
    rw [hword, hweighted]
  · intro hword
    have hlt := word.toNat_lt
    have hweighted : (UInt32.ofNat (85 ^ (4 - place.val) * digit.toNat)).toNat =
        85 ^ (4 - place.val) * digit.toNat :=
      UInt32.toNat_ofNat_of_lt' (show _ < 2 ^ 32 by omega)
    exact ⟨_, hweighted, by rw [hweighted, hword]⟩

/-- Adding a weighted digit fails just when the exact sum is no word. -/
theorem accumulate?_eq_none_iff {value digit : UInt32} {place : Fin 5} :
    accumulate? value digit place = none ↔
      2 ^ 32 ≤ value.toNat + digit.toNat * 85 ^ (4 - place.val) := by
  rw [Option.eq_none_iff_forall_ne_some]
  constructor
  · intro h
    by_contra hlt
    apply h (UInt32.ofNat (value.toNat + digit.toNat * 85 ^ (4 - place.val)))
    exact accumulate?_eq_some_iff.mpr (UInt32.toNat_ofNat_of_lt' (Nat.lt_of_not_le hlt))
  · intro h word hword
    have hlt := word.toNat_lt
    rw [accumulate?_eq_some_iff.mp hword] at hlt
    omega

theorem digit?_eq_some_iff {c : Char} {digit : UInt32} :
    digit? c = some digit ↔ isDigit c = true ∧ digit.toNat = digitValue c := by
  unfold digit?
  split
  · rename_i h
    have hle : firstChar.val ≤ c.val := (isDigit_iff.mp h).1
    rw [Option.some.injEq, ← UInt32.toNat_inj, UInt32.toNat_sub_of_le _ _ hle]
    exact ⟨fun he => ⟨h, he.symm⟩, fun he => he.2.symm⟩
  · rename_i h
    simp [h]

end TextKit.Ascii85
