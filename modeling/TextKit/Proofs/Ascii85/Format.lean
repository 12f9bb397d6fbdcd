import TextKit.Proofs.Ascii85.Words

/-!
# What an Ascii85 text denotes

The format is stated here without the reader. A text is a run of full groups,
followed by at most one short group. Each group denotes bytes of its own, and the
text denotes those of its groups in order.

The least word that a group can have, once its first digits are known, has the
digit zero in the places that are free. It never decreases as digits are added.
This is why a group that is too great can be refused before it is complete.
-/

namespace TextKit.Ascii85

/-- Four bytes that make up a number, the most significant first. -/
structure FourBytes (number : Nat) (bytes : Bytes) : Prop where
  length_eq : bytes.length = 4
  word_eq : wordOfBytes bytes = number

/-- The digits of a short group, filled up with the greatest digit. -/
def padded (t : Text) : Text := t ++ List.replicate (5 - t.length) lastChar

/-- A full group is `z` for four zero bytes, or five digits for the bytes of their
number. -/
inductive FullGroup : Text → Bytes → Prop where
  | zero : FullGroup [zeroGroup] [0, 0, 0, 0]
  | digits {t : Text} {bytes : Bytes} (length_eq : t.length = 5)
      (digits : ∀ c ∈ t, isDigit c = true) (fits : numeral t ≤ 2 ^ 32 - 1)
      (bytes_eq : FourBytes (numeral t) bytes) : FullGroup t bytes

/-- A short group is two to four digits. It is read as if filled up, and has one
byte fewer than digits. -/
structure ShortGroup (t : Text) (bytes : Bytes) : Prop where
  two_le : 2 ≤ t.length
  le_four : t.length ≤ 4
  digits : ∀ c ∈ t, isDigit c = true
  fits : numeral (padded t) ≤ 2 ^ 32 - 1
  bytes_eq : ∃ four, FourBytes (numeral (padded t)) four ∧ bytes = four.take (t.length - 1)

/-- Full groups in a row. -/
inductive FullGroups : Text → Bytes → Prop where
  | nil : FullGroups [] []
  | cons {t s : Text} {a b : Bytes} : FullGroup t a → FullGroups s b → FullGroups (t ++ s) (a ++ b)

/-- The bytes that a text denotes. -/
def Denotes (t : Text) (bytes : Bytes) : Prop :=
  ∃ groups last a b, t = groups ++ last ∧ bytes = a ++ b ∧ FullGroups groups a ∧
    (last = [] ∧ b = [] ∨ ShortGroup last b)

/-- A character of an Ascii85 text: a digit, or the short form of a zero group. -/
def InAlphabet (c : Char) : Prop := isDigit c = true ∨ c = zeroGroup

theorem FullGroup.inAlphabet {t : Text} {bytes : Bytes} (h : FullGroup t bytes) :
    ∀ c ∈ t, InAlphabet c := by
  cases h with
  | zero => exact fun c hc => .inr (List.mem_singleton.mp hc)
  | digits _ digits _ _ => exact fun c hc => .inl (digits c hc)

theorem FullGroups.inAlphabet {t : Text} {bytes : Bytes} (h : FullGroups t bytes) :
    ∀ c ∈ t, InAlphabet c := by
  induction h with
  | nil => exact fun c hc => absurd hc List.not_mem_nil
  | cons hgroup _ ih => exact List.forall_mem_append.mpr ⟨hgroup.inAlphabet, ih⟩

/-- A text that denotes bytes has only characters of the alphabet. -/
theorem Denotes.inAlphabet {t : Text} {bytes : Bytes} (h : Denotes t bytes) :
    ∀ c ∈ t, InAlphabet c := by
  obtain ⟨groups, last, a, b, rfl, rfl, hgroups, hlast⟩ := h
  refine List.forall_mem_append.mpr ⟨hgroups.inAlphabet, ?_⟩
  rcases hlast with ⟨rfl, -⟩ | hshort
  · exact fun c hc => absurd hc List.not_mem_nil
  · exact fun c hc => .inl (hshort.digits c hc)

/-- The bytes of a word are four, whatever the word. -/
theorem fourBytes_bytesOfWord {word : Nat} (h : word < 2 ^ 32) :
    FourBytes word (bytesOfWord word) :=
  ⟨length_bytesOfWord word, wordOfBytes_bytesOfWord h⟩

theorem FourBytes.eq_bytesOfWord {word : Nat} {bytes : Bytes} (h : FourBytes word bytes) :
    bytes = bytesOfWord word :=
  (bytesOfWord_eq_of_wordOfBytes h.length_eq h.word_eq).symm

/-- The least word of a group that begins with the digits `p`. -/
def leastWord (p : Text) : Nat := numeral p * 85 ^ (5 - p.length)

theorem leastWord_of_length_eq {p : Text} (h : p.length = 5) : leastWord p = numeral p := by
  rw [leastWord, h, Nat.sub_self, Nat.pow_zero, Nat.mul_one]

theorem leastWord_concat {p : Text} (c : Char) (h : p.length < 5) :
    leastWord (p ++ [c]) = leastWord p + digitValue c * 85 ^ (4 - p.length) := by
  have hpow : 85 ^ (5 - p.length) = 85 * 85 ^ (4 - p.length) := by
    rw [show 5 - p.length = 4 - p.length + 1 by omega, Nat.pow_succ']
  have hc : numeral [c] = digitValue c := by simp [numeral]
  simp only [leastWord, numeral_append, List.length_append, List.length_singleton, hc, hpow,
    show 5 - (p.length + 1) = 4 - p.length by omega]
  ring

/-- More digits never make the least word smaller. -/
theorem leastWord_le_append {p t : Text} (h : p.length + t.length ≤ 5) :
    leastWord p ≤ leastWord (p ++ t) := by
  have hpow : 85 ^ (5 - p.length) = 85 ^ t.length * 85 ^ (5 - (p ++ t).length) := by
    rw [← Nat.pow_add, List.length_append,
      show t.length + (5 - (p.length + t.length)) = 5 - p.length by omega]
  rw [leastWord, leastWord, hpow, ← Nat.mul_assoc, numeral_append]
  exact Nat.mul_le_mul_right _ (Nat.le_add_right _ _)

/-- Filling up adds the greatest digits to the least word. -/
theorem numeral_padded (p : Text) :
    numeral (padded p) = leastWord p + numeral (List.replicate (5 - p.length) lastChar) := by
  rw [padded, numeral_append, List.length_replicate, leastWord]

end TextKit.Ascii85
