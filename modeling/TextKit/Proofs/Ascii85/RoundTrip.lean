import TextKit.Proofs.Ascii85.Decoding
import TextKit.Ascii85.Writer

/-!
# Bytes come back from their text

The text that the writer gives to bytes denotes these bytes. For a full group this
is the expansion in base 85. The digits that a short group drops are restored as
greatest digits, which adds less than the bytes that were filled up with zero can
hold, so the bytes in front of those are not changed.
-/

namespace TextKit.Ascii85

theorem isDigit_digitChar {d : Nat} (h : d < 85) : isDigit (digitChar d) = true := by
  revert d
  decide

theorem digitValue_digitChar {d : Nat} (h : d < 85) : digitValue (digitChar d) = d := by
  revert d
  decide

theorem isDigit_of_mem_map_digits (word : Nat) (ds : List Nat) (hds : ∀ d ∈ ds, d ∈ digits word) :
    ∀ c ∈ ds.map digitChar, isDigit c = true := by
  intro c hc
  obtain ⟨d, hd, rfl⟩ := List.mem_map.mp hc
  apply isDigit_digitChar
  have hmem := hds d hd
  simp only [digits, List.mem_cons, List.not_mem_nil, or_false] at hmem
  omega

private theorem getElem_digits (word : Nat) {j : Nat} (h : j < (digits word).length) :
    (digits word)[j] = word / 85 ^ (4 - j) % 85 := by
  rw [length_digits] at h
  interval_cases j <;> simp [digits, Nat.div_div_eq_div_mul]

/-- The first digits of a word denote what division leaves of it. -/
theorem numeral_take_digits (word : Nat) {j : Nat} (h : word < 85 ^ 5) (hj : j ≤ 5) :
    numeral (((digits word).take j).map digitChar) = word / 85 ^ (5 - j) := by
  induction j with
  | zero => exact (Nat.div_eq_of_lt h).symm
  | succ j ih =>
      have hj' : j < (digits word).length := hj
      have hlast : numeral [digitChar (word / 85 ^ (4 - j) % 85)] = word / 85 ^ (4 - j) % 85 := by
        simpa [numeral] using digitValue_digitChar (Nat.mod_lt _ (by decide))
      rw [List.take_succ_eq_append_getElem hj', getElem_digits, List.map_append, List.map_singleton,
        numeral_append, hlast, ih (by omega), List.length_singleton, Nat.pow_one,
        show 5 - (j + 1) = 4 - j by omega, show 5 - j = 4 - j + 1 by omega, Nat.pow_succ,
        ← Nat.div_div_eq_div_mul]
      exact Nat.div_add_mod' _ 85

/-- All digits of a word denote it. -/
theorem numeral_digits {word : Nat} (h : word < 85 ^ 5) :
    numeral ((digits word).map digitChar) = word := by
  have hnumeral := numeral_take_digits word h (Nat.le_refl 5)
  rwa [List.take_of_length_le (Nat.le_refl 5), Nat.sub_self, Nat.pow_zero, Nat.div_one] at hnumeral

/-- The text of a full group is a full group for its bytes. -/
theorem fullGroup_spec {bytes : Bytes} (h : bytes.length = 4) :
    FullGroup (fullGroup (wordOfBytes bytes)) bytes := by
  have hlt := wordOfBytes_lt bytes
  rw [h] at hlt
  unfold fullGroup
  split
  · rename_i hzero
    rw [← bytesOfWord_eq_of_wordOfBytes h hzero]
    exact .zero
  · have hnumeral := numeral_digits (show wordOfBytes bytes < 85 ^ 5 by omega)
    refine .digits (by simp) (isDigit_of_mem_map_digits _ _ fun _ hd => hd) ?_ ?_
    · omega
    · exact ⟨h, hnumeral.symm⟩

/-- Filling up the digits that are kept takes the word to the end of its stretch. -/
theorem numeral_padded_take_digits (word : Nat) {k : Nat} (h : word < 85 ^ 5) (hk : k ≤ 5) :
    numeral (padded (((digits word).take (5 - k)).map digitChar)) + 1 =
      (word / 85 ^ k + 1) * 85 ^ k := by
  have hlen : (((digits word).take (5 - k)).map digitChar).length = 5 - k := by simp
  rw [padded, numeral_append, hlen, List.length_replicate, numeral_take_digits word h (by omega),
    show 5 - (5 - k) = k by omega, Nat.add_assoc, numeral_replicate_lastChar, Nat.succ_mul]

/-- Bytes in front are not changed by what is less than the place of the last of them. -/
theorem take_bytesOfWord {front : Bytes} {k : Nat} (value : Nat) (hlen : front.length + k = 4)
    (hle : wordOfBytes front * 256 ^ k ≤ value)
    (hlt : value < (wordOfBytes front + 1) * 256 ^ k) :
    value < 2 ^ 32 ∧ (bytesOfWord value).take front.length = front := by
  have hword : value < 2 ^ 32 := by
    refine Nat.lt_of_lt_of_le hlt ?_
    have hpow : (2 : Nat) ^ 32 = 256 ^ front.length * 256 ^ k := by
      rw [← Nat.pow_add, hlen]
      rfl
    rw [hpow]
    exact Nat.mul_le_mul_right _ (wordOfBytes_lt front)
  refine ⟨hword, wordOfBytes_inj (by simp; omega) ?_⟩
  have htake := wordOfBytes_take (bytesOfWord value) (show k ≤ 4 by omega)
  rw [length_bytesOfWord, show 4 - k = front.length by omega,
    wordOfBytes_bytesOfWord hword] at htake
  rw [htake]
  exact Nat.div_eq_of_lt_le hle hlt

theorem shortGroup_eq {tail : Bytes} (hne : tail ≠ []) :
    shortGroup tail = ((digits (wordOfBytes tail * 256 ^ (4 - tail.length))).take
      (tail.length + 1)).map digitChar := by
  have hzeros : wordOfBytes (List.replicate (4 - tail.length) 0) = 0 := by
    rw [wordOfBytes_eq_ofDigits]
    simp
  rw [shortGroup, if_neg (by simpa using hne), wordOfBytes_append, List.length_replicate, hzeros,
    Nat.add_zero]

/-- The text of one to three bytes is a short group for them. -/
theorem shortGroup_spec {tail : Bytes} (hne : tail ≠ []) (hlen : tail.length < 4) :
    ShortGroup (shortGroup tail) tail := by
  have hpos := List.length_pos_of_ne_nil hne
  obtain ⟨k, hk⟩ : ∃ k, tail.length + k = 4 := ⟨4 - tail.length, by omega⟩
  rw [shortGroup_eq hne, show 4 - tail.length = k by omega, show tail.length + 1 = 5 - k by omega]
  have hdrop : 85 ^ k ≤ 256 ^ k := Nat.pow_le_pow_left (by decide) k
  have hroom := (take_bytesOfWord _ hk (Nat.le_refl _)
    (Nat.mul_lt_mul_of_pos_right (Nat.lt_succ_self _) (by positivity))).1
  have hpadded := numeral_padded_take_digits (wordOfBytes tail * 256 ^ k) (show _ < 85 ^ 5 by omega)
    (show k ≤ 5 by omega)
  have hbelow : wordOfBytes tail * 256 ^ k <
      (wordOfBytes tail * 256 ^ k / 85 ^ k + 1) * 85 ^ k := by
    rw [Nat.mul_comm _ (85 ^ k)]
    exact Nat.lt_mul_div_succ _ (by positivity)
  have habove := Nat.div_mul_le_self (wordOfBytes tail * 256 ^ k) (85 ^ k)
  have hdigits := isDigit_of_mem_map_digits (wordOfBytes tail * 256 ^ k)
    ((digits (wordOfBytes tail * 256 ^ k)).take (5 - k)) fun _ hd => List.mem_of_mem_take hd
  have htlen : (((digits (wordOfBytes tail * 256 ^ k)).take (5 - k)).map digitChar).length =
      tail.length + 1 := by
    simp
    omega
  generalize ((digits (wordOfBytes tail * 256 ^ k)).take (5 - k)).map digitChar = t at *
  rw [Nat.succ_mul] at hpadded hbelow
  -- The digits that are filled in add less than the place of the last byte.
  obtain ⟨hfits, htake⟩ := take_bytesOfWord (numeral (padded t)) hk (by omega)
    (by rw [Nat.succ_mul]; omega)
  refine ⟨by omega, by omega, hdigits, by omega, bytesOfWord (numeral (padded t)),
    fourBytes_bytesOfWord hfits, ?_⟩
  rw [htlen, Nat.add_sub_cancel, htake]

/-- A full group of bytes in front is written before the rest. -/
theorem encode_append_of_length_eq {a : Bytes} (h : a.length = 4) (b : Bytes) :
    encode (a ++ b) = fullGroup (wordOfBytes a) ++ encode b := by
  match a, h with
  | [_, _, _, _], _ => exact encode_group ..

theorem Denotes.cons {t s : Text} {a b : Bytes} (hgroup : FullGroup t a) (h : Denotes s b) :
    Denotes (t ++ s) (a ++ b) := by
  obtain ⟨groups, last, a', b', rfl, rfl, hgroups, hlast⟩ := h
  exact ⟨t ++ groups, last, a ++ a', b', by simp, by simp, .cons hgroup hgroups, hlast⟩

/-- Induction along the groups of a byte string. -/
@[elab_as_elim]
theorem group_induction {motive : Bytes → Prop} (tail : ∀ last, last.length < 4 → motive last)
    (group : ∀ first rest, first.length = 4 → motive rest → motive (first ++ rest)) :
    ∀ bytes, motive bytes
  | a :: b :: c :: d :: rest => group [a, b, c, d] rest rfl (group_induction tail group rest)
  | [] => tail [] (by simp)
  | [a] => tail [a] (by simp)
  | [a, b] => tail [a, b] (by simp)
  | [a, b, c] => tail [a, b, c] (by simp)

/-- The text of bytes denotes them. -/
theorem denotes_encode (bytes : Bytes) : Denotes (encode bytes) bytes := by
  induction bytes using group_induction with
  | tail last h =>
      rw [encode_tail h]
      by_cases hne : last = []
      · subst hne
        exact ⟨[], [], [], [], rfl, rfl, .nil, .inl ⟨rfl, rfl⟩⟩
      · exact ⟨[], _, [], _, rfl, rfl, .nil, .inr (shortGroup_spec hne h)⟩
  | group first rest h ih =>
      rw [encode_append_of_length_eq h]
      exact ih.cons (fullGroup_spec h)

/-- What was written is read back. -/
theorem decode_encode (bytes : Bytes) : decode (encode bytes) = .ok bytes :=
  decode_eq_ok_iff.mpr (denotes_encode bytes)

end TextKit.Ascii85
