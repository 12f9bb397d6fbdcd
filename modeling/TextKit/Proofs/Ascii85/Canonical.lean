import Mathlib.Data.List.Shortlex
import TextKit.Proofs.Ascii85.RoundTrip

/-!
# The text that is written is the canonical one

Different texts may denote the same bytes. A full group of zero bytes has two of them,
and a short group has several, since the digits that are filled up when it is read need
not be those that were dropped when it was written.

Every text for the same bytes has the same groups, one for four bytes each and one for
the rest. So texts are compared group by group, first by length and then by the numbers
of their digits: of digits in the same number, the smaller numeral comes first.
-/

namespace TextKit.Ascii85

/-- Of two runs of digits, the one with the smaller number comes first. -/
theorem eq_or_lex_of_numeral_le {s t : Text} (hs : ∀ c ∈ s, isDigit c = true)
    (ht : ∀ c ∈ t, isDigit c = true) (hlen : s.length = t.length)
    (hle : numeral s ≤ numeral t) : s = t ∨ List.Lex (· < ·) s t := by
  induction s generalizing t with
  | nil => exact .inl (List.length_eq_zero_iff.mp hlen.symm).symm
  | cons c s ih =>
      cases t with
      | nil => cases hlen
      | cons d t =>
          obtain ⟨hc, hs'⟩ := List.forall_mem_cons.mp hs
          obtain ⟨hd, ht'⟩ := List.forall_mem_cons.mp ht
          have hlen' : s.length = t.length := Nat.succ.inj hlen
          rw [numeral_cons, numeral_cons, hlen'] at hle
          have hbound := numeral_lt ht'
          have hfirst : digitValue c < digitValue d + 1 := by
            refine Nat.lt_of_mul_lt_mul_right (a := 85 ^ t.length) ?_
            rw [Nat.succ_mul]
            omega
          rcases Nat.lt_or_eq_of_le (Nat.le_of_lt_succ hfirst) with hlt | heq
          · exact .inr (.rel (lt_of_digitValue_lt hlt))
          · obtain rfl := digitValue_inj hc hd heq
            rcases ih hs' ht' hlen' (by omega) with rfl | hlex
            · exact .inl rfl
            · exact .inr (.cons hlex)

/-- Runs of digits of the same length are told apart by their numbers. -/
theorem numeral_inj {s t : Text} (hs : ∀ c ∈ s, isDigit c = true)
    (ht : ∀ c ∈ t, isDigit c = true) (hlen : s.length = t.length)
    (heq : numeral s = numeral t) : s = t := by
  rcases eq_or_lex_of_numeral_le hs ht hlen (Nat.le_of_eq heq) with hst | hst
  · exact hst
  · rcases eq_or_lex_of_numeral_le ht hs hlen.symm (Nat.le_of_eq heq.symm) with hts | hts
    · exact hts.symm
    · exact absurd hts (Std.Asymm.asymm _ _ hst)

/-- A full group is the one that is written for its bytes, or longer. -/
theorem FullGroup.fullGroup_eq_or_length_lt {t : Text} {bytes : Bytes} (h : FullGroup t bytes) :
    fullGroup (wordOfBytes bytes) = t ∨ (fullGroup (wordOfBytes bytes)).length < t.length := by
  cases h with
  | zero => exact .inl (by decide)
  | digits length_eq digits fits bytes_eq =>
      rw [bytes_eq.word_eq, fullGroup]
      split
      · refine .inr ?_
        rw [length_eq]
        decide
      · refine .inl (numeral_inj (isDigit_of_mem_map_digits _ _ fun _ hd => hd) digits ?_ ?_)
        · simp [length_eq]
        · exact numeral_digits (by omega)

theorem ShortGroup.ne_nil {t : Text} {bytes : Bytes} (h : ShortGroup t bytes) : bytes ≠ [] := by
  have hlen := h.length_bytes
  have htwo := h.two_le
  rintro rfl
  rw [List.length_nil] at hlen
  omega

/-- No short group for the same bytes has a smaller number than the one that is written. -/
theorem ShortGroup.numeral_shortGroup_le {t : Text} {bytes : Bytes} (h : ShortGroup t bytes) :
    numeral (shortGroup bytes) ≤ numeral t := by
  have hlen := h.length_bytes
  have htwo := h.two_le
  have hfour := h.le_four
  have hfits := h.fits
  obtain ⟨k, hk⟩ : ∃ k, t.length + k = 5 := ⟨5 - t.length, by omega⟩
  have hword : wordOfBytes bytes = numeral (padded t) / 256 ^ k := by
    obtain ⟨four, hfour, rfl⟩ := h.bytes_eq
    have htake := wordOfBytes_take four (k := k) (by rw [hfour.length_eq]; omega)
    rwa [hfour.length_eq, hfour.word_eq, show 4 - k = t.length - 1 by omega] at htake
  have hpadded : numeral (padded t) + 1 = (numeral t + 1) * 85 ^ k := by
    rw [padded, numeral_append, List.length_replicate, Nat.add_assoc, numeral_replicate_lastChar,
      ← Nat.succ_mul, show 5 - t.length = k by omega]
  have hstretch : wordOfBytes bytes * 256 ^ k < (numeral t + 1) * 85 ^ k := by
    rw [← hpadded, hword]
    exact Nat.lt_succ_of_le (Nat.div_mul_le_self _ _)
  have hroom : wordOfBytes bytes * 256 ^ k < 85 ^ 5 := by
    rw [hword]
    refine Nat.lt_of_le_of_lt (Nat.div_mul_le_self _ _) ?_
    omega
  rw [shortGroup_eq h.ne_nil, numeral_take_digits _ (by rwa [show 4 - bytes.length = k by omega])
    (by omega), show 4 - bytes.length = k by omega, show 5 - (bytes.length + 1) = k by omega]
  exact Nat.le_of_lt_succ ((Nat.div_lt_iff_lt_mul (by positivity)).mpr hstretch)

/-- Of all short groups for the same bytes, the one that is written comes first. -/
theorem ShortGroup.shortGroup_eq_or_lex {t : Text} {bytes : Bytes} (h : ShortGroup t bytes) :
    (shortGroup bytes).length = t.length ∧
      (shortGroup bytes = t ∨ List.Lex (· < ·) (shortGroup bytes) t) := by
  have hlen := h.length_bytes
  have htwo := h.two_le
  have hfour := h.le_four
  have hspec := shortGroup_spec h.ne_nil (by omega)
  have hlen' : (shortGroup bytes).length = t.length := by
    have hlen'' := hspec.length_bytes
    have htwo' := hspec.two_le
    omega
  exact ⟨hlen', eq_or_lex_of_numeral_le hspec.digits h.digits hlen' h.numeral_shortGroup_le⟩

/-- Full groups in front do not change which text comes first, if they are not longer
than those that are written. -/
theorem FullGroups.encode_eq_or_shortlex {groups t : Text} {a b : Bytes}
    (h : FullGroups groups a) (hrest : encode b = t ∨ List.Shortlex (· < ·) (encode b) t) :
    encode (a ++ b) = groups ++ t ∨ List.Shortlex (· < ·) (encode (a ++ b)) (groups ++ t) := by
  induction h with
  | nil => exact hrest
  | @cons group groups first a hgroup _ ih =>
      rw [List.append_assoc, List.append_assoc, encode_append_of_length_eq hgroup.length_bytes]
      rcases hgroup.fullGroup_eq_or_length_lt with heq | hlt
      · rw [heq]
        rcases ih with heq' | hless
        · exact .inl (by rw [heq'])
        · exact .inr (hless.append_left _)
      · refine .inr (.of_length_lt ?_)
        have hle : (encode (a ++ b)).length ≤ (groups ++ t).length := by
          rcases ih with heq' | hless
          · rw [heq']
          · rcases List.shortlex_def.mp hless with hshort | ⟨hlen, -⟩
            · exact Nat.le_of_lt hshort
            · exact Nat.le_of_eq hlen
        rw [List.length_append, List.length_append]
        omega

/-- No text for the same bytes comes before the one that is written. -/
theorem Denotes.encode_eq_or_shortlex {t : Text} {bytes : Bytes} (h : Denotes t bytes) :
    encode bytes = t ∨ List.Shortlex (· < ·) (encode bytes) t := by
  obtain ⟨groups, last, a, b, rfl, rfl, hgroups, hlast⟩ := h
  apply hgroups.encode_eq_or_shortlex
  rcases hlast with ⟨rfl, rfl⟩ | hshort
  · exact .inl rfl
  · have hlen := hshort.length_bytes
    have hfour := hshort.le_four
    obtain ⟨hlen', hlex⟩ := hshort.shortGroup_eq_or_lex
    rw [encode_tail (by omega)]
    exact hlex.imp_right (.of_lex hlen')

/-- What is written for bytes is read back as them. Of all texts that are, it is the
shortest, and of those that are as short, the first by code point. -/
theorem encode_shortest_and_first (bytes : Bytes) :
    decode (encode bytes) = .ok bytes ∧
    ∀ t, decode t = .ok bytes → (encode bytes).length ≤ t.length ∧
      ((encode bytes).length = t.length →
        encode bytes = t ∨ List.Lex (· < ·) (encode bytes) t) := by
  refine ⟨decode_eq_ok_iff.mpr (denotes_encode bytes), ?_⟩
  intro t ht
  rcases (decode_eq_ok_iff.mp ht).encode_eq_or_shortlex with heq | hless
  · exact ⟨Nat.le_of_eq (congrArg _ heq), fun _ => .inl heq⟩
  · rcases List.shortlex_def.mp hless with hshort | ⟨hlen, hlex⟩
    · exact ⟨Nat.le_of_lt hshort, fun hlen => absurd hlen (Nat.ne_of_lt hshort)⟩
    · exact ⟨Nat.le_of_eq hlen, fun _ => .inr hlex⟩

/-- Five zero digits are longer than `z`, and `!=` leaves more room than `!<` does. -/
theorem encode_shortest_and_first_of_slack :
    decode ['!', '!', '!', '!', '!', '!', '='] = .ok [0, 0, 0, 0, 1] ∧
    decode ['z', '!', '='] = .ok [0, 0, 0, 0, 1] ∧
    (encode [0, 0, 0, 0, 1]).length ≤ 7 ∧
    (encode [0, 0, 0, 0, 1] = ['z', '!', '='] ∨
      List.Lex (· < ·) (encode [0, 0, 0, 0, 1]) ['z', '!', '=']) :=
  ⟨by decide, by decide,
    ((encode_shortest_and_first [0, 0, 0, 0, 1]).2 ['!', '!', '!', '!', '!', '!', '=']
      (by decide)).1,
    ((encode_shortest_and_first [0, 0, 0, 0, 1]).2 ['z', '!', '='] (by decide)).2 (by decide)⟩

end TextKit.Ascii85
