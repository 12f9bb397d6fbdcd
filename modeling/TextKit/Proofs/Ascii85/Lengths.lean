import TextKit.Proofs.Ascii85.RoundTrip

/-!
# How long the text of a byte string is

The number of bytes decides on the length of their text, up to the groups that are zero. Each of
these is written with one character where another group has five, so it saves four. Only full
groups are shortened: bytes that are left at the end have one character more than there are of
them, zero or not.

The length that is reserved for a text is computed in machine words. No product and no sum on the
way is a wrapped one as long as there may be so many bytes in memory at all, which is half of what
a word can count.
-/

namespace TextKit.Ascii85

/-- The length of the text of `n` bytes, if each full group has five digits. -/
def unshortenedLength (n : Nat) : Nat := n / 4 * 5 + if n % 4 = 0 then 0 else n % 4 + 1

/-- The four bytes that stand behind `i` groups. -/
def groupAt (bytes : Bytes) (i : Nat) : Bytes := (bytes.drop (4 * i)).take 4

/-- How many full groups are zero. -/
def zeroGroups (bytes : Bytes) : Nat :=
  (List.range (bytes.length / 4)).countP fun i => groupAt bytes i = [0, 0, 0, 0]

/-- The greatest number of bytes that can be in memory. -/
def maxLength : Nat := 2 ^ 63 - 1

section Group

variable {first : Bytes} (h : first.length = 4) (rest : Bytes)

include h

theorem groupAt_zero_append : groupAt (first ++ rest) 0 = first := by
  rw [groupAt, Nat.mul_zero, List.drop_zero, List.take_left' h]

theorem groupAt_succ_append (i : Nat) : groupAt (first ++ rest) (i + 1) = groupAt rest i := by
  rw [groupAt, groupAt, Nat.mul_succ, Nat.add_comm, ← List.drop_drop, List.drop_left' h]

/-- A group in front is counted if it is zero. -/
theorem zeroGroups_append :
    zeroGroups (first ++ rest) = zeroGroups rest + if first = [0, 0, 0, 0] then 1 else 0 := by
  have hcount : (first ++ rest).length / 4 = rest.length / 4 + 1 := by
    rw [List.length_append, h]
    omega
  rw [zeroGroups, hcount, List.range_succ_eq_map, List.countP_cons, List.countP_map,
    groupAt_zero_append h]
  simp only [Function.comp_def, Nat.succ_eq_add_one, groupAt_succ_append h, decide_eq_true_eq]
  rfl

/-- A zero group has one character, any other one five. -/
theorem length_fullGroup_add :
    (fullGroup (wordOfBytes first)).length + 4 * (if first = [0, 0, 0, 0] then 1 else 0) = 5 := by
  have hzero : wordOfBytes first = 0 ↔ first = [0, 0, 0, 0] :=
    ⟨fun hword => wordOfBytes_inj h hword, fun heq => heq ▸ rfl⟩
  unfold fullGroup
  split
  · rename_i hword
    rw [if_pos (hzero.mp hword)]
    rfl
  · rename_i hword
    rw [if_neg (mt hzero.mpr hword)]
    simp

end Group

theorem unshortenedLength_four_add (n : Nat) :
    unshortenedLength (4 + n) = 5 + unshortenedLength n := by
  rw [unshortenedLength, unshortenedLength, Nat.add_mod_left,
    show (4 + n) / 4 = n / 4 + 1 by omega]
  omega

/-- Bytes that are left at the end are never shortened. -/
theorem length_encode_tail {last : Bytes} (h : last.length < 4) :
    (encode last).length = unshortenedLength last.length := by
  rw [encode_tail h, shortGroup, unshortenedLength, Nat.div_eq_of_lt h, Nat.mod_eq_of_lt h]
  cases last with
  | nil => rfl
  | cons b last =>
      rw [if_neg (by simp), if_neg (by simp), List.length_map, List.length_take, length_digits,
        Nat.zero_mul, Nat.zero_add]
      exact Nat.min_eq_left (Nat.succ_le_succ (Nat.le_of_lt h))

/-- Every zero group saves four characters. -/
theorem length_encode_add (bytes : Bytes) :
    (encode bytes).length + 4 * zeroGroups bytes = unshortenedLength bytes.length := by
  induction bytes using group_induction with
  | tail last h =>
      have hnone : zeroGroups last = 0 := by
        rw [zeroGroups, Nat.div_eq_of_lt h]
        rfl
      rw [hnone, Nat.mul_zero, Nat.add_zero, length_encode_tail h]
  | group first rest h ih =>
      have hfirst := length_fullGroup_add h
      rw [encode_append_of_length_eq h, zeroGroups_append h, List.length_append, List.length_append,
        h, unshortenedLength_four_add]
      omega

theorem zeroGroups_eq_zero_iff {bytes : Bytes} :
    zeroGroups bytes = 0 ↔ ∀ i < bytes.length / 4, groupAt bytes i ≠ [0, 0, 0, 0] := by
  simp [zeroGroups, List.countP_eq_zero]

/-- Each character takes one byte. -/
theorem utf8Size_of_inAlphabet {c : Char} (h : InAlphabet c) : c.utf8Size = 1 := by
  rcases h with hdigit | rfl
  · have hhigh : c.toNat ≤ 117 := (isDigit_iff.mp hdigit).2
    exact Char.utf8Size_eq_one_iff.mpr (UInt32.le_iff_toNat_le.mpr (Nat.le_trans hhigh (by decide)))
  · rfl

theorem byteLength_of_inAlphabet {t : Text} (h : ∀ c ∈ t, InAlphabet c) :
    Text.byteLength t = t.length := by
  induction t with
  | nil => rfl
  | cons c t ih =>
      obtain ⟨hc, ht⟩ := List.forall_mem_cons.mp h
      rw [Text.byteLength_cons, List.length_cons, utf8Size_of_inAlphabet hc, ih ht, Nat.add_comm]

/-- Up to the greatest length, each result of the computation in words is the exact one. -/
theorem toNat_encodedLength {n : UInt64} (h : n.toNat ≤ maxLength) :
    (n / 4 * 5).toNat = n.toNat / 4 * 5 ∧ (n % 4 + 1).toNat = n.toNat % 4 + 1 ∧
      (encodedLength n).toNat = unshortenedLength n.toNat := by
  change n.toNat ≤ 2 ^ 63 - 1 at h
  have hquotient : (n / 4).toNat = n.toNat / 4 := UInt64.toNat_div n 4
  have hremainder : (n % 4).toNat = n.toNat % 4 := UInt64.toNat_mod n 4
  have hproduct : (n / 4 * 5).toNat = n.toNat / 4 * 5 := by
    rw [UInt64.toNat_mul, hquotient]
    exact Nat.mod_eq_of_lt (show n.toNat / 4 * 5 < 2 ^ 64 by omega)
  have hsum : (n % 4 + 1).toNat = n.toNat % 4 + 1 := by
    rw [UInt64.toNat_add, hremainder]
    exact Nat.mod_eq_of_lt (show n.toNat % 4 + 1 < 2 ^ 64 by omega)
  have hzero : n % 4 = 0 ↔ n.toNat % 4 = 0 := by
    rw [← UInt64.toNat_inj, hremainder]
    rfl
  refine ⟨hproduct, hsum, ?_⟩
  rw [encodedLength, unshortenedLength, UInt64.toNat_add, hproduct]
  split
  · rename_i hn
    rw [if_pos (hzero.mp hn)]
    exact Nat.mod_eq_of_lt (show n.toNat / 4 * 5 + 0 < 2 ^ 64 by omega)
  · rename_i hn
    rw [if_neg (mt hzero.mpr hn), hsum]
    exact Nat.mod_eq_of_lt (show n.toNat / 4 * 5 + (n.toNat % 4 + 1) < 2 ^ 64 by omega)

/-- The text of a byte string is as long as its number of bytes says, less four for each zero
group. That number is computed without a wrapped result for all byte strings that can be in
memory. So it is never too small for them, and it is exact if no full group is zero. -/
theorem encodedLength_exact :
    (∀ bytes : Bytes, Text.byteLength (encode bytes) = (encode bytes).length ∧
      (encode bytes).length + 4 * zeroGroups bytes = unshortenedLength bytes.length) ∧
    (∀ n : UInt64, n.toNat ≤ maxLength →
      (n / 4 * 5).toNat = n.toNat / 4 * 5 ∧ (n % 4 + 1).toNat = n.toNat % 4 + 1 ∧
        (encodedLength n).toNat = unshortenedLength n.toNat) ∧
    ∀ bytes : Bytes, bytes.length ≤ maxLength →
      (encode bytes).length = (encodedLength (.ofNat bytes.length)).toNat - 4 * zeroGroups bytes ∧
      (encode bytes).length ≤ (encodedLength (.ofNat bytes.length)).toNat ∧
      ((encode bytes).length = (encodedLength (.ofNat bytes.length)).toNat ↔
        ∀ i < bytes.length / 4, groupAt bytes i ≠ [0, 0, 0, 0]) := by
  refine ⟨?_, fun n h => toNat_encodedLength h, ?_⟩
  · intro bytes
    exact ⟨byteLength_of_inAlphabet (denotes_encode bytes).inAlphabet, length_encode_add bytes⟩
  · intro bytes h
    have hlength : (UInt64.ofNat bytes.length).toNat = bytes.length :=
      UInt64.toNat_ofNat_of_lt' (Nat.lt_of_le_of_lt h (by decide))
    obtain ⟨-, -, hexact⟩ := toNat_encodedLength (hlength.symm ▸ h)
    have hsaved := length_encode_add bytes
    rw [hexact, hlength, ← hsaved, ← zeroGroups_eq_zero_iff]
    omega

/-- One zero group, another one that is not zero, and a zero byte behind them. The greatest length
is not a multiple of four. -/
theorem encodedLength_exact_of_zero_group :
    encode [0, 0, 0, 0, 1, 1, 1, 1, 0] = ['z', '!', '<', 'E', '3', '%', '!', '!'] ∧
    zeroGroups [0, 0, 0, 0, 1, 1, 1, 1, 0] = 1 ∧
    (encode [0, 0, 0, 0, 1, 1, 1, 1, 0]).length = (encodedLength 9).toNat - 4 ∧
    (encode [1, 1, 1, 1, 0]).length = (encodedLength 5).toNat ∧
    (encodedLength 9223372036854775807).toNat = 11529215046068469759 := by
  obtain ⟨-, hwords, hbytes⟩ := encodedLength_exact
  refine ⟨by decide, by decide, ?_, ?_, ?_⟩
  · exact (hbytes [0, 0, 0, 0, 1, 1, 1, 1, 0] (by decide)).1
  · exact (hbytes [1, 1, 1, 1, 0] (by decide)).2.2.mpr (by decide)
  · exact (hwords 9223372036854775807 (by decide)).2.2

end TextKit.Ascii85
