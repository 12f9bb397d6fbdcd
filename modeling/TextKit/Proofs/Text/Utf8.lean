import Mathlib.Tactic.IntervalCases
import TextKit.Text.Utf8

/-!
# Decoding undoes encoding

The UTF-8 form of a character is read back byte by byte. Its leading byte announces how many
bytes follow and narrows the range of the first of them, but only where a form with fewer
bytes, a surrogate, or a value past the last character would be possible otherwise. So the
bytes of a character are always in range, and together they hold its value.
-/

namespace TextKit.Utf8

/-- The leading byte of two. -/
theorem lead?_of_two (index : Nat) {k : Nat} (hlow : 2 ≤ k) (hhigh : k < 32) :
    lead? index (UInt8.ofNat (k + 192)) = some ⟨index, 1, 1, 0x80, 0xBF, k⟩ := by
  interval_cases k <;> rfl

/-- The leading byte of three. The byte after it is narrowed for overlong forms and for
surrogates. -/
theorem lead?_of_three (index : Nat) {k : Nat} (h : k < 16) :
    lead? index (UInt8.ofNat (k + 224)) =
      some ⟨index, 1, 2, if k = 0 then 0xA0 else 0x80, if k = 13 then 0x9F else 0xBF, k⟩ := by
  interval_cases k <;> rfl

/-- The leading byte of four. The byte after it is narrowed for overlong forms and for values
past the last character. -/
theorem lead?_of_four (index : Nat) {k : Nat} (h : k < 5) :
    lead? index (UInt8.ofNat (k + 240)) =
      some ⟨index, 1, 3, if k = 0 then 0x90 else 0x80, if k = 4 then 0x8F else 0xBF, k⟩ := by
  interval_cases k <;> rfl

theorem toNat_ofNat_of_lt {k : Nat} (h : k < 256) : (UInt8.ofNat k).toNat = k :=
  UInt8.toNat_ofNat_of_lt' h

section Steps

variable (done : Array Char) (index : Nat) (bytes : Bytes)

theorem decodeFrom_ascii {k : Nat} (h : k < 128) :
    decodeFrom done index none (UInt8.ofNat k :: bytes) =
      decodeFrom (done.push (Char.ofNat k)) (index + 1) none bytes := by
  have hk : (UInt8.ofNat k).toNat = k := toNat_ofNat_of_lt (by omega)
  have hlt : UInt8.ofNat k < 0x80 := by
    rw [UInt8.lt_iff_toNat_lt, hk]
    exact h
  rw [decodeFrom, if_pos hlt, hk]

theorem decodeFrom_lead {k : Nat} (hlow : 128 ≤ k) (hhigh : k < 256) {u : Unfinished}
    (h : lead? index (UInt8.ofNat k) = some u) :
    decodeFrom done index none (UInt8.ofNat k :: bytes) =
      decodeFrom done (index + 1) (some u) bytes := by
  have hk : (UInt8.ofNat k).toNat = k := toNat_ofNat_of_lt hhigh
  have hge : ¬ UInt8.ofNat k < 0x80 := by
    rw [UInt8.lt_iff_toNat_lt, hk]
    exact Nat.not_lt.mpr hlow
  rw [decodeFrom, if_neg hge, h]

/-- A continuation byte in range is appended to an unfinished character. -/
theorem decodeFrom_continue (u : Unfinished) {k : Nat} (h : k < 64)
    (hlow : u.low.toNat ≤ k + 128) (hhigh : k + 128 ≤ u.high.toNat) :
    decodeFrom done index (some u) (UInt8.ofNat (k + 128) :: bytes) =
      if u.missing - 1 = 0 then
        decodeFrom (done.push (Char.ofNat (u.value * 64 + k))) (index + 1) none bytes
      else
        decodeFrom done (index + 1)
          (some ⟨u.start, u.seen + 1, u.missing - 1, 0x80, 0xBF, u.value * 64 + k⟩) bytes := by
  have hk : (UInt8.ofNat (k + 128)).toNat = k + 128 := toNat_ofNat_of_lt (by omega)
  have hrange : u.low ≤ UInt8.ofNat (k + 128) ∧ UInt8.ofNat (k + 128) ≤ u.high := by
    rw [UInt8.le_iff_toNat_le, UInt8.le_iff_toNat_le, hk]
    exact ⟨hlow, hhigh⟩
  have hextend : u.extend (UInt8.ofNat (k + 128)) =
      ⟨u.start, u.seen + 1, u.missing - 1, 0x80, 0xBF, u.value * 64 + k⟩ := by
    rw [Unfinished.extend, hk, Nat.add_sub_cancel]
  rw [decodeFrom, if_pos hrange, hextend]

/-- The last missing byte completes a character. -/
theorem decodeFrom_last (start seen value : Nat) {low high : UInt8} {k : Nat} (h : k < 64)
    (hlow : low.toNat ≤ k + 128) (hhigh : k + 128 ≤ high.toNat) :
    decodeFrom done index (some ⟨start, seen, 1, low, high, value⟩)
        (UInt8.ofNat (k + 128) :: bytes) =
      decodeFrom (done.push (Char.ofNat (value * 64 + k))) (index + 1) none bytes :=
  (decodeFrom_continue done index bytes _ h hlow hhigh).trans (if_pos rfl)

/-- After any other one, a byte from the full range is to follow. -/
theorem decodeFrom_more (start seen missing value : Nat) {low high : UInt8} {k : Nat} (h : k < 64)
    (hlow : low.toNat ≤ k + 128) (hhigh : k + 128 ≤ high.toNat) :
    decodeFrom done index (some ⟨start, seen, missing + 2, low, high, value⟩)
        (UInt8.ofNat (k + 128) :: bytes) =
      decodeFrom done (index + 1)
        (some ⟨start, seen + 1, missing + 1, 0x80, 0xBF, value * 64 + k⟩) bytes :=
  (decodeFrom_continue done index bytes _ h hlow hhigh).trans (if_neg (Nat.succ_ne_zero _))

end Steps

/-- The form of a character is read back as the character, whatever follows it. -/
theorem decodeFrom_encodeChar (done : Array Char) (index : Nat) (c : Char) (bytes : Bytes) :
    decodeFrom done index none (String.utf8EncodeChar c ++ bytes) =
      decodeFrom (done.push c) (index + (String.utf8EncodeChar c).length) none bytes := by
  have hvalid : c.val.toNat < 0xD800 ∨ 0xDFFF < c.val.toNat ∧ c.val.toNat < 0x110000 := c.valid
  have hc : Char.ofNat c.val.toNat = c := Char.ofNat_toNat c
  have hmod : ∀ v, v % 64 < 64 := fun v => Nat.mod_lt v (by decide)
  fun_cases String.utf8EncodeChar c with
  | case1 v h1 =>
      rw [List.singleton_append, decodeFrom_ascii _ _ _ (by omega), hc]
      rfl
  | case2 v h1 h2 =>
      have hvalue : v / 64 % 32 * 64 + v % 64 = v := by omega
      rw [List.cons_append, decodeFrom_lead _ _ _ (by omega) (by omega)
          (lead?_of_two index (by omega) (by omega)),
        List.cons_append, decodeFrom_last _ _ _ _ _ _ (hmod v) (by simp) (by simp; omega),
        hvalue, hc]
      rfl
  | case3 v h1 h2 h3 =>
      have hvalue : (v / 4096 % 16 * 64 + v / 64 % 64) * 64 + v % 64 = v := by omega
      have hlow : (if v / 4096 % 16 = 0 then 0xA0 else 0x80 : UInt8).toNat ≤
          v / 64 % 64 + 128 := by
        split
        · change 160 ≤ _
          omega
        · exact Nat.le_add_left _ _
      have hhigh : v / 64 % 64 + 128 ≤
          (if v / 4096 % 16 = 13 then 0x9F else 0xBF : UInt8).toNat := by
        split
        · change _ ≤ 159
          omega
        · change _ ≤ 191
          omega
      rw [List.cons_append, decodeFrom_lead _ _ _ (by omega) (by omega)
          (lead?_of_three index (by omega)),
        List.cons_append, decodeFrom_more _ _ _ _ _ _ _ (hmod _) hlow hhigh,
        List.cons_append, decodeFrom_last _ _ _ _ _ _ (hmod v) (by simp) (by simp; omega),
        hvalue, hc]
      rfl
  | case4 v h1 h2 h3 =>
      have hvalue :
          ((v / 262144 % 8 * 64 + v / 4096 % 64) * 64 + v / 64 % 64) * 64 + v % 64 = v := by
        omega
      have hlow : (if v / 262144 % 8 = 0 then 0x90 else 0x80 : UInt8).toNat ≤
          v / 4096 % 64 + 128 := by
        split
        · change 144 ≤ _
          omega
        · exact Nat.le_add_left _ _
      have hhigh : v / 4096 % 64 + 128 ≤
          (if v / 262144 % 8 = 4 then 0x8F else 0xBF : UInt8).toNat := by
        split
        · change _ ≤ 143
          omega
        · change _ ≤ 191
          omega
      rw [List.cons_append, decodeFrom_lead _ _ _ (by omega) (by omega)
          (lead?_of_four index (by omega)),
        List.cons_append, decodeFrom_more _ _ _ _ _ _ _ (hmod _) hlow hhigh,
        List.cons_append, decodeFrom_more _ _ _ _ _ _ _ (hmod _) (by simp) (by simp; omega),
        List.cons_append, decodeFrom_last _ _ _ _ _ _ (hmod v) (by simp) (by simp; omega),
        hvalue, hc]
      rfl

theorem decodeFrom_encode (done : Array Char) (index : Nat) (t : Text) :
    decodeFrom done index none (encode t) = .ok (done.toList ++ t) := by
  induction t generalizing done index with
  | nil => rw [encode_nil, decodeFrom, List.append_nil]
  | cons c t ih =>
      rw [encode_cons, decodeFrom_encodeChar, ih, Array.toList_push, List.append_assoc]
      rfl

/-- Every text is read back from its form. -/
theorem decode_utf8_encode (t : Text) : decode (encode t) = .ok t := by
  rw [decode, decodeFrom_encode]
  rfl

theorem encode_inj {s t : Text} : encode s = encode t ↔ s = t := by
  constructor
  · intro h
    have hdecode := congrArg decode h
    rw [decode_utf8_encode, decode_utf8_encode] at hdecode
    exact Except.ok.inj hdecode
  · rintro rfl
    rfl

end TextKit.Utf8
