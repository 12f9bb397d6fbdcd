import TextKit.Proofs.Ascii85.Reading

/-!
# Reading one group

The open group of a run holds certain digits: it counts them, and its word is the
least word that begins with them. Each operation of the reader is described by
what it does to these digits.
-/

namespace TextKit.Ascii85.OpenGroup

/-- The group has the digits `p`. -/
structure Holds (g : OpenGroup) (p : Text) : Prop where
  digits : ∀ c ∈ p, isDigit c = true
  count_eq : g.count.val = p.length
  value_eq : g.value.toNat = leastWord p

theorem holds_empty : empty.Holds [] := ⟨by simp, rfl, rfl⟩

theorem Holds.length_lt {g : OpenGroup} {p : Text} (h : g.Holds p) : p.length < 5 := by
  rw [← h.count_eq]
  exact g.count.isLt

theorem Holds.count_eq_zero_iff {g : OpenGroup} {p : Text} (h : g.Holds p) :
    g.count = 0 ↔ p = [] := by
  rw [Fin.ext_iff, h.count_eq]
  exact List.length_eq_zero_iff

/-- The sum that is formed for one more digit is the least word with that digit. -/
theorem Holds.accumulate?_eq_some_iff {g : OpenGroup} {p : Text} {c : Char} {digit word : UInt32}
    (h : g.Holds p) (hdigit : digit.toNat = digitValue c) :
    accumulate? g.value digit g.count = some word ↔ word.toNat = leastWord (p ++ [c]) := by
  rw [Ascii85.accumulate?_eq_some_iff, h.value_eq, h.count_eq, hdigit,
    leastWord_concat c h.length_lt]

theorem Holds.accumulate?_eq_none_iff {g : OpenGroup} {p : Text} {c : Char} {digit : UInt32}
    (h : g.Holds p) (hdigit : digit.toNat = digitValue c) :
    accumulate? g.value digit g.count = none ↔ 2 ^ 32 ≤ leastWord (p ++ [c]) := by
  rw [Ascii85.accumulate?_eq_none_iff, h.value_eq, h.count_eq, hdigit,
    leastWord_concat c h.length_lt]

/-- Any of the first four digits stays in the group. -/
theorem Holds.add_of_length_lt {g : OpenGroup} {p : Text} {c : Char} {digit : UInt32}
    (h : g.Holds p) (hc : isDigit c = true) (hdigit : digit.toNat = digitValue c)
    (hlen : p.length < 4) (hfits : leastWord (p ++ [c]) < 2 ^ 32) (position : Nat) :
    ∃ g', g.add digit position = .ok ([], g') ∧ g'.Holds (p ++ [c]) := by
  have hword := (h.accumulate?_eq_some_iff hdigit).mpr (UInt32.toNat_ofNat_of_lt' hfits)
  have hcount : g.count.val + 1 < 5 := by
    have := h.count_eq
    omega
  refine ⟨⟨⟨g.count.val + 1, hcount⟩, UInt32.ofNat (leastWord (p ++ [c]))⟩, ?_, ?_, ?_,
    UInt32.toNat_ofNat_of_lt' hfits⟩
  · simp only [add, hword, dif_pos hcount]
  · simpa [or_imp, forall_and] using ⟨h.digits, hc⟩
  · simp [h.count_eq]

/-- The fifth digit completes the group. -/
theorem Holds.add_of_length_eq {g : OpenGroup} {p : Text} {c : Char} {digit : UInt32}
    (h : g.Holds p) (hdigit : digit.toNat = digitValue c) (hlen : p.length = 4)
    (hfits : leastWord (p ++ [c]) < 2 ^ 32) (position : Nat) :
    g.add digit position = .ok (bytesOfWord (leastWord (p ++ [c])), empty) := by
  have hword := (h.accumulate?_eq_some_iff hdigit).mpr (UInt32.toNat_ofNat_of_lt' hfits)
  have hcount : ¬ g.count.val + 1 < 5 := by
    have := h.count_eq
    omega
  simp only [add, hword, dif_neg hcount, UInt32.toNat_ofNat_of_lt' hfits]

theorem Holds.add_overflow {g : OpenGroup} {p : Text} {c : Char} {digit : UInt32}
    (h : g.Holds p) (hdigit : digit.toNat = digitValue c)
    (hlarge : 2 ^ 32 ≤ leastWord (p ++ [c])) (position : Nat) :
    g.add digit position = .error (.overflow position) := by
  simp only [add, (h.accumulate?_eq_none_iff hdigit).mpr hlarge]

theorem ne_zeroGroup_of_isDigit {c : Char} (h : isDigit c = true) : c ≠ zeroGroup := by
  rintro rfl
  revert h
  decide

/-- On a digit, a step adds its value. -/
theorem step_of_isDigit {c : Char} (h : isDigit c = true) :
    ∃ digit : UInt32, digit.toNat = digitValue c ∧
      ∀ (g : OpenGroup) (position : Nat), g.step position c = g.add digit position := by
  cases hdigit : digit? c with
  | none => simp [digit?, h] at hdigit
  | some digit =>
      refine ⟨digit, (digit?_eq_some_iff.mp hdigit).2, ?_⟩
      intro g position
      rw [step, if_neg (ne_zeroGroup_of_isDigit h), hdigit]

theorem step_zeroGroup {g : OpenGroup} (h : g.count = 0) (position : Nat) :
    g.step position zeroGroup = .ok (bytesOfWord 0, g) := by
  rw [step, if_pos rfl, if_pos h]

/-- A step that is not refused adds a digit to the open group or completes it. -/
theorem Holds.of_step {g g' : OpenGroup} {p : Text} {c : Char} {position : Nat} {bytes : Bytes}
    (h : g.Holds p) (hstep : g.step position c = .ok (bytes, g')) :
    (bytes = [] ∧ g'.Holds (p ++ [c])) ∨ (FullGroup (p ++ [c]) bytes ∧ g'.Holds []) := by
  by_cases hz : c = zeroGroup
  · subst hz
    by_cases hcount : g.count = 0
    · rw [step_zeroGroup hcount] at hstep
      cases hstep
      have hp := h.count_eq_zero_iff.mp hcount
      subst hp
      exact .inr ⟨.zero, h⟩
    · simp [step, hcount] at hstep
  by_cases hc : isDigit c = true
  · obtain ⟨digit, hdigit, hadd⟩ := step_of_isDigit hc
    rw [hadd] at hstep
    by_cases hfits : leastWord (p ++ [c]) < 2 ^ 32
    · by_cases hlen : p.length < 4
      · obtain ⟨g'', hg'', hholds⟩ := h.add_of_length_lt hc hdigit hlen hfits position
        rw [hg''] at hstep
        cases hstep
        exact .inl ⟨rfl, hholds⟩
      · have hlen' : p.length = 4 := by
          have := h.length_lt
          omega
        rw [h.add_of_length_eq hdigit hlen' hfits position] at hstep
        cases hstep
        have hfive : (p ++ [c]).length = 5 := by simp [hlen']
        rw [leastWord_of_length_eq hfive] at hfits ⊢
        refine .inr ⟨.digits hfive ?_ (by omega) (fourBytes_bytesOfWord hfits), holds_empty⟩
        simpa [or_imp, forall_and] using ⟨h.digits, hc⟩
    · rw [h.add_overflow hdigit (by omega) position] at hstep
      cases hstep
  · simp [step, hz, digit?, hc] at hstep

end TextKit.Ascii85.OpenGroup
