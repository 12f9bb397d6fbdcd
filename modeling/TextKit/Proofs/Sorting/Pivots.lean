import TextKit.Proofs.Sorting.Work

/-!
# The source of pivots never degenerates

A step of the generator adds to the state three shifted copies of it, one after the other, without
carries. A shift distributes over such sums, so adding a shifted copy keeps two states apart unless
their difference is its own shift. Only zero is: a bit of it would be the one `k` places below, or
above, and so on until there are no more places. Each of the three parts is therefore injective, and
so is the step. It keeps zero, so no other state becomes zero, and no seed starts with zero.

No operation of the selection in words is refused for a span that is not empty, and it selects the
slot that `PivotSource.select` gives with natural numbers.
-/

namespace TextKit.Sorting

namespace PivotSource

section Shifts

variable {w k : Nat} {x : BitVec w}

theorem eq_zero_of_eq_shiftLeft (hk : 0 < k) (h : x = x <<< k) : x = 0#w := by
  have hbits : ∀ i, x.getLsbD i = false := by
    intro i
    induction i using Nat.strongRecOn with
    | ind i ih =>
        rw [h, BitVec.getLsbD_shiftLeft]
        by_cases hi : i < k
        · simp [hi]
        · rw [ih (i - k) (by omega), Bool.and_false]
  exact BitVec.eq_of_getLsbD_eq fun i _ => (hbits i).trans BitVec.getLsbD_zero.symm

theorem eq_zero_of_eq_shiftRight (hk : 0 < k) (h : x = x >>> k) : x = 0#w := by
  -- The induction is on a bound for the number of places above.
  have hbits : ∀ above i, w ≤ i + above → x.getLsbD i = false := by
    intro above
    induction above with
    | zero => exact fun i hi => BitVec.getLsbD_of_ge x i hi
    | succ above ih =>
        intro i hi
        rw [h, BitVec.getLsbD_ushiftRight]
        exact ih (k + i) (by omega)
  exact BitVec.eq_of_getLsbD_eq fun i _ =>
    (hbits w i (Nat.le_add_left w i)).trans BitVec.getLsbD_zero.symm

/-- Adding a copy that is changed bit by bit tells all words apart if zero alone is unchanged. -/
theorem injective_xor_of_distrib {shift : BitVec w → BitVec w}
    (distrib : ∀ x y, shift (x ^^^ y) = shift x ^^^ shift y)
    (fixed : ∀ x, x = shift x → x = 0#w) : Function.Injective fun x => x ^^^ shift x := by
  intro x y h
  dsimp only at h
  have hzero : (x ^^^ y) ^^^ shift (x ^^^ y) = 0#w := by
    calc (x ^^^ y) ^^^ shift (x ^^^ y)
        = (x ^^^ shift x) ^^^ (y ^^^ shift y) := by
          rw [distrib]
          ac_rfl
      _ = 0#w := by rw [h, BitVec.xor_self]
  exact BitVec.xor_eq_zero_iff.mp (fixed _ (BitVec.xor_eq_zero_iff.mp hzero))

theorem injective_xor_shiftLeft (hk : 0 < k) :
    Function.Injective fun x : BitVec w => x ^^^ x <<< k :=
  injective_xor_of_distrib (fun x y => BitVec.shiftLeft_xor_distrib x y k)
    fun _ => eq_zero_of_eq_shiftLeft hk

theorem injective_xor_shiftRight (hk : 0 < k) :
    Function.Injective fun x : BitVec w => x ^^^ x >>> k :=
  injective_xor_of_distrib (fun x y => BitVec.ushiftRight_xor_distrib x y k)
    fun _ => eq_zero_of_eq_shiftRight hk

end Shifts

/-- Different states stay different. -/
theorem injective_step : Function.Injective step := by
  have hbits : Function.Injective ((fun x : BitVec 64 => x ^^^ x <<< 17) ∘
      (fun x : BitVec 64 => x ^^^ x >>> 7) ∘ fun x : BitVec 64 => x ^^^ x <<< 13) :=
    (injective_xor_shiftLeft (Nat.succ_pos 16)).comp
      ((injective_xor_shiftRight (Nat.succ_pos 6)).comp
        (injective_xor_shiftLeft (Nat.succ_pos 12)))
  intro x y hxy
  exact UInt64.toBitVec_inj.mp (hbits (congrArg UInt64.toBitVec hxy))

theorem step_eq_zero_iff {x : UInt64} : step x = 0 ↔ x = 0 := by
  have hzero : step 0 = 0 := by decide
  exact ⟨fun h => injective_step (h.trans hzero.symm), fun h => h ▸ hzero⟩

theorem state_ofSeed_ne_zero (seed : UInt64) : (ofSeed seed).state ≠ 0 := by
  unfold ofSeed
  split
  · decide
  · assumption

theorem state_advance_ne_zero {source : PivotSource} (h : source.state ≠ 0) :
    source.advance.state ≠ 0 :=
  fun hzero => h (step_eq_zero_iff.mp hzero)

/-- However often pivots are drawn, the state is not zero. -/
theorem state_iterate_ne_zero (seed : UInt64) (draws : Nat) :
    (advance^[draws] (ofSeed seed)).state ≠ 0 := by
  induction draws with
  | zero => exact state_ofSeed_ne_zero seed
  | succ draws ih =>
      rw [Function.iterate_succ_apply']
      exact state_advance_ne_zero ih

/-- The computation in words is refused for an empty span only. Otherwise it agrees with the one in
natural numbers. -/
theorem selectWord?_eq_some_iff {source : PivotSource} {start stop slot : UInt64} :
    source.selectWord? start stop = some slot ↔
      start < stop ∧ slot.toNat = source.select start.toNat stop.toNat := by
  simp only [selectWord?, Option.bind_eq_some_iff, Word.difference?_eq_some_iff,
    Word.remainder?_eq_some_iff, Word.sum?_eq_some_iff, Word.toNat_uint64, UInt64.lt_iff_toNat_lt]
  constructor
  · rintro ⟨size, hsize, rest, ⟨hpos, hrest⟩, hslot⟩
    have hsub : size.toNat = stop.toNat - start.toNat := by omega
    refine ⟨by omega, ?_⟩
    rw [hslot, hrest, hsub, select]
  · rintro ⟨hlt, hslot⟩
    have hsize : (stop - start).toNat = stop.toNat - start.toNat :=
      UInt64.toNat_sub_of_le _ _ (UInt64.le_iff_toNat_le.mpr hlt.le)
    refine ⟨stop - start, by omega, source.state % (stop - start), ⟨by omega, ?_⟩, ?_⟩
    · exact UInt64.toNat_mod _ _
    · rw [hslot, select, UInt64.toNat_mod, hsize]

/-- A slot is selected in every span that is not empty. -/
theorem exists_selectWord? (source : PivotSource) {start stop : UInt64} (h : start < stop) :
    ∃ slot, source.selectWord? start stop = some slot := by
  have hfits : source.select start.toNat stop.toNat < 2 ^ 64 :=
    (source.select_lt_stop (UInt64.lt_iff_toNat_lt.mp h)).trans stop.toNat_lt
  exact ⟨_, selectWord?_eq_some_iff.mpr ⟨h, UInt64.toNat_ofNat_of_lt' hfits⟩⟩

/-- The step of the generator is injective and maps zero alone to zero. So the state is never zero,
for any seed and after any number of draws, nor at any point of a sort. Whichever the state, the
slot drawn for a span that is not empty is one of its slots, and is found within the range of
words. -/
theorem draws_never_degenerate {α : Type} :
    (Function.Injective step ∧ ∀ x, step x = 0 ↔ x = 0) ∧
    (∀ seed draws, (advance^[draws] (ofSeed seed)).state ≠ 0) ∧
    (∀ (sequence : Sequence α) (clock : UInt64) (calls : Nat),
      ((sequence.start clock).after calls).progress.source.state ≠ 0) ∧
    ∀ (source : PivotSource) (start stop : UInt64), start < stop →
      ∃ slot, source.advance.selectWord? start stop = some slot ∧ start ≤ slot ∧ slot < stop ∧
        slot.toNat = source.advance.select start.toNat stop.toNat := by
  refine ⟨⟨injective_step, fun x => step_eq_zero_iff⟩, state_iterate_ne_zero, ?_, ?_⟩
  · intro sequence clock calls
    rw [(sequence.accounted_after clock calls).drawn]
    exact state_iterate_ne_zero _ _
  · intro source start stop h
    obtain ⟨slot, hslot⟩ := source.advance.exists_selectWord? h
    have hselect := (selectWord?_eq_some_iff.mp hslot).2
    refine ⟨slot, hslot, ?_, ?_, hselect⟩
    · rw [UInt64.le_iff_toNat_le, hselect]
      exact source.advance.start_le_select _ _
    · rw [UInt64.lt_iff_toNat_lt, hselect]
      exact source.advance.select_lt_stop (UInt64.lt_iff_toNat_lt.mp h)

/-- The first draw of the seed zero from ten slots. -/
theorem draws_never_degenerate_of_zero_seed : (10 : UInt64) < 20 ∧
    ∃ slot, (ofSeed 0).advance.selectWord? 10 20 = some slot ∧ 10 ≤ slot ∧ slot < 20 ∧
      slot.toNat = (ofSeed 0).advance.select (10 : UInt64).toNat (20 : UInt64).toNat :=
  ⟨by decide, (draws_never_degenerate (α := Nat)).2.2.2 (ofSeed 0) 10 20 (by decide)⟩

end PivotSource

end TextKit.Sorting
