import TextKit.Proofs.Sorting.Rearrangement

/-!
# What visiting a span achieves

With a consistent order, insertion sort leaves its span sorted, and partitioning
leaves the pivot in a slot that divides its span: nothing in front of it is greater,
and nothing behind it is smaller.

Places that tie may stand in any order here. That no two of them do is only needed at
the very end.
-/

namespace TextKit.Sorting

variable {n : Nat}

/-- The slots from `lo` up to, excluding, `hi` are in order. -/
def SortedOn (order : Fin n → Fin n → Ordering) (a : Arrangement n) (lo hi : Nat) : Prop :=
  ∀ i j : Fin n, lo ≤ i.val → i.val < j.val → j.val < hi →
    (order (a.place i) (a.place j)).isLE = true

/-- Nothing in front of slot `k` is greater than what stands in it or behind it. -/
def DividedAt (order : Fin n → Fin n → Ordering) (a : Arrangement n) (k : Nat) : Prop :=
  ∀ i j : Fin n, i.val < k → k ≤ j.val → (order (a.place i) (a.place j)).isLE = true

variable {order : Fin n → Fin n → Ordering} {a b : Arrangement n} {lo hi k : Nat}

/-- A slot still divides when only slots on one side of it are rearranged. -/
theorem DividedAt.rearrange (h : DividedAt order a k) (hmove : Rearranges lo hi a b)
    (hside : k ≤ lo ∨ hi ≤ k) : DividedAt order b k := by
  have hacross : Across (fun l r => (order l r).isLE = true) a 0 k (n + hi) :=
    fun i j _ hik hkj _ => h i j hik hkj
  have hacross' := hacross.rearrange hmove (by omega) (by omega)
  intro i j hik hkj
  exact hacross' i j (Nat.zero_le _) hik hkj (Nat.lt_add_right hi j.isLt)

theorem SortedOn.rearrange (h : SortedOn order a 0 k) (hmove : Rearranges lo hi a b)
    (hside : k ≤ lo) : SortedOn order b 0 k := by
  intro i j hi hij hj
  rw [hmove.outside (.inl (by omega)), hmove.outside (.inl (by omega))]
  exact h i j hi hij hj

/-- Two sorted runs of slots that meet in a dividing slot are one. -/
theorem SortedOn.append (h : SortedOn order a lo k) (h' : SortedOn order a k hi)
    (hk : DividedAt order a k) : SortedOn order a lo hi := by
  intro i j hi hij hj
  by_cases hik : i.val < k
  · by_cases hjk : j.val < k
    · exact h i j hi hij hjk
    · exact hk i j hik (by omega)
  · exact h' i j (by omega) hij hj

/-- A slot divides an arrangement if it divides a span that is divided from what is
around it. -/
theorem DividedAt.within [Std.TransCmp order] (pivot : Fin n) (hlo : DividedAt order a lo)
    (hhi : DividedAt order a hi) (hk : lo ≤ k ∧ k ≤ hi)
    (hfront : ∀ i : Fin n, lo ≤ i.val → i.val < k → (order (a.place i) pivot).isLE = true)
    (hback : ∀ j : Fin n, k ≤ j.val → j.val < hi → (order pivot (a.place j)).isLE = true) :
    DividedAt order a k := by
  intro i j hik hkj
  by_cases hilo : i.val < lo
  · exact hlo i j hilo (by omega)
  · by_cases hjhi : j.val < hi
    · exact Std.TransCmp.isLE_trans (hfront i (by omega) hik) (hback j hkj hjhi)
    · exact hhi i j (by omega) (by omega)

/-- A value is held outside while one slot is free for it. The other slots are in
order, and those behind the free one hold nothing smaller than the value. -/
structure Holding (order : Fin n → Fin n → Ordering) (start stop : Nat) (value : Fin n)
    (slot : Nat) (a : Arrangement n) : Prop where
  others : ∀ i j : Fin n, start ≤ i.val → i.val < j.val → j.val < stop → i.val ≠ slot →
    j.val ≠ slot → (order (a.place i) (a.place j)).isLE = true
  behind : ∀ j : Fin n, slot < j.val → j.val < stop → (order value (a.place j)).isLE = true

namespace Holding

variable {start stop slot : Nat} {value : Fin n}

/-- The value can be put into the free slot if the place before it is not greater. -/
theorem fill [Std.TransCmp order] (h : Holding order start stop value slot a) (hslot : slot < n)
    (hstop : slot < stop)
    (hbefore : ∀ i : Fin n, start ≤ i.val → i.val + 1 = slot → order (a.place i) value ≠ .gt) :
    SortedOn order (a.set slot value) start stop := by
  have hfront : ∀ i : Fin n, start ≤ i.val → i.val < slot →
      (order (a.place i) value).isLE = true := by
    intro i hi hlt
    have hlast := hbefore ⟨slot - 1, by omega⟩ (by simp; omega) (by simp; omega)
    by_cases hik : i.val + 1 = slot
    · exact Ordering.isLE_iff_ne_gt.mpr (hbefore i hi hik)
    · have hprevious := h.others i ⟨slot - 1, by omega⟩ hi (by simp; omega) (by simp; omega)
        (by omega) (by simp; omega)
      exact Std.TransCmp.isLE_trans hprevious (Ordering.isLE_iff_ne_gt.mpr hlast)
  intro i j hi hij hj
  rw [Arrangement.place_set, Arrangement.place_set]
  split
  · rw [if_neg (by omega)]
    exact h.behind j (by omega) hj
  · split
    · exact hfront i hi (by omega)
    · exact h.others i j hi hij hj ‹_› ‹_›

/-- A greater place before the free slot moves into it. -/
theorem shift [Std.TransCmp order] (h : Holding order start stop value (slot + 1) a)
    (hslot : slot + 1 < n) (hstart : start ≤ slot) (hgt : order a[slot] value = .gt) :
    Holding order start stop value slot (a.set (slot + 1) a[slot]) where
  others i j hi hij hj hne hne' := by
    rw [Arrangement.place_set, Arrangement.place_set]
    split
    · rw [if_neg (by omega)]
      exact h.others ⟨slot, by omega⟩ j hstart (by simp; omega) hj (by simp) (by omega)
    · split
      · exact h.others i ⟨slot, by omega⟩ hi (by simp; omega) (by simp; omega) (by omega) (by simp)
      · exact h.others i j hi hij hj (by omega) (by omega)
  behind j hj hjstop := by
    rw [Arrangement.place_set]
    split
    · exact Ordering.isLE_of_eq_lt (Std.OrientedCmp.lt_of_gt hgt)
    · exact h.behind j (by omega) hjstop

end Holding

namespace Draft

variable [Std.TransCmp order]

/-- Inserting a value that is held puts all slots in order. -/
theorem insert_sortedOn (start stop : Nat) (value : Fin n) (slot : Nat) (h : slot < n)
    (hstop : slot < stop) (d : Draft n) (hd : Holding order start stop value slot d.slots) :
    SortedOn order (insert order start value slot h d).slots start stop := by
  refine insert_induction
    (P := fun slot a => slot < stop ∧ Holding order start stop value slot a)
    (Q := fun a => SortedOn order a start stop) ?_ ?_ slot h d ⟨hstop, hd⟩
  · intro slot a h _ hstart hgt hd
    exact ⟨Nat.lt_of_succ_lt hd.1, hd.2.shift h hstart hgt⟩
  · intro slot a h hbefore hd
    exact hd.2.fill h hd.1 hbefore

theorem insertFrom_sortedOn (start stop : Nat) (hstop : stop ≤ n) (index : Nat) (d : Draft n)
    (hd : SortedOn order d.slots start index) :
    SortedOn order (insertFrom order start stop hstop index d).slots start stop := by
  fun_induction insertFrom order start stop hstop index d with
  | case1 index d h ih =>
      refine ih (insert_sortedOn start (index + 1) _ index (by omega) (by omega) d ?_)
      constructor
      · intro i j hi hij hj _ hne
        exact hd i j hi hij (by omega)
      · intro j hlt hle
        omega
  | case2 index d h =>
      intro i j hi hij hj
      exact hd i j hi hij (by omega)

theorem insertionSort_sortedOn (span : Span n) (d : Draft n) :
    SortedOn order (insertionSort order span d).slots span.start span.stop := by
  apply insertFrom_sortedOn
  intro i j hi hij hj
  omega

end Draft

/-- The slots from `start` to `store` hold nothing greater than the pivot, and those
from there to `index` nothing else. -/
structure Zones (order : Fin n → Fin n → Ordering) (pivot : Fin n) (start store index : Nat)
    (a : Arrangement n) : Prop where
  front : ∀ i : Fin n, start ≤ i.val → i.val < store → (order (a.place i) pivot).isLE = true
  back : ∀ i : Fin n, store ≤ i.val → i.val < index → order (a.place i) pivot = .gt

namespace Zones

variable {pivot : Fin n} {start store index : Nat}

theorem keep (h : Zones order pivot start store index a) (hindex : index < n)
    (hgt : order a[index] pivot = .gt) : Zones order pivot start store (index + 1) a where
  front := h.front
  back i hi hlt := by
    by_cases hik : i = ⟨index, hindex⟩
    · rw [hik]
      exact hgt
    · have hne : i.val ≠ index := fun heq => hik (Fin.ext heq)
      exact h.back i hi (by omega)

theorem exchange (h : Zones order pivot start store index a) (hindex : index < n)
    (hstore : store ≤ index) (hle : (order a[index] pivot).isLE = true) :
    Zones order pivot start (store + 1) (index + 1) (a.swap index store) where
  front i hi hlt := by
    rw [Arrangement.place_swap a hindex (by omega)]
    split
    · obtain rfl : store = index := by omega
      exact hle
    · split
      · exact hle
      · exact h.front i hi (by omega)
  back i hi hlt := by
    rw [Arrangement.place_swap a hindex (by omega)]
    split
    · exact h.back ⟨store, by omega⟩ (Nat.le_refl _) (by simp; omega)
    · rw [if_neg (by omega)]
      exact h.back i (by omega) (by omega)

end Zones

namespace Draft

/-- A sweep ends with the zones reaching up to the pivot. -/
theorem sweep_zones (pivot : Fin n) (start last : Nat) (hlast : last < n) (store index : Nat)
    (hstore : start ≤ store ∧ store ≤ index) (hindex : index ≤ last) (d : Draft n)
    (hd : Zones order pivot start store index d.slots) :
    Zones order pivot start
      (sweep order pivot start last hlast store index hstore hindex d).2.val last
      (sweep order pivot start last hlast store index hstore hindex d).1.slots := by
  fun_induction sweep order pivot start last hlast store index hstore hindex d with
  | case1 store index hstore hindex d h place d' hgt ih =>
      exact ih (hd.keep (by omega) hgt)
  | case2 store index hstore hindex d h place d' hle ih =>
      exact ih (hd.exchange (by omega) hstore.2 (Ordering.isLE_iff_ne_gt.mpr hle))
  | case3 store index hstore hindex d h =>
      obtain rfl : index = last := by omega
      exact hd

/-- Partitioning leaves the pivot between the places that are not greater and those
that are. -/
theorem partition_zones (order : Fin n → Fin n → Ordering) (span : Span n) (pivotSlot : Nat)
    (hpivot : span.start ≤ pivotSlot ∧ pivotSlot < span.stop) (d : Draft n) :
    ∃ pivot : Fin n,
      (∀ i : Fin n, i.val = (partition order span pivotSlot hpivot d).2.val →
        (partition order span pivotSlot hpivot d).1.slots.place i = pivot) ∧
      (∀ i : Fin n, span.start ≤ i.val → i.val < (partition order span pivotSlot hpivot d).2.val →
        (order ((partition order span pivotSlot hpivot d).1.slots.place i) pivot).isLE = true) ∧
      ∀ i : Fin n, (partition order span pivotSlot hpivot d).2.val < i.val → i.val < span.stop →
        order ((partition order span pivotSlot hpivot d).1.slots.place i) pivot = .gt := by
  have hstop := span.stop_le
  obtain ⟨swept, hswept, hdraft, hend⟩ := partition_eq order span pivotSlot hpivot d
    (by omega) (by omega) (by omega)
  have hstore := swept.2.property
  let pivot := (d.slots.swap pivotSlot (span.stop - 1) (by omega) (by omega))[span.stop - 1]
  have hzones : Zones order pivot span.start swept.2.val (span.stop - 1) swept.1.slots := by
    rw [hswept]
    apply sweep_zones
    constructor <;> intro i hi hlt <;> omega
  have hsweep : Rearranges span.start (span.stop - 1) _ swept.1.slots :=
    hswept ▸ sweep_rearranges ..
  have hlast : swept.1.slots.place ⟨span.stop - 1, by omega⟩ = pivot :=
    hsweep.outside (.inr (Nat.le_refl _))
  rw [hdraft, hend, slots_swap]
  refine ⟨pivot, ?_, ?_, ?_⟩
  · intro i hi
    rw [Arrangement.place_swap, if_pos hi, hlast]
  · intro i hi hlt
    rw [Arrangement.place_swap, if_neg (by omega), if_neg (by omega)]
    exact hzones.front i hi hlt
  · intro i hi hlt
    rw [Arrangement.place_swap, if_neg (by omega)]
    split
    · exact hzones.back ⟨swept.2.val, by omega⟩ (Nat.le_refl _) (by simp; omega)
    · exact hzones.back i (by omega) (by omega)

/-- The slot of the pivot divides the span, and so does the one behind it. -/
theorem partition_dividedAt [Std.TransCmp order] (span : Span n) (pivotSlot : Nat)
    (hpivot : span.start ≤ pivotSlot ∧ pivotSlot < span.stop) (d : Draft n)
    (hstart : DividedAt order (partition order span pivotSlot hpivot d).1.slots span.start)
    (hstop : DividedAt order (partition order span pivotSlot hpivot d).1.slots span.stop)
    (hk : (partition order span pivotSlot hpivot d).2.val ≤ k ∧
      k ≤ (partition order span pivotSlot hpivot d).2.val + 1) :
    DividedAt order (partition order span pivotSlot hpivot d).1.slots k := by
  have hslot := (partition order span pivotSlot hpivot d).2.property
  obtain ⟨pivot, hplace, hfront, hback⟩ := partition_zones order span pivotSlot hpivot d
  apply hstart.within pivot hstop (by omega)
  · intro i hi hlt
    rcases Nat.lt_or_eq_of_le (Nat.le_of_lt_succ (Nat.lt_of_lt_of_le hlt hk.2)) with hi' | hi'
    · exact hfront i hi hi'
    · rw [hplace i hi']
      exact Std.ReflCmp.isLE_rfl
  · intro j hj hlt
    rcases Nat.lt_or_eq_of_le (Nat.le_trans hk.1 hj) with hj' | hj'
    · exact Ordering.isLE_of_eq_lt (Std.OrientedCmp.lt_of_gt (hback j hj' hlt))
    · rw [hplace j hj'.symm]
      exact Std.ReflCmp.isLE_rfl

end Draft

end TextKit.Sorting
