import Mathlib.Logic.Equiv.Basic
import TextKit.Sorting.Draft

/-!
# Rearrangements

Whatever the comparisons answer, insertion sort and partitioning only move places
about, and only in the slots of the span they are given. Insertion overwrites
slots while it holds a place outside of the arrangement; with that place put back
into the free slot, each of its moves exchanges two neighbours.
-/

namespace TextKit.Sorting

variable {n : Nat}

namespace Arrangement

/-- The place that stands in a slot. -/
def place (a : Arrangement n) (slot : Fin n) : Fin n := a.get slot

@[simp] theorem place_identity (i : Fin n) : (identity n).place i = i := by
  change (Vector.ofFn id)[i.val] = i
  simp

theorem place_set (a : Arrangement n) {slot : Nat} (h : slot < n) (value i : Fin n) :
    place (a.set slot value) i = if i.val = slot then value else a.place i := by
  change (a.set slot value)[i.val] = if i.val = slot then value else a[i.val]
  simp only [Vector.getElem_set, eq_comm]

theorem place_swap (a : Arrangement n) {i j : Nat} (hi : i < n) (hj : j < n) (k : Fin n) :
    place (a.swap i j) k =
      if k.val = i then a.place ⟨j, hj⟩ else if k.val = j then a.place ⟨i, hi⟩ else a.place k := by
  change (a.swap i j)[k.val] = if k.val = i then a[j] else if k.val = j then a[i] else a[k.val]
  rw [Vector.getElem_swap]

end Arrangement

/-- The arrangement `b` has the places of `a`, moved about in the slots from `lo` up
to, excluding, `hi`. -/
def Rearranges (lo hi : Nat) (a b : Arrangement n) : Prop :=
  ∃ move : Equiv.Perm (Fin n), (∀ i : Fin n, i.val < lo ∨ hi ≤ i.val → move i = i) ∧
    ∀ i, b.place i = a.place (move i)

namespace Rearranges

variable {lo hi : Nat} {a b c : Arrangement n}

theorem refl (lo hi : Nat) (a : Arrangement n) : Rearranges lo hi a a :=
  ⟨Equiv.refl _, fun _ _ => rfl, fun _ => rfl⟩

theorem trans (h : Rearranges lo hi a b) (h' : Rearranges lo hi b c) : Rearranges lo hi a c := by
  obtain ⟨move, houtside, hmove⟩ := h
  obtain ⟨move', houtside', hmove'⟩ := h'
  refine ⟨move'.trans move, ?_, ?_⟩
  · intro i hi
    rw [Equiv.trans_apply, houtside' i hi, houtside i hi]
  · intro i
    rw [hmove', hmove, Equiv.trans_apply]

theorem symm (h : Rearranges lo hi a b) : Rearranges lo hi b a := by
  obtain ⟨move, houtside, hmove⟩ := h
  refine ⟨move.symm, ?_, ?_⟩
  · intro i hi
    rw [Equiv.symm_apply_eq, houtside i hi]
  · intro i
    rw [hmove, Equiv.apply_symm_apply]

theorem mono {lo' hi' : Nat} (h : Rearranges lo hi a b) (hlo : lo' ≤ lo) (hhi : hi ≤ hi') :
    Rearranges lo' hi' a b := by
  obtain ⟨move, houtside, hmove⟩ := h
  exact ⟨move, fun i hi => houtside i (by omega), hmove⟩

theorem outside (h : Rearranges lo hi a b) {i : Fin n} (hi : i.val < lo ∨ hi ≤ i.val) :
    b.place i = a.place i := by
  obtain ⟨move, houtside, hmove⟩ := h
  rw [hmove, houtside i hi]

/-- What stands inside of the span afterwards stood inside before. -/
theorem inside (h : Rearranges lo hi a b) {i : Fin n} (hlo : lo ≤ i.val) (hhi : i.val < hi) :
    ∃ j : Fin n, lo ≤ j.val ∧ j.val < hi ∧ b.place i = a.place j := by
  obtain ⟨move, houtside, hmove⟩ := h
  refine ⟨move i, ?_, ?_, hmove i⟩
  · by_contra hlt
    have hfix := houtside (move i) (.inl (by omega))
    rw [move.injective hfix] at hlt
    omega
  · by_contra hle
    have hfix := houtside (move i) (.inr (by omega))
    rw [move.injective hfix] at hle
    omega

theorem injective (h : Rearranges lo hi a b) (ha : Function.Injective a.place) :
    Function.Injective b.place := by
  obtain ⟨move, -, hmove⟩ := h
  intro i j hij
  rw [hmove, hmove] at hij
  exact move.injective (ha hij)

/-- A run of slots holds what it held before, if it has all of the slots that were
rearranged or none of them. -/
theorem within {l r : Nat} (h : Rearranges lo hi a b)
    (hside : l ≤ lo ∧ hi ≤ r ∨ hi ≤ l ∨ r ≤ lo) {i : Fin n} (hl : l ≤ i.val) (hr : i.val < r) :
    ∃ j : Fin n, l ≤ j.val ∧ j.val < r ∧ b.place i = a.place j := by
  by_cases hi' : lo ≤ i.val ∧ i.val < hi
  · obtain ⟨j, hlo, hhi, hj⟩ := h.inside hi'.1 hi'.2
    exact ⟨j, by omega, by omega, hj⟩
  · exact ⟨i, hl, hr, h.outside (by omega)⟩

/-- Exchanging two slots of the span. -/
theorem swap (a : Arrangement n) {i j : Nat} (hin : i < n) (hjn : j < n)
    (hi' : lo ≤ i ∧ i < hi) (hj' : lo ≤ j ∧ j < hi) : Rearranges lo hi a (a.swap i j) := by
  refine ⟨Equiv.swap ⟨i, hin⟩ ⟨j, hjn⟩, ?_, ?_⟩
  · intro k hk
    apply Equiv.swap_apply_of_ne_of_ne <;> rintro rfl <;> simp at hk <;> omega
  · intro k
    rw [Equiv.swap_apply_def, Arrangement.place_swap]
    simp only [Fin.ext_iff]
    split
    · rfl
    · split <;> rfl

end Rearranges

/-- Every place in the slots from `lo` up to `k` is related to every one from there up
to `hi`. -/
def Across (R : Fin n → Fin n → Prop) (a : Arrangement n) (lo k hi : Nat) : Prop :=
  ∀ i j : Fin n, lo ≤ i.val → i.val < k → k ≤ j.val → j.val < hi → R (a.place i) (a.place j)

namespace Across

variable {R : Fin n → Fin n → Prop} {a b : Arrangement n} {lo k hi : Nat}

theorem mono {lo' hi' : Nat} (h : Across R a lo k hi) (hlo : lo ≤ lo') (hhi : hi' ≤ hi) :
    Across R a lo' k hi' :=
  fun i j hi hik hkj hj => h i j (Nat.le_trans hlo hi) hik hkj (Nat.lt_of_lt_of_le hj hhi)

/-- It does not matter how slots on one side, or away from both, are rearranged. -/
theorem rearrange {l r : Nat} (h : Across R a lo k hi) (hmove : Rearranges l r a b)
    (hfront : lo ≤ l ∧ r ≤ k ∨ r ≤ lo ∨ k ≤ l) (hback : k ≤ l ∧ r ≤ hi ∨ r ≤ k ∨ hi ≤ l) :
    Across R b lo k hi := by
  intro i j hlo hik hkj hhi
  obtain ⟨i', hlo', hik', hplace⟩ := hmove.within hfront hlo hik
  obtain ⟨j', hkj', hhi', hplace'⟩ := hmove.within hback hkj hhi
  rw [hplace, hplace']
  exact h i' j' hlo' hik' hkj' hhi'

end Across

namespace Draft

@[simp] theorem comparisons_put (d : Draft n) (slot : Nat) (h : slot < n) (place : Fin n) :
    (d.put slot h place).comparisons = d.comparisons := rfl

@[simp] theorem comparisons_note (d : Draft n) (l r : Fin n) :
    (d.note l r).comparisons = d.comparisons.push (l, r) := rfl

@[simp] theorem comparisons_swap (d : Draft n) (i j : Nat) (hi : i < n) (hj : j < n) :
    (d.swap i j hi hj).comparisons = d.comparisons := rfl

@[simp] theorem slots_put (d : Draft n) (slot : Nat) (h : slot < n) (place : Fin n) :
    (d.put slot h place).slots = d.slots.set slot place := rfl

@[simp] theorem slots_note (d : Draft n) (l r : Fin n) : (d.note l r).slots = d.slots := rfl

@[simp] theorem slots_swap (d : Draft n) (i j : Nat) (hi : i < n) (hj : j < n) :
    (d.swap i j hi hj).slots = d.slots.swap i j := rfl

/-- Inserting a value shifts greater places into the free slot, and then fills the slot
that is free in the end. What is known of the free slot is kept by each shift. -/
theorem insert_induction {order : Fin n → Fin n → Ordering} {start : Nat} {value : Fin n}
    {P : Nat → Arrangement n → Prop} {Q : Arrangement n → Prop}
    (shift : ∀ (slot : Nat) (a : Arrangement n) (_ : slot + 1 < n) (_ : slot < n), start ≤ slot →
      order a[slot] value = .gt → P (slot + 1) a → P slot (a.set (slot + 1) a[slot]))
    (fill : ∀ (slot : Nat) (a : Arrangement n) (_ : slot < n),
      (∀ i : Fin n, start ≤ i.val → i.val + 1 = slot → order (a.place i) value ≠ .gt) →
      P slot a → Q (a.set slot value))
    (slot : Nat) (h : slot < n) (d : Draft n) (hd : P slot d.slots) :
    Q (insert order start value slot h d).slots := by
  induction slot generalizing d with
  | zero =>
      refine fill 0 d.slots h ?_ hd
      intro i _ hi
      omega
  | succ k ih =>
      unfold insert
      split
      · rename_i hk
        dsimp only
        split
        · rename_i hgt
          exact ih (by omega) _ (shift k d.slots h (by omega) hk hgt hd)
        · rename_i hle
          refine fill (k + 1) d.slots h ?_ hd
          intro i _ hi
          rw [show i = ⟨k, by omega⟩ from Fin.ext (Nat.succ.inj hi)]
          exact hle
      · refine fill (k + 1) d.slots h ?_ hd
        intro i hstart hi
        omega

/-- Moving a free slot down by one exchanges two slots of the arrangement in which
the place that is held outside stands in the free slot. -/
theorem set_set_eq_swap (a : Arrangement n) {k : Nat} (hk : k < n) (h : k + 1 < n) (value : Fin n) :
    (a.set (k + 1) a[k]).set k value = (a.set (k + 1) value).swap k (k + 1) := by
  apply Vector.ext
  intro i hi
  simp only [Vector.getElem_set, Vector.getElem_swap]
  grind

/-- Inserting rearranges what there is with the value put into the free slot. -/
theorem insert_rearranges (order : Fin n → Fin n → Ordering) (start : Nat) (value : Fin n)
    (slot : Nat) (h : slot < n) (hstart : start ≤ slot) (d : Draft n) :
    Rearranges start (slot + 1) (d.slots.set slot value)
      (insert order start value slot h d).slots := by
  induction slot generalizing d with
  | zero => exact .refl _ _ _
  | succ k ih =>
      unfold insert
      split
      · rename_i hk
        dsimp only
        split
        · have hrest := ih (by omega) hk ((d.note d.slots[k] value).put (k + 1) h d.slots[k])
          rw [slots_put, slots_note, set_set_eq_swap _ _ h] at hrest
          exact (Rearranges.swap _ (by omega) h ⟨hk, by omega⟩ ⟨by omega, by omega⟩).trans
            (hrest.mono (Nat.le_refl _) (by omega))
        · exact .refl _ _ _
      · exact .refl _ _ _

theorem insertFrom_rearranges (order : Fin n → Fin n → Ordering) (start stop : Nat)
    (hstop : stop ≤ n) (index : Nat) (hstart : start ≤ index) (d : Draft n) :
    Rearranges start stop d.slots (insertFrom order start stop hstop index d).slots := by
  fun_induction insertFrom order start stop hstop index d with
  | case1 index d h ih =>
      have hinsert := insert_rearranges order start d.slots[index] index (by omega) hstart d
      rw [Vector.set_getElem_self] at hinsert
      exact (hinsert.mono (Nat.le_refl _) h).trans (ih (by omega))
  | case2 => exact .refl _ _ _

/-- Insertion sort stays inside of the span. -/
theorem insertionSort_rearranges (order : Fin n → Fin n → Ordering) (span : Span n) (d : Draft n) :
    Rearranges span.start span.stop d.slots (insertionSort order span d).slots :=
  insertFrom_rearranges order _ _ _ _ (Nat.le_succ _) d

theorem sweep_rearranges (order : Fin n → Fin n → Ordering) (pivot : Fin n) (start last : Nat)
    (hlast : last < n) (store index : Nat) (hstore : start ≤ store ∧ store ≤ index)
    (hindex : index ≤ last) (d : Draft n) :
    Rearranges start last d.slots
      (sweep order pivot start last hlast store index hstore hindex d).1.slots := by
  fun_induction sweep order pivot start last hlast store index hstore hindex d with
  | case1 store index hstore hindex d h place d' hgt ih => exact ih
  | case2 store index hstore hindex d h place d' hgt ih =>
      exact (Rearranges.swap d.slots (by omega) (by omega) (by omega) (by omega)).trans ih
  | case3 => exact .refl _ _ _

/-- Partitioning sweeps the span with the pivot in its last slot, and then exchanges
that slot with the one where the sweep ended. -/
theorem partition_eq (order : Fin n → Fin n → Ordering) (span : Span n) (pivotSlot : Nat)
    (hpivot : span.start ≤ pivotSlot ∧ pivotSlot < span.stop) (d : Draft n)
    (hslot : pivotSlot < n) (hlast : span.stop - 1 < n) (hrange : span.start ≤ span.stop - 1) :
    ∃ swept, swept = sweep order (d.slots.swap pivotSlot (span.stop - 1))[span.stop - 1] span.start
        (span.stop - 1) hlast span.start span.start ⟨Nat.le_refl _, Nat.le_refl _⟩ hrange
        (d.swap pivotSlot (span.stop - 1) hslot hlast) ∧
      (partition order span pivotSlot hpivot d).1 = swept.1.swap swept.2.val (span.stop - 1)
        (Nat.lt_of_le_of_lt swept.2.property.2 hlast) hlast ∧
      (partition order span pivotSlot hpivot d).2.val = swept.2.val :=
  ⟨_, rfl, rfl, rfl⟩

/-- Partitioning stays inside of the span. -/
theorem partition_rearranges (order : Fin n → Fin n → Ordering) (span : Span n) (pivotSlot : Nat)
    (hpivot : span.start ≤ pivotSlot ∧ pivotSlot < span.stop) (d : Draft n) :
    Rearranges span.start span.stop d.slots (partition order span pivotSlot hpivot d).1.slots := by
  have hstop := span.stop_le
  obtain ⟨swept, hswept, hdraft, -⟩ := partition_eq order span pivotSlot hpivot d
    (by omega) (by omega) (by omega)
  have hstore := swept.2.property
  have hsweep : Rearranges span.start (span.stop - 1) _ swept.1.slots :=
    hswept ▸ sweep_rearranges ..
  rw [hdraft, slots_swap]
  exact (Rearranges.swap _ (by omega) (by omega) hpivot (by omega)).trans
    ((hsweep.mono (Nat.le_refl _) (Nat.sub_le _ _)).trans
      (Rearranges.swap _ (by omega) (by omega) (by omega) (by omega)))

end Draft

end TextKit.Sorting
