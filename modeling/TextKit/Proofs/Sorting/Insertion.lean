import Mathlib.Data.List.DropRight
import TextKit.Proofs.Sorting.LocalOrder
import TextKit.Proofs.Sorting.MergeSort
import TextKit.Proofs.Sorting.Runs

/-!
# What insertion sort achieves

While a value is inserted it is held outside, and the slots have one place twice. When it has been
put back, the run in front of it is that of before, cut behind the last place that does not compare
greater. So on the list of a run, insertion sort takes the places one by one and puts each behind
the last one that does not compare greater.

Such an insertion never moves a value past one that ties with it, since all that it passes compares
greater. With a consistent comparison the places that tie keep their order, and a sorted list is
determined by these orders. Insertion sort therefore agrees with the merge sort, which is stable.

If no place is greater than the one behind it, each insertion makes one comparison and leaves the
value where it is.
-/

namespace TextKit.Sorting

variable {α : Type} {n : Nat}

/-- Whether an item compares greater than a value. -/
def exceeds (cmp : α → α → Ordering) (value item : α) : Bool := cmp item value == .gt

/-- Put a value behind the last item of a list that does not compare greater. -/
def insertBehind (cmp : α → α → Ordering) (items : List α) (value : α) : List α :=
  items.rdropWhile (exceeds cmp value) ++ value :: items.rtakeWhile (exceeds cmp value)

section Insertion

variable {cmp : α → α → Ordering} {items : List α} {item value : α}

theorem exceeds_iff : exceeds cmp value item = true ↔ cmp item value = .gt := beq_iff_eq

@[simp] theorem insertBehind_nil : insertBehind cmp [] value = [value] := by
  simp [insertBehind]

/-- A greater item stays behind the value. -/
theorem insertBehind_concat_of_gt (h : cmp item value = .gt) :
    insertBehind cmp (items ++ [item]) value = insertBehind cmp items value ++ [item] := by
  have hgt := exceeds_iff.mpr h
  rw [insertBehind, List.rdropWhile_concat_pos _ _ _ hgt, List.rtakeWhile_concat_pos _ _ _ hgt,
    insertBehind, List.append_assoc, List.cons_append]

/-- Behind an item that is not greater the value comes last. -/
theorem insertBehind_concat_of_ne_gt (h : cmp item value ≠ .gt) :
    insertBehind cmp (items ++ [item]) value = items ++ [item] ++ [value] := by
  have hle := mt exceeds_iff.mp h
  rw [insertBehind, List.rdropWhile_concat_neg _ _ _ hle, List.rtakeWhile_concat_neg _ _ _ hle]

end Insertion

/-- Whether two items compare equal. -/
def ties (cmp : α → α → Ordering) (a b : α) : Bool := cmp a b == .eq

section Stability

variable {cmp : α → α → Ordering}

theorem ties_iff {a b : α} : ties cmp a b = true ↔ cmp a b = .eq := beq_iff_eq

variable [Std.TransCmp cmp]

/-- A value does not pass items that tie with it. -/
theorem filter_insertBehind (x value : α) (items : List α) :
    (insertBehind cmp items value).filter (ties cmp x) =
      items.filter (ties cmp x) ++ [value].filter (ties cmp x) := by
  have hitems : items.filter (ties cmp x) =
      (items.rdropWhile (exceeds cmp value)).filter (ties cmp x) ++
        (items.rtakeWhile (exceeds cmp value)).filter (ties cmp x) := by
    rw [← List.filter_append, List.rdropWhile_append_rtakeWhile]
  rw [insertBehind, List.filter_append, hitems]
  by_cases hvalue : ties cmp x value = true
  · have hpassed : (items.rtakeWhile (exceeds cmp value)).filter (ties cmp x) = [] := by
      rw [List.filter_eq_nil_iff]
      intro a ha htie
      have hgt : cmp a value = .gt := exceeds_iff.mp (List.mem_rtakeWhile_imp ha)
      rw [← Std.TransCmp.congr_left (ties_iff.mp htie), ties_iff.mp hvalue] at hgt
      cases hgt
    rw [List.filter_cons_of_pos hvalue, hpassed, List.append_nil, List.filter_cons_of_pos hvalue,
      List.filter_nil]
  · rw [List.filter_cons_of_neg hvalue, List.filter_cons_of_neg hvalue, List.filter_nil,
      List.append_nil]

theorem filter_foldl_insertBehind (x : α) (items done : List α) :
    (items.foldl (insertBehind cmp) done).filter (ties cmp x) =
      done.filter (ties cmp x) ++ items.filter (ties cmp x) := by
  induction items generalizing done with
  | nil => simp
  | cons value items ih =>
      rw [List.foldl_cons, ih, filter_insertBehind, List.append_assoc, ← List.filter_append,
        List.singleton_append]

/-- A merge sort keeps the order of items that tie. -/
theorem filter_mergeSort (x : α) (items : List α) :
    (items.mergeSort (notAfter cmp)).filter (ties cmp x) = items.filter (ties cmp x) := by
  have hpairwise : (items.filter (ties cmp x)).Pairwise fun a b => notAfter cmp a b = true := by
    apply List.pairwise_of_forall_mem_list
    intro a ha b hb
    have hxa := ties_iff.mp (List.mem_filter.mp ha).2
    have hxb := ties_iff.mp (List.mem_filter.mp hb).2
    rw [notAfter, ← Std.TransCmp.congr_left hxa, hxb]
    rfl
  have hsublist : (items.filter (ties cmp x)).Sublist (items.mergeSort (notAfter cmp)) :=
    List.sublist_mergeSort notAfter_trans notAfter_total hpairwise List.filter_sublist
  have hfilter := hsublist.filter (ties cmp x)
  simp only [List.filter_filter, Bool.and_self] at hfilter
  have hlength := ((List.mergeSort_perm items (notAfter cmp)).filter (ties cmp x)).length_eq
  exact (hfilter.eq_of_length hlength.symm).symm

/-- The first item of a sorted list is not after any other. -/
theorem notAfter_of_mem {first a : α} {items : List α}
    (h : (first :: items).Pairwise fun a b => notAfter cmp a b = true) (ha : a ∈ first :: items) :
    notAfter cmp first a = true := by
  rcases List.mem_cons.mp ha with rfl | ha
  · exact Std.ReflCmp.isLE_rfl
  · exact List.rel_of_pairwise_cons h ha

theorem ties_self (a : α) : ties cmp a a = true := ties_iff.mpr Std.ReflCmp.compare_self

theorem mem_iff_of_filter_ties {s t : List α}
    (h : ∀ x, s.filter (ties cmp x) = t.filter (ties cmp x)) (a : α) : a ∈ s ↔ a ∈ t := by
  have hfilter : a ∈ s.filter (ties cmp a) ↔ a ∈ t.filter (ties cmp a) := by rw [h]
  simpa only [List.mem_filter, ties_self, and_true] using hfilter

/-- A sorted list is determined by the orders of the items that tie. -/
theorem eq_of_filter_ties {s t : List α} (hs : s.Pairwise fun a b => notAfter cmp a b = true)
    (ht : t.Pairwise fun a b => notAfter cmp a b = true)
    (h : ∀ x, s.filter (ties cmp x) = t.filter (ties cmp x)) : s = t := by
  have hmem := mem_iff_of_filter_ties h
  induction s generalizing t with
  | nil =>
      refine (List.eq_nil_iff_forall_not_mem.mpr fun a ha => ?_).symm
      exact List.not_mem_nil ((hmem a).mpr ha)
  | cons a s ih =>
      cases t with
      | nil => exact absurd ((hmem a).mp List.mem_cons_self) List.not_mem_nil
      | cons b t =>
          -- Each of the two first items is in both lists, so they tie, and are the first that do.
          have hab : ties cmp a b = true := ties_iff.mpr (Std.OrientedCmp.isLE_antisymm
            (notAfter_of_mem hs ((hmem b).mpr List.mem_cons_self))
            (notAfter_of_mem ht ((hmem a).mp List.mem_cons_self)))
          have hfirst := h a
          rw [List.filter_cons_of_pos (ties_self a), List.filter_cons_of_pos hab] at hfirst
          obtain rfl := List.head_eq_of_cons_eq hfirst
          have hrest : ∀ x, s.filter (ties cmp x) = t.filter (ties cmp x) := by
            intro x
            have hx := h x
            by_cases hxa : ties cmp x a = true
            · rw [List.filter_cons_of_pos hxa, List.filter_cons_of_pos hxa] at hx
              exact List.tail_eq_of_cons_eq hx
            · rwa [List.filter_cons_of_neg hxa, List.filter_cons_of_neg hxa] at hx
          rw [ih hs.of_cons ht.of_cons hrest (mem_iff_of_filter_ties hrest)]

end Stability

namespace Draft

variable (order : Fin n → Fin n → Ordering)

/-- Inserting a value is inserting it into the run in front of the free slot. -/
theorem run_insert (start : Nat) (value : Fin n) (slot : Nat) (h : slot < n)
    (hstart : start ≤ slot) (d : Draft n) :
    (insert order start value slot h d).slots.run start (slot + 1) =
      insertBehind order (d.slots.run start slot) value := by
  induction slot generalizing d with
  | zero =>
      rw [insert, slots_put, run_set_last _ h hstart, run_of_le _ (Nat.zero_le start),
        insertBehind_nil, List.nil_append]
  | succ k ih =>
      unfold insert
      split
      · rename_i hk
        have hlast : d.slots.run start (k + 1) = d.slots.run start k ++ [d.slots[k]] :=
          run_succ d.slots hk (Nat.lt_of_succ_lt h)
        dsimp only
        split
        · rename_i hgt
          have hmove := insert_rearranges order start value k (Nat.lt_of_succ_lt h) hk
            ((d.note d.slots[k] value).put (k + 1) h d.slots[k])
          have hrest := ih (Nat.lt_of_succ_lt h) hk
            ((d.note d.slots[k] value).put (k + 1) h d.slots[k])
          -- The slot that was free is not touched again.
          have hfilled := hmove.outside (i := ⟨k + 1, h⟩) (.inr (Nat.le_refl _))
          rw [slots_put, slots_note, run_set_behind _ h (Nat.le_succ k)] at hrest
          rw [slots_put, slots_note, Arrangement.place_set, Arrangement.place_set,
            if_neg (by simp), if_pos rfl] at hfilled
          rw [run_succ _ hstart h, hrest, hfilled, hlast, insertBehind_concat_of_gt hgt]
        · rename_i hle
          rw [slots_put, slots_note, run_set_last _ h hstart, hlast,
            insertBehind_concat_of_ne_gt hle]
      · rename_i hk
        rw [slots_put, run_set_last _ h hstart, run_of_le _ (by omega), insertBehind_nil,
          List.nil_append]

theorem run_insertFrom (start stop : Nat) (hstop : stop ≤ n) (index : Nat)
    (hstart : start ≤ index) (hindex : index ≤ stop) (d : Draft n) :
    (insertFrom order start stop hstop index d).slots.run start stop =
      (d.slots.run index stop).foldl (insertBehind order) (d.slots.run start index) := by
  fun_induction insertFrom order start stop hstop index d with
  | case1 index d h ih =>
      have hn : index < n := Nat.lt_of_lt_of_le h hstop
      have hmove := insert_rearranges order start d.slots[index] index hn hstart d
      rw [Vector.set_getElem_self] at hmove
      have hbehind : (insert order start d.slots[index] index hn d).slots.run (index + 1) stop =
          d.slots.run (index + 1) stop := run_congr hstop fun i hi _ => hmove.outside (.inr hi)
      rw [ih (Nat.le_succ_of_le hstart) h, hbehind, run_insert order start _ index hn hstart,
        run_eq_cons d.slots h hn, List.foldl_cons]
      rfl
  | case2 index d h =>
      obtain rfl : index = stop := Nat.le_antisymm hindex (Nat.le_of_not_lt h)
      rw [run_of_le d.slots (Nat.le_refl index), List.foldl_nil]

/-- Insertion sort inserts the places of the span one by one. -/
theorem run_insertionSort (span : Span n) (d : Draft n) :
    (insertionSort order span d).slots.run span.start span.stop =
      (d.slots.run span.start span.stop).foldl (insertBehind order) [] := by
  rcases Nat.lt_or_ge span.start span.stop with h | h
  · have hn : span.start < n := Nat.lt_of_lt_of_le h span.stop_le
    rw [insertionSort, run_insertFrom order _ _ span.stop_le _ (Nat.le_succ _) h,
      run_eq_cons d.slots h hn, run_singleton d.slots hn, List.foldl_cons, insertBehind_nil]
  · rw [run_of_le _ h, run_of_le _ h, List.foldl_nil]

/-- With a consistent comparison insertion sort is the stable sort. -/
theorem run_insertionSort_eq_mergeSort [Std.TransCmp order] (span : Span n) (d : Draft n) :
    (insertionSort order span d).slots.run span.start span.stop =
      (d.slots.run span.start span.stop).mergeSort (notAfter order) := by
  have hsorted : ((insertionSort order span d).slots.run span.start span.stop).Pairwise
      fun l r => notAfter order l r = true :=
    pairwise_run span.stop_le (insertionSort_sortedOn span d)
  refine eq_of_filter_ties hsorted (List.pairwise_mergeSort notAfter_trans notAfter_total _) ?_
  intro x
  rw [run_insertionSort, filter_foldl_insertBehind, filter_mergeSort, List.filter_nil,
    List.nil_append]

/-- A value that the place before it does not exceed is compared with that place and stays. -/
theorem insert_of_ne_gt {start k : Nat} (hk : k < n) (h : k + 1 < n) (hstart : start ≤ k)
    (d : Draft n) (hle : order d.slots[k] d.slots[k + 1] ≠ .gt) :
    insert order start d.slots[k + 1] (k + 1) h d = d.note d.slots[k] d.slots[k + 1] := by
  rw [insert, if_pos hstart]
  dsimp only
  split
  · rename_i hgt
    exact absurd hgt hle
  · rw [put, slots_note, Vector.set_getElem_self]
    rfl

theorem insertFrom_of_ordered (start stop : Nat) (hstop : stop ≤ n) (index : Nat)
    (hstart : start < index) (d : Draft n)
    (hd : ∀ i j : Fin n, start ≤ i.val → j.val = i.val + 1 → j.val < stop →
      order (d.slots.place i) (d.slots.place j) ≠ .gt) :
    (insertFrom order start stop hstop index d).slots = d.slots ∧
      (insertFrom order start stop hstop index d).comparisons.size =
        d.comparisons.size + (stop - index) := by
  fun_induction insertFrom order start stop hstop index d with
  | case1 index d h ih =>
      obtain ⟨k, rfl⟩ : ∃ k, index = k + 1 := ⟨index - 1, by omega⟩
      have hn : k + 1 < n := Nat.lt_of_lt_of_le h hstop
      have hk : k < n := Nat.lt_of_succ_lt hn
      have hkeep := insert_of_ne_gt order hk hn (Nat.le_of_lt_succ hstart) d
        (hd ⟨k, hk⟩ ⟨k + 1, hn⟩ (Nat.le_of_lt_succ hstart) rfl h)
      rw [hkeep] at ih ⊢
      obtain ⟨hslots, hsize⟩ := ih (Nat.lt_succ_of_lt hstart) hd
      refine ⟨hslots, ?_⟩
      rw [hsize, comparisons_note, Array.size_push]
      omega
  | case2 index d h => exact ⟨rfl, by omega⟩

/-- Insertion sort permutes its span and leaves the other slots alone. Whatever the comparison
answers, neighbours are then allowed to stand so by one of the two ways to compare them. A
consistent comparison gives the stable sort, and if neighbours are in order already, nothing moves
and each two of them are compared once. -/
theorem insertionSort_sorts_span (span : Span n) (d : Draft n) :
    (∀ i : Fin n, i.val < span.start ∨ span.stop ≤ i.val →
      (insertionSort order span d).slots.place i = d.slots.place i) ∧
    ((insertionSort order span d).slots.run span.start span.stop).Perm
      (d.slots.run span.start span.stop) ∧
    (((insertionSort order span d).slots.run span.start span.stop).IsChain fun l r =>
      order l r ≠ .gt ∨ order r l = .gt) ∧
    (Std.TransCmp order → (insertionSort order span d).slots.run span.start span.stop =
      (d.slots.run span.start span.stop).mergeSort (notAfter order)) ∧
    ((d.slots.run span.start span.stop).IsChain (fun l r => order l r ≠ .gt) →
      (insertionSort order span d).slots = d.slots ∧
        (insertionSort order span d).comparisons.size = d.comparisons.size + (span.size - 1)) := by
  have hmove := insertionSort_rearranges order span d
  refine ⟨fun i hi => hmove.outside hi, hmove.run_perm span.start_le_stop span.stop_le, ?_, ?_, ?_⟩
  · exact (isChain_run_iff span.stop_le).mpr (insertionSort_linkedOn span d)
  · intro hconsistent
    exact run_insertionSort_eq_mergeSort order span d
  · intro hordered
    have hslots := insertFrom_of_ordered order span.start span.stop span.stop_le (span.start + 1)
      (Nat.lt_succ_self _) d ((isChain_run_iff span.stop_le).mp hordered)
    rw [Span.size, Nat.sub_sub]
    exact hslots

/-- Even places come before odd ones, and are not told apart. -/
def byParity : Fin 5 → Fin 5 → Ordering := compareOn fun place => place.val % 2

/-- Two odd places with two even ones behind them, and the other way around. -/
theorem insertionSort_sorts_span_of_parities :
    (Std.TransCmp byParity ∧
      (insertionSort byParity ⟨1, 5, by decide, by decide⟩ ⟨#v[2, 3, 1, 4, 0], #[]⟩).slots.run 1 5 =
        (Arrangement.run #v[2, 3, 1, 4, 0] 1 5).mergeSort (notAfter byParity)) ∧
    ((Arrangement.run #v[2, 4, 0, 3, 1] 1 5).IsChain (fun l r => byParity l r ≠ .gt) ∧
      (insertionSort byParity ⟨1, 5, by decide, by decide⟩ ⟨#v[2, 4, 0, 3, 1], #[]⟩).slots =
        #v[2, 4, 0, 3, 1] ∧
      (insertionSort byParity ⟨1, 5, by decide, by decide⟩
        ⟨#v[2, 4, 0, 3, 1], #[]⟩).comparisons.size = 3) := by
  have hconsistent : Std.TransCmp byParity := inferInstanceAs (Std.TransCmp (compareOn _))
  have hordered : (Arrangement.run #v[2, 4, 0, 3, 1] 1 5).IsChain
      (fun l r => byParity l r ≠ .gt) := by decide
  exact ⟨⟨hconsistent, (insertionSort_sorts_span byParity _ _).2.2.2.1 hconsistent⟩, hordered,
    (insertionSort_sorts_span byParity _ _).2.2.2.2 hordered⟩

end Draft

end TextKit.Sorting
