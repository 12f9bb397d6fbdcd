import Mathlib.Data.List.FinRange
import TextKit.Proofs.Sorting.Comparisons
import TextKit.Proofs.Sorting.Sortedness

/-!
# Runs of slots as lists

What stands in consecutive slots, from left to right, is a list. It is longer by one place for one
more slot at either end, and it is permuted by any rearrangement that stays inside of its slots.
-/

namespace TextKit.Sorting

variable {n : Nat}

/-- The places in the slots from `lo` up to, excluding, `hi`. -/
def Arrangement.run (a : Arrangement n) (lo hi : Nat) : List (Fin n) := (a.toList.take hi).drop lo

section Run

variable {a b : Arrangement n} {lo hi k : Nat}

theorem length_run (a : Arrangement n) (lo : Nat) (hhi : hi ≤ n) :
    (a.run lo hi).length = hi - lo := by
  simp [Arrangement.run, Nat.min_eq_left hhi]

theorem getElem_run (a : Arrangement n) (lo hi : Nat) (h : k < (a.run lo hi).length)
    (hk : lo + k < n) : (a.run lo hi)[k] = a.place ⟨lo + k, hk⟩ := by
  simp [Arrangement.run, Arrangement.place, Vector.get]

theorem run_of_le (a : Arrangement n) (h : hi ≤ lo) : a.run lo hi = [] := by
  apply List.drop_eq_nil_of_le
  exact (List.length_take_le _ _).trans h

theorem run_singleton (a : Arrangement n) (h : k < n) : a.run k (k + 1) = [a.place ⟨k, h⟩] := by
  apply List.ext_getElem
  · simp [length_run a k h]
  · intro l hl hl'
    obtain rfl := Nat.lt_one_iff.mp hl'
    exact getElem_run a k (k + 1) hl h

/-- A run can be cut before any of its slots. -/
theorem run_append (a : Arrangement n) (hlo : lo ≤ k) (hk : k ≤ hi) (hn : k ≤ n) :
    a.run lo hi = a.run lo k ++ a.run k hi := by
  have hfront : (a.toList.take hi).take k = a.toList.take k := by
    rw [List.take_take, Nat.min_eq_left hk]
  have hlength : lo ≤ (a.toList.take k).length := by simp [hlo, Nat.le_trans hlo hn]
  rw [Arrangement.run, ← List.take_append_drop k (a.toList.take hi), hfront,
    List.drop_append_of_le_length hlength]
  rfl

theorem run_eq_cons (a : Arrangement n) (hlo : lo < hi) (h : lo < n) :
    a.run lo hi = a.place ⟨lo, h⟩ :: a.run (lo + 1) hi := by
  rw [run_append a (Nat.le_succ lo) hlo h, run_singleton a h, List.singleton_append]

theorem run_succ (a : Arrangement n) (hlo : lo ≤ hi) (h : hi < n) :
    a.run lo (hi + 1) = a.run lo hi ++ [a.place ⟨hi, h⟩] := by
  rw [run_append a hlo (Nat.le_succ hi) h.le, run_singleton a h]

theorem run_eq_ofFn (a : Arrangement n) : a.run 0 n = List.ofFn a.place := by
  apply List.ext_getElem
  · rw [length_run a 0 (Nat.le_refl n), List.length_ofFn, Nat.sub_zero]
  · intro k h h'
    rw [List.length_ofFn] at h'
    rw [getElem_run a 0 n h (by omega), List.getElem_ofFn]
    exact congrArg a.place (Fin.ext (Nat.zero_add k))

/-- Runs are equal if the same places stand in their slots. -/
theorem run_congr (hhi : hi ≤ n)
    (h : ∀ i : Fin n, lo ≤ i.val → i.val < hi → b.place i = a.place i) :
    b.run lo hi = a.run lo hi := by
  apply List.ext_getElem
  · rw [length_run b lo hhi, length_run a lo hhi]
  · intro k hb ha
    rw [length_run b lo hhi] at hb
    rw [getElem_run b lo hi _ (by omega), getElem_run a lo hi _ (by omega)]
    exact h _ (by simp) (by simp; omega)

/-- A run does not depend on the slots behind it. -/
theorem run_set_behind (a : Arrangement n) (h : k < n) (hhi : hi ≤ k) (value : Fin n) :
    Arrangement.run (a.set k value) lo hi = a.run lo hi := by
  refine run_congr (Nat.le_trans hhi h.le) fun i _ hi' => ?_
  rw [Arrangement.place_set, if_neg (Nat.lt_of_lt_of_le hi' hhi).ne]

theorem run_set_last (a : Arrangement n) (h : k < n) (hlo : lo ≤ k) (value : Fin n) :
    Arrangement.run (a.set k value) lo (k + 1) = a.run lo k ++ [value] := by
  rw [run_succ _ hlo h, run_set_behind a h (Nat.le_refl k), Arrangement.place_set, if_pos rfl]

theorem mem_run_iff (a : Arrangement n) (lo : Nat) (hhi : hi ≤ n) {p : Fin n} :
    p ∈ a.run lo hi ↔ Stands a lo hi p := by
  rw [List.mem_iff_getElem]
  constructor
  · rintro ⟨k, h, rfl⟩
    have hk := h
    rw [length_run a lo hhi] at hk
    rw [getElem_run a lo hi h (by omega)]
    exact ⟨_, by simp, by simp; omega, rfl⟩
  · rintro ⟨i, hlo, hi', rfl⟩
    refine ⟨i.val - lo, by rw [length_run a lo hhi]; omega, ?_⟩
    rw [getElem_run a lo hi _ (by omega)]
    exact congrArg a.place (Fin.ext (by simp; omega))

/-- If no place stands twice, a run has each of its places once. -/
theorem lists_run (ha : Function.Injective a.place) (lo : Nat) (hhi : hi ≤ n) :
    Lists a lo hi (a.run lo hi) := by
  refine ⟨?_, fun p => mem_run_iff a lo hhi⟩
  rw [List.nodup_iff_pairwise_ne, List.pairwise_iff_getElem]
  intro k l hk hl hkl
  rw [length_run a lo hhi] at hk hl
  rw [getElem_run a lo hi _ (by omega), getElem_run a lo hi _ (by omega), Ne, ha.eq_iff,
    Fin.ext_iff]
  simp only
  omega

theorem pairwise_run {R : Fin n → Fin n → Prop} (hhi : hi ≤ n)
    (h : ∀ i j : Fin n, lo ≤ i.val → i.val < j.val → j.val < hi → R (a.place i) (a.place j)) :
    (a.run lo hi).Pairwise R := by
  rw [List.pairwise_iff_getElem]
  intro k l hk hl hkl
  rw [length_run a lo hhi] at hk hl
  rw [getElem_run a lo hi _ (by omega), getElem_run a lo hi _ (by omega)]
  exact h _ _ (by simp) (by simpa using hkl) (by simp; omega)

/-- Neighbours in a run stand in neighbouring slots. -/
theorem isChain_run_iff {R : Fin n → Fin n → Prop} (hhi : hi ≤ n) : (a.run lo hi).IsChain R ↔
    ∀ i j : Fin n, lo ≤ i.val → j.val = i.val + 1 → j.val < hi → R (a.place i) (a.place j) := by
  rw [List.isChain_iff_getElem]
  constructor
  · intro h i j hi' hij hj
    have hrun := h (i.val - lo) (by rw [length_run a lo hhi]; omega)
    rw [getElem_run a lo hi _ (by omega), getElem_run a lo hi _ (by omega)] at hrun
    convert hrun using 2 <;> exact Fin.ext (by simp; omega)
  · intro h k hk
    rw [length_run a lo hhi] at hk
    rw [getElem_run a lo hi _ (by omega), getElem_run a lo hi _ (by omega)]
    exact h _ _ (by simp) (by simp; omega) (by simp; omega)

end Run

/-- Rearranging slots permutes what stands in them. -/
theorem Rearranges.run_perm {a b : Arrangement n} {lo hi : Nat} (h : Rearranges lo hi a b)
    (hlo : lo ≤ hi) (hhi : hi ≤ n) : (b.run lo hi).Perm (a.run lo hi) := by
  have hall : (b.run 0 n).Perm (a.run 0 n) := by
    obtain ⟨move, -, hmove⟩ := h
    rw [run_eq_ofFn, run_eq_ofFn, show b.place = a.place ∘ move from funext hmove]
    exact move.ofFn_comp_perm a.place
  have hfront : b.run 0 lo = a.run 0 lo :=
    run_congr (Nat.le_trans hlo hhi) fun i _ hi' => h.outside (.inl hi')
  have hback : b.run hi n = a.run hi n :=
    run_congr (Nat.le_refl n) fun i hi' _ => h.outside (.inr hi')
  have hsplit : ∀ c : Arrangement n, c.run 0 n = c.run 0 lo ++ (c.run lo hi ++ c.run hi n) := by
    intro c
    rw [run_append c (Nat.zero_le lo) (Nat.le_trans hlo hhi) (Nat.le_trans hlo hhi),
      run_append c hlo hhi hhi]
  rw [hsplit a, hsplit b, hfront, hback, List.perm_append_left_iff,
    List.perm_append_right_iff] at hall
  exact hall

end TextKit.Sorting
