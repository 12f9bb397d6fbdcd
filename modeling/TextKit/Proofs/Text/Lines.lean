import Mathlib.Algebra.Order.BigOperators.Group.List
import Mathlib.Algebra.Order.Group.Nat
import TextKit.Text.Pieces

/-!
# Lines that are written and split again

Every text is made of pieces with a line feed behind each, and one more piece behind the last line
feed. Its lines are these pieces, where a carriage return in front of a line feed goes with it, and
the last piece counts only if it is not empty. So lines that are written, each with a line feed
behind it, are split where they were joined.

This changes just the lines that end in a carriage return. Written lines come back as they were
exactly when none of them does, and also with their order left out of account. Lines of a text end
in one where the text itself does, or where a line feed has two in front of it.
-/

namespace TextKit.Text

variable {l : Text} {ls ls' : List Text}

/-- Every text is made of pieces before line feeds and one piece behind them. -/
theorem exists_unlines_append (t : Text) :
    ∃ ls l, t = unlines ls ++ l ∧ (∀ piece ∈ ls, '\n' ∉ piece) ∧ '\n' ∉ l := by
  induction t with
  | nil => exact ⟨[], [], rfl, by simp, by simp⟩
  | cons c t ih =>
      obtain ⟨ls, l, rfl, hls, hl⟩ := ih
      by_cases hc : c = '\n'
      · subst hc
        exact ⟨[] :: ls, l, by simp, List.forall_mem_cons.mpr ⟨by simp, hls⟩, hl⟩
      · have hcons : ∀ {piece : Text}, '\n' ∉ piece → '\n' ∉ c :: piece :=
          List.not_mem_cons_of_ne_of_not_mem (Ne.symm hc)
        cases ls with
        | nil => exact ⟨[], c :: l, rfl, hls, hcons hl⟩
        | cons first ls =>
            obtain ⟨hfirst, hls⟩ := List.forall_mem_cons.mp hls
            exact ⟨(c :: first) :: ls, l, by simp, List.forall_mem_cons.mpr ⟨hcons hfirst, hls⟩, hl⟩

theorem splitOnP_of_not_mem (hl : '\n' ∉ l) : l.splitOnP (· == '\n') = [l] :=
  List.splitOnP_eq_singleton fun _ hc => beq_eq_false_iff_ne.mpr fun heq => hl (heq ▸ hc)

/-- Splitting finds these pieces. -/
theorem splitOnP_unlines_append (hls : ∀ piece ∈ ls, '\n' ∉ piece) (t : Text) :
    (unlines ls ++ t).splitOnP (· == '\n') = ls ++ t.splitOnP (· == '\n') := by
  induction ls with
  | nil => rfl
  | cons first ls ih =>
      obtain ⟨hfirst, hls⟩ := List.forall_mem_cons.mp hls
      rw [unlines_cons, List.append_assoc, List.cons_append,
        List.splitOnP_append_cons first _ (by decide), ih hls, splitOnP_of_not_mem hfirst]
      rfl

/-- Different lines are written differently. -/
theorem unlines_inj (hls : ∀ piece ∈ ls, '\n' ∉ piece) (hls' : ∀ piece ∈ ls', '\n' ∉ piece) :
    unlines ls = unlines ls' ↔ ls = ls' := by
  constructor
  · intro heq
    have hsplit := congrArg (fun t => (t ++ []).splitOnP (· == '\n')) heq
    rw [splitOnP_unlines_append hls, splitOnP_unlines_append hls'] at hsplit
    exact List.append_cancel_right hsplit
  · rintro rfl
    rfl

theorem lines_unlines_append (hls : ∀ piece ∈ ls, '\n' ∉ piece) (hl : '\n' ∉ l) :
    lines (unlines ls ++ l) = ls.map dropReturn ++ if l.isEmpty then [] else [l] := by
  rw [lines, splitOnP_unlines_append hls, splitOnP_of_not_mem hl]
  simp

/-- Lines that are written are split again without one carriage return at their ends. -/
theorem lines_unlines (hls : ∀ piece ∈ ls, '\n' ∉ piece) :
    lines (unlines ls) = ls.map dropReturn := by
  have hlines := lines_unlines_append hls List.not_mem_nil
  rwa [List.append_nil, List.isEmpty_nil, if_pos rfl, List.append_nil] at hlines

theorem mem_of_mem_dropReturn {c : Char} (h : c ∈ dropReturn l) : c ∈ l := by
  rw [dropReturn] at h
  split at h
  · exact (List.dropLast_sublist l).mem h
  · exact h

/-- A line holds no line feed. -/
theorem not_mem_of_mem_lines {t : Text} (h : l ∈ lines t) : '\n' ∉ l := by
  obtain ⟨ls, last, rfl, hls, hlast⟩ := exists_unlines_append t
  rw [lines_unlines_append hls hlast] at h
  obtain h | h := List.mem_append.mp h
  · obtain ⟨piece, hpiece, rfl⟩ := List.mem_map.mp h
    intro hmem
    exact hls piece hpiece (mem_of_mem_dropReturn hmem)
  · split at h
    · cases h
    · rwa [List.mem_singleton.mp h]

section Return

theorem dropReturn_of_ne (h : l.getLast? ≠ some '\r') : dropReturn l = l := if_neg h

theorem length_dropReturn_lt (h : l.getLast? = some '\r') :
    (dropReturn l).length < l.length := by
  have hne : l ≠ [] := by
    rintro rfl
    cases h
  rw [dropReturn, if_pos h, List.length_dropLast]
  exact Nat.sub_lt (List.length_pos_of_ne_nil hne) Nat.one_pos

theorem length_dropReturn_le (l : Text) : (dropReturn l).length ≤ l.length := by
  by_cases h : l.getLast? = some '\r'
  · exact Nat.le_of_lt (length_dropReturn_lt h)
  · rw [dropReturn_of_ne h]

/-- Lines are the same without carriage returns at their ends just when there are none. -/
theorem map_dropReturn_perm_iff :
    (ls.map dropReturn).Perm ls ↔ ∀ l ∈ ls, l.getLast? ≠ some '\r' := by
  constructor
  · intro hperm l hl hreturn
    -- Taking a character away anywhere makes the lines shorter in total.
    have hlt : (ls.map fun l => (dropReturn l).length).sum < (ls.map List.length).sum :=
      List.sum_lt_sum _ _ (fun l _ => length_dropReturn_le l) ⟨l, hl, length_dropReturn_lt hreturn⟩
    have heq := (hperm.map List.length).sum_nat
    rw [List.map_map] at heq
    exact absurd heq (Nat.ne_of_lt hlt)
  · intro h
    rw [List.map_congr_left fun l hl => dropReturn_of_ne (h l hl), List.map_id']

/-- A line still ends in a carriage return if there were two. -/
theorem getLast?_dropReturn_iff :
    (dropReturn l).getLast? = some '\r' ↔ ['\r', '\r'] <:+ l := by
  constructor
  · intro h
    by_cases hreturn : l.getLast? = some '\r'
    · obtain ⟨u, rfl⟩ := List.getLast?_eq_some_iff.mp hreturn
      rw [dropReturn, if_pos hreturn, List.dropLast_concat] at h
      obtain ⟨v, rfl⟩ := List.getLast?_eq_some_iff.mp h
      exact ⟨v, by simp⟩
    · rw [dropReturn_of_ne hreturn] at h
      exact absurd h hreturn
  · rintro ⟨v, rfl⟩
    have hreturn : (v ++ ['\r', '\r']).getLast? = some '\r' := by simp
    rw [dropReturn, if_pos hreturn]
    simp

/-- A line feed with two carriage returns in front of it ends a piece that ends in these. -/
theorem returns_infix_iff (hls : ∀ piece ∈ ls, '\n' ∉ piece) (hl : '\n' ∉ l) :
    ['\r', '\r', '\n'] <:+: unlines ls ++ l ↔ ∃ piece ∈ ls, ['\r', '\r'] <:+ piece := by
  constructor
  · rintro ⟨front, back, heq⟩
    obtain ⟨ks, k, rfl, hks, hk⟩ := exists_unlines_append front
    have hks' : ∀ piece ∈ ks ++ [k ++ ['\r', '\r']], '\n' ∉ piece := by
      simpa [or_imp, forall_and] using ⟨hks, hk⟩
    have hfront : unlines ks ++ k ++ ['\r', '\r', '\n'] ++ back =
        unlines (ks ++ [k ++ ['\r', '\r']]) ++ back := by simp [unlines]
    have hpieces := congrArg (List.splitOnP (· == '\n')) heq
    rw [hfront, splitOnP_unlines_append hks', splitOnP_unlines_append hls,
      splitOnP_of_not_mem hl] at hpieces
    have hinit := congrArg List.dropLast hpieces
    rw [List.dropLast_append_of_ne_nil (List.splitOnP_ne_nil _ _), List.dropLast_concat] at hinit
    exact ⟨k ++ ['\r', '\r'], hinit ▸ by simp, List.suffix_append ..⟩
  · rintro ⟨piece, hpiece, u, rfl⟩
    obtain ⟨ks, ks', rfl⟩ := List.append_of_mem hpiece
    exact ⟨unlines ks ++ u, unlines ks' ++ l, by simp [unlines]⟩

theorem getLast?_unlines_ne : (unlines ls).getLast? ≠ some '\r' := by
  obtain rfl | ⟨ks, l, rfl⟩ := List.eq_nil_or_concat ls
  · simp
  · simp [unlines]

/-- Lines of a text end in a carriage return where the text itself does, or where a line feed has
two in front of it. -/
theorem exists_line_return_iff (t : Text) :
    (∃ l ∈ lines t, l.getLast? = some '\r') ↔
      ['\r', '\r', '\n'] <:+: t ∨ t.getLast? = some '\r' := by
  obtain ⟨ls, last, rfl, hls, hlast⟩ := exists_unlines_append t
  rw [returns_infix_iff hls hlast, lines_unlines_append hls hlast]
  constructor
  · rintro ⟨l, hl, hreturn⟩
    obtain hl | hl := List.mem_append.mp hl
    · obtain ⟨piece, hpiece, rfl⟩ := List.mem_map.mp hl
      exact .inl ⟨piece, hpiece, getLast?_dropReturn_iff.mp hreturn⟩
    · split at hl
      · cases hl
      · rw [List.mem_singleton.mp hl] at hreturn
        exact .inr (by rw [List.getLast?_append, hreturn, Option.some_or])
  · rintro (⟨piece, hpiece, hreturns⟩ | hreturn)
    · exact ⟨dropReturn piece, List.mem_append_left _ (List.mem_map_of_mem hpiece),
        getLast?_dropReturn_iff.mpr hreturns⟩
    · cases last with
      | nil =>
          rw [List.append_nil] at hreturn
          exact absurd hreturn getLast?_unlines_ne
      | cons c last =>
          rw [List.getLast?_append_of_ne_nil _ (List.cons_ne_nil _ _)] at hreturn
          exact ⟨c :: last, List.mem_append_right _ (by simp), hreturn⟩

end Return

end TextKit.Text
